import TradeLayer.Basic
import TradeLayer.Library.Keyed

namespace TradeLayer
open Library

inductive TallyType
  | balance
  | sellOfferReserve
  | acceptReserve
  | pending
  | metadexReserve
  | contractdexReserve
  | positiveBalance
  | negativeBalance
  | realizedProfit
  | realizedLosses
  | count
  | remaining
  | liquidationPrice
  | upnl
  | nupnl
  | unvested
  | contractdexMargin
  | channelReserve
  /-- The number of tally types, which is not one of them. -/
  | tallyTypeCount
  deriving DecidableEq, Repr

abbrev BalanceRecord := TallyType → Int

abbrev Tally := OrderedMap PropertyId BalanceRecord

def isOverflow (a b : Int) : Bool :=
  (0 < b && int64Max - b < a) || (b < 0 && a < int64Min - b)

theorem isOverflow_eq_false {a b : Int} (ha : InInt64 a) :
    isOverflow a b = false ↔ InInt64 (a + b) := by
  simp only [isOverflow, InInt64, Bool.or_eq_false_iff, Bool.and_eq_false_iff,
    decide_eq_false_iff_not] at ha ⊢
  omega

namespace Tally

variable {t : Tally} {p q : PropertyId} {amount : Int} {ttype u : TallyType}

def getMoney (t : Tally) (propertyId : PropertyId) (ttype : TallyType) : Int :=
  if ttype = .tallyTypeCount then 0
  else ((t.get? propertyId).map fun record => record ttype).getD 0

/-- The record of a property, created with zero amounts when there is none. -/
def record (t : Tally) (propertyId : PropertyId) : BalanceRecord :=
  (t.get? propertyId).getD fun _ => 0

def updateMoney (t : Tally) (propertyId : PropertyId) (amount : Int) (ttype : TallyType) :
    Bool × Tally :=
  if ttype = .tallyTypeCount ∨ amount = 0 then (false, t)
  else
    let record := t.record propertyId
    let now64 := record ttype
    if isOverflow now64 amount then (false, t.set propertyId record)
    else if ttype ≠ .pending ∧ now64 + amount < 0 then (false, t.set propertyId record)
    else (true, t.set propertyId (Function.update record ttype (now64 + amount)))

theorem getMoney_eq_record (h : u ≠ .tallyTypeCount) : t.getMoney q u = t.record q u := by
  unfold getMoney record
  cases t.get? q <;> simp [h]

theorem record_set {r : BalanceRecord} :
    record (t.set p r) q = if q = p then r else t.record q := by
  unfold record
  rw [OrderedMap.get?_set]
  split_ifs <;> rfl

/-- An amount is taken when it is not zero, the sum fits and, outside the pending tally, is
not negative. -/
def Accepts (t : Tally) (propertyId : PropertyId) (amount : Int) (ttype : TallyType) : Prop :=
  ttype ≠ .tallyTypeCount ∧ amount ≠ 0 ∧ isOverflow (t.getMoney propertyId ttype) amount = false ∧
    (ttype = .pending ∨ 0 ≤ t.getMoney propertyId ttype + amount)

theorem updateMoney_cases (t : Tally) (p : PropertyId) (amount : Int) (ttype : TallyType) :
    (¬ t.Accepts p amount ttype ∧ (t.updateMoney p amount ttype = (false, t) ∨
        t.updateMoney p amount ttype = (false, t.set p (t.record p)))) ∨
      (t.Accepts p amount ttype ∧ t.updateMoney p amount ttype =
        (true, t.set p (Function.update (t.record p) ttype (t.record p ttype + amount)))) := by
  simp only [updateMoney, Accepts]
  by_cases hz : ttype = .tallyTypeCount ∨ amount = 0
  · rw [if_pos hz]
    exact .inl ⟨by tauto, .inl rfl⟩
  push Not at hz
  rw [if_neg (by tauto), getMoney_eq_record hz.1]
  split_ifs with ho hn
  · exact .inl ⟨by simp [ho], .inr rfl⟩
  · exact .inl ⟨by rintro ⟨-, -, -, hp | hp⟩ <;> [exact hn.1 hp; omega], .inr rfl⟩
  · refine .inr ⟨⟨hz.1, hz.2, by simpa using ho, ?_⟩, rfl⟩
    by_cases hp : ttype = .pending
    · exact .inl hp
    · exact .inr (not_lt.mp fun h => hn ⟨hp, h⟩)

theorem updateMoney_fst : (t.updateMoney p amount ttype).1 = true ↔ t.Accepts p amount ttype := by
  rcases t.updateMoney_cases p amount ttype with ⟨h, he | he⟩ | ⟨h, he⟩ <;> simp [he, h]

theorem getMoney_updateMoney : (t.updateMoney p amount ttype).2.getMoney q u =
    t.getMoney q u +
      if (t.updateMoney p amount ttype).1 = true ∧ q = p ∧ u = ttype then amount else 0 := by
  by_cases hu : u = .tallyTypeCount
  · have h : ¬ ((t.updateMoney p amount ttype).1 = true ∧ q = p ∧ u = ttype) := by
      rintro ⟨h, -, rfl⟩
      exact (updateMoney_fst.mp h).1 hu
    rw [if_neg h]
    simp [getMoney, hu]
  rw [getMoney_eq_record hu, getMoney_eq_record hu]
  rcases t.updateMoney_cases p amount ttype with ⟨-, he | he⟩ | ⟨-, he⟩
  · simp [he]
  · by_cases hq : q = p <;> simp [he, record_set, hq]
  · by_cases hq : q = p
    · by_cases ht : u = ttype <;> simp [he, record_set, hq, ht]
    · simp [he, record_set, hq]

end Tally

end TradeLayer
