import TradeLayer.Freeze
import TradeLayer.Library.Outcome
import TradeLayer.Library.Posting
import TradeLayer.Tally

namespace TradeLayer
open Library

/-- The balances of all addresses together with the freeze sets that guard them. The map of
the source is a hash map; nothing it is used for depends on its order. -/
structure Ledger where
  mpTallyMap : OrderedMap Address Tally
  freeze : FreezeState

structure Account where
  owner : Address
  property : PropertyId
  ttype : TallyType
  deriving DecidableEq, Repr

namespace Ledger

variable {l l' m : Ledger} {a who : Address} {p q : PropertyId} {t u : TallyType} {n amount : Int}
variable {ps qs : List (Posting Account)} {ok : Bool} {e : Abort}

def tally (l : Ledger) (who : Address) : Tally :=
  (l.mpTallyMap.get? who).getD ∅

def money (l : Ledger) (who : Address) (propertyId : PropertyId) (ttype : TallyType) : Int :=
  (l.tally who).getMoney propertyId ttype

def getTokenBalance (l : Ledger) (address : Address) (propertyId : PropertyId)
    (ttype : TallyType) : Int :=
  if ttype = .tallyTypeCount then 0
  -- the accept reserve is taken to be empty except for the two base properties
  else if ttype = .acceptReserve ∧ tlPropertyTmsc < propertyId then 0
  else l.money address propertyId ttype

def setTally (l : Ledger) (who : Address) (tally : Tally) : Ledger :=
  { l with mpTallyMap := l.mpTallyMap.set who tally }

/-- The ledger of postings to empty accounts, none of them frozen. -/
def ofPostings (ps : List (Posting Account)) : Ledger :=
  ps.foldl (fun l x => l.setTally x.account.owner
    ((l.tally x.account.owner).updateMoney x.account.property x.amount x.account.ttype).2)
    ⟨∅, .clear⟩

def DebitsFrozen (l : Ledger) (who : Address) (propertyId : PropertyId) (amount : Int)
    (ttype : TallyType) : Prop :=
  ttype = .balance ∧ amount < 0 ∧ l.freeze.isAddressFrozen who propertyId = true

instance : Decidable (l.DebitsFrozen who p n t) := inferInstanceAs (Decidable (_ ∧ _ ∧ _))

def updateTallyMap (l : Ledger) (who : Address) (propertyId : PropertyId) (amount : Int)
    (ttype : TallyType) : Except Abort (Bool × Ledger) :=
  if amount = 0 ∨ ttype = .tallyTypeCount then .ok (false, l)
  else if l.DebitsFrozen who propertyId amount ttype then .error (.addressFrozen who propertyId)
  else
    let before := l.getTokenBalance who propertyId ttype
    let (bRet, tally) := (l.tally who).updateMoney propertyId amount ttype
    let l := l.setTally who tally
    let after := l.getTokenBalance who propertyId ttype
    if bRet = false ∧ before ≠ after then .error .assertion else .ok (bRet, l)

def assertTally (l : Ledger) (who : Address) (propertyId : PropertyId) (amount : Int)
    (ttype : TallyType) : Except Abort Ledger := do
  let (ok, l) ← l.updateTallyMap who propertyId amount ttype
  if ok then .ok l else .error (.tallyAssert who propertyId amount)

/-- The update is refused unless the amount is not zero, the sum fits and, outside the pending
tally, is not negative. -/
def Accepts (l : Ledger) (who : Address) (propertyId : PropertyId) (amount : Int)
    (ttype : TallyType) : Prop :=
  (l.tally who).Accepts propertyId amount ttype

instance : Decidable (l.Accepts who p n t) :=
  inferInstanceAs (Decidable (_ ∧ _ ∧ _ ∧ (_ ∨ _)))

theorem money_setTally {x : Tally} : (l.setTally who x).money a p t =
    if a = who then x.getMoney p t else l.money a p t := by
  simp only [money, tally, setTally, OrderedMap.get?_set]
  split_ifs <;> rfl

theorem money_ofPostings (h : ∀ x ∈ ps, x.account.ttype ≠ t) : (ofPostings ps).money a p t = 0 := by
  suffices hfold : ∀ l : Ledger, l.money a p t = 0 → (ps.foldl (fun l x =>
      l.setTally x.account.owner ((l.tally x.account.owner).updateMoney x.account.property
        x.amount x.account.ttype).2) l).money a p t = 0 from hfold _
          (by simp [money, tally, Tally.getMoney])
  induction ps with
  | nil => exact fun _ hl => hl
  | cons x ps ih =>
    intro l hl
    refine ih (fun y hy => h y (List.mem_cons_of_mem _ hy)) _ ?_
    rw [money_setTally, Tally.getMoney_updateMoney]
    have hx := (h x List.mem_cons_self).symm
    by_cases ha : a = x.account.owner
    · subst ha
      simpa [hx, money] using hl
    · simpa [ha] using hl

def supply (l : Ledger) (propertyId : PropertyId) (ttype : TallyType) : Int :=
  l.mpTallyMap.sum fun e => e.2.getMoney propertyId ttype

theorem supply_congr (h : ∀ a, l.money a p t = l.money a q u) : l.supply p t = l.supply q u := by
  apply Keyed.sum_congr
  intro e he
  have hmoney := h e.1
  simp only [money, tally, OrderedMap.get?_eq_some.mpr he, Option.getD_some] at hmoney
  exact hmoney

theorem supply_setTally {x : Tally} : (l.setTally who x).supply p t =
    l.supply p t + (x.getMoney p t - l.money who p t) := by
  have h := OrderedMap.sum_set (m := l.mpTallyMap) (k := who) (x := x) fun y => y.getMoney p t
  have hm : ((l.mpTallyMap.get? who).map fun y => y.getMoney p t).getD 0 = l.money who p t := by
    simp only [money, tally]
    cases l.mpTallyMap.get? who with
    | none => simp [Tally.getMoney]
    | some y => rfl
  rw [supply, setTally, h, hm, supply]
  ring

/-- The entries that may hold a negative amount are the pending ones. -/
def Nonneg (l : Ledger) : Prop :=
  ∀ a p t, t ≠ .pending → 0 ≤ l.money a p t

theorem Nonneg.getMoney (hl : l.Nonneg) (ht : t ≠ .pending) {e : Address × Tally}
    (he : e ∈ l.mpTallyMap) : 0 ≤ e.2.getMoney p t := by
  have hmoney := hl e.1 p t ht
  rwa [money, tally, OrderedMap.get?_eq_some.mpr he, Option.getD_some] at hmoney

theorem Nonneg.supply_nonneg (hl : l.Nonneg) (ht : t ≠ .pending) : 0 ≤ l.supply p t :=
  Keyed.sum_nonneg fun _ he => hl.getMoney ht he

theorem Nonneg.money_le_supply (hl : l.Nonneg) (ht : t ≠ .pending) :
    l.money a p t ≤ l.supply p t := by
  cases htally : l.mpTallyMap.get? a with
  | none =>
    have hzero : l.money a p t = 0 := by simp [money, tally, htally, Tally.getMoney]
    rw [hzero]
    exact hl.supply_nonneg ht
  | some x =>
    have hmoney : l.money a p t = x.getMoney p t := by
      rw [money, tally, htally, Option.getD_some]
    rw [hmoney]
    exact Keyed.le_sum (f := fun e => e.2.getMoney p t) (fun _ he => hl.getMoney ht he)
      (OrderedMap.get?_eq_some.mp htally)

/-- Going from one ledger to another books a list of postings and does nothing else that a
reader of amounts or of the freeze sets can see. -/
structure Posted (l : Ledger) (ps : List (Posting Account)) (l' : Ledger) : Prop where
  freeze_eq : l'.freeze = l.freeze
  money_eq : ∀ a p t, l'.money a p t = l.money a p t + Posting.net (· = ⟨a, p, t⟩) ps
  supply_eq : ∀ p t, l'.supply p t =
    l.supply p t + Posting.net (fun k => k.property = p ∧ k.ttype = t) ps
  nonneg : l.Nonneg → l'.Nonneg
  unfrozen : ∀ x ∈ ps, ¬ l.DebitsFrozen x.account.owner x.account.property x.amount x.account.ttype

namespace Posted

theorem nil (l : Ledger) : Posted l [] l where
  freeze_eq := rfl
  money_eq := by simp
  supply_eq := by simp
  nonneg := id
  unfrozen := by simp

theorem trans (h : Posted l ps m) (h' : Posted m qs l') : Posted l (ps ++ qs) l' where
  freeze_eq := h'.freeze_eq.trans h.freeze_eq
  money_eq a p t := by rw [h'.money_eq, h.money_eq, Posting.net_append, add_assoc]
  supply_eq p t := by rw [h'.supply_eq, h.supply_eq, Posting.net_append, add_assoc]
  nonneg hl := h'.nonneg (h.nonneg hl)
  unfrozen x hx := by
    rcases List.mem_append.mp hx with hx | hx
    · exact h.unfrozen x hx
    · simpa only [DebitsFrozen, h.freeze_eq] using h'.unfrozen x hx

end Posted

theorem posted_updateMoney_of_not_accepts (l : Ledger) (h : ¬ l.Accepts who p n t) :
    Posted l [] (l.setTally who ((l.tally who).updateMoney p n t).2) := by
  have hfst : ((l.tally who).updateMoney p n t).1 = false := by
    rw [← Bool.not_eq_true, Tally.updateMoney_fst]
    exact h
  have hmoney : ∀ a q u, (l.setTally who ((l.tally who).updateMoney p n t).2).money a q u =
      l.money a q u := by
    intro a q u
    rw [money_setTally, Tally.getMoney_updateMoney, hfst]
    split_ifs with ha
    · simp_all
    · simp_all [money]
    · rfl
  refine ⟨rfl, by simpa using hmoney, ?_, ?_, by simp⟩
  · intro q u
    rw [supply_setTally, Tally.getMoney_updateMoney, hfst]
    simp [money]
  · intro hl a q u hu
    rw [hmoney]
    exact hl a q u hu

theorem posted_updateMoney_of_accepts (l : Ledger) (h : l.Accepts who p n t)
    (hf : ¬ l.DebitsFrozen who p n t) :
    Posted l [⟨⟨who, p, t⟩, n⟩] (l.setTally who ((l.tally who).updateMoney p n t).2) := by
  have hfst : ((l.tally who).updateMoney p n t).1 = true := Tally.updateMoney_fst.mpr h
  have hmoney : ∀ a q u, (l.setTally who ((l.tally who).updateMoney p n t).2).money a q u =
      l.money a q u + if a = who ∧ q = p ∧ u = t then n else 0 := by
    intro a q u
    rw [money_setTally, Tally.getMoney_updateMoney, hfst]
    by_cases ha : a = who
    · simp only [ha, if_true, true_and]
      rfl
    · simp only [ha, if_false, false_and, add_zero]
  refine ⟨rfl, ?_, ?_, ?_, by simpa using hf⟩
  · intro a q u
    rw [hmoney]
    simp only [Posting.net_cons, Posting.net_nil, add_zero, Account.mk.injEq, eq_comm]
  · intro q u
    rw [supply_setTally, Tally.getMoney_updateMoney, hfst]
    simp only [money, true_and, Posting.net_cons, Posting.net_nil, add_zero, eq_comm]
    ring
  · intro hl a q u hu
    rw [hmoney]
    split_ifs with hk
    · obtain ⟨rfl, rfl, rfl⟩ := hk
      exact h.2.2.2.resolve_left hu
    · simpa using hl a q u hu

theorem updateTallyMap_cases (l : Ledger) (who : Address) (p : PropertyId) (n : Int)
    (t : TallyType) :
    (l.DebitsFrozen who p n t ∧ l.updateTallyMap who p n t = .error (.addressFrozen who p)) ∨
      (¬ l.DebitsFrozen who p n t ∧ ∃ l',
        ((¬ l.Accepts who p n t ∧ l.updateTallyMap who p n t = .ok (false, l') ∧
            Posted l [] l') ∨
          (l.Accepts who p n t ∧ l.updateTallyMap who p n t = .ok (true, l') ∧
            Posted l [⟨⟨who, p, t⟩, n⟩] l'))) := by
  by_cases hz : n = 0 ∨ t = .tallyTypeCount
  · refine .inr ⟨?_, l, .inl ⟨?_, by rw [updateTallyMap, if_pos hz], .nil l⟩⟩
    · rintro ⟨rfl, hn, -⟩
      simp only [reduceCtorEq, or_false] at hz
      omega
    · rintro ⟨ht, hn, -⟩
      tauto
  by_cases hf : l.DebitsFrozen who p n t
  · exact .inl ⟨hf, by rw [updateTallyMap, if_neg hz, if_pos hf]⟩
  refine .inr ⟨hf, l.setTally who ((l.tally who).updateMoney p n t).2, ?_⟩
  rcases (l.tally who).updateMoney_cases p n t with ⟨hna, he⟩ | ⟨ha, he⟩
  · refine .inl ⟨hna, ?_, l.posted_updateMoney_of_not_accepts hna⟩
    have hfst : ((l.tally who).updateMoney p n t).1 = false := by
      rcases he with he | he <;> rw [he]
    have hsame := (l.posted_updateMoney_of_not_accepts hna).money_eq who p t
    simp only [Posting.net_nil, add_zero] at hsame
    simp only [updateTallyMap, if_neg hz, if_neg hf, hfst, getTokenBalance, hsame, ne_eq,
      not_true_eq_false, and_false, if_false]
  · refine .inr ⟨ha, ?_, l.posted_updateMoney_of_accepts ha hf⟩
    simp only [updateTallyMap, if_neg hz, if_neg hf, he, Bool.true_eq_false, false_and, if_false]

theorem posted_of_updateTallyMap (h : l.updateTallyMap who p n t = .ok (ok, l')) :
    Posted l (if ok then [⟨⟨who, p, t⟩, n⟩] else []) l' := by
  rcases l.updateTallyMap_cases who p n t with ⟨-, he⟩ | ⟨-, m, ⟨-, he, hm⟩ | ⟨-, he, hm⟩⟩ <;>
    rw [he] at h <;> cases h <;> exact hm

theorem posted_of_assertTally (h : l.assertTally who p n t = .ok l') :
    Posted l [⟨⟨who, p, t⟩, n⟩] l' := by
  rw [assertTally, bind_eq_ok] at h
  obtain ⟨⟨ok, m⟩, hu, h⟩ := h
  cases ok with
  | false => simp at h
  | true =>
    cases h
    exact posted_of_updateTallyMap hu

theorem assertTally_cases (l : Ledger) (who : Address) (p : PropertyId) (n : Int)
    (t : TallyType) :
    (l.DebitsFrozen who p n t ∧ l.assertTally who p n t = .error (.addressFrozen who p)) ∨
      (¬ l.DebitsFrozen who p n t ∧ ¬ l.Accepts who p n t ∧
        l.assertTally who p n t = .error (.tallyAssert who p n)) ∨
      (¬ l.DebitsFrozen who p n t ∧ l.Accepts who p n t ∧
        ∃ l', l.assertTally who p n t = .ok l') := by
  rcases l.updateTallyMap_cases who p n t with ⟨hf, hu⟩ | ⟨hf, l', ⟨ha, hu, -⟩ | ⟨ha, hu, -⟩⟩
  · exact .inl ⟨hf, by rw [assertTally, hu]; rfl⟩
  · exact .inr (.inl ⟨hf, ha, by rw [assertTally, hu]; rfl⟩)
  · exact .inr (.inr ⟨hf, ha, l', by rw [assertTally, hu]; rfl⟩)

def InRange (l : Ledger) : Prop :=
  ∀ a p t, t ≠ .pending → 0 ≤ l.money a p t ∧ l.money a p t ≤ int64Max

theorem InRange.nonneg (hl : l.InRange) : l.Nonneg := fun a p t ht => (hl a p t ht).1

theorem InRange.inInt64 (hl : l.InRange) (ht : t ≠ .pending) : InInt64 (l.money a p t) := by
  obtain ⟨hnonneg, hmax⟩ := hl a p t ht
  exact ⟨le_trans (by decide) hnonneg, hmax⟩

theorem InRange.accepted (hl : l.InRange) (ha : l.Accepts who p n t)
    (h : Posted l [⟨⟨who, p, t⟩, n⟩] l') : l'.InRange := by
  have hnonneg : l'.Nonneg := h.nonneg fun a p t ht => (hl a p t ht).1
  intro a q u hu
  refine ⟨hnonneg a q u hu, ?_⟩
  rw [h.money_eq, Posting.net_cons, Posting.net_nil, add_zero]
  split_ifs with hk
  · cases hk
    exact ((isOverflow_eq_false (hl.inInt64 hu)).mp ha.2.2.1).2
  · rw [add_zero]
    exact (hl a q u hu).2

theorem InRange.setTally (hl : l.InRange) :
    (l.setTally who ((l.tally who).updateMoney p n t).2).InRange := by
  intro a q u hu
  rw [money_setTally]
  split_ifs with ha
  · subst ha
    rw [Tally.getMoney_updateMoney]
    split_ifs with hk
    · obtain ⟨hfst, rfl, rfl⟩ := hk
      obtain ⟨-, -, hfits, hsign⟩ := Tally.updateMoney_fst.mp hfst
      exact ⟨hsign.resolve_left hu, ((isOverflow_eq_false (hl.inInt64 hu)).mp hfits).2⟩
    · rw [add_zero]
      exact hl a q u hu
  · exact hl a q u hu

theorem inRange_ofPostings : (ofPostings ps).InRange := by
  have hempty : InRange ⟨∅, .clear⟩ := by
    intro a p t _
    have hzero : money ⟨∅, .clear⟩ a p t = 0 := by simp [money, tally, Tally.getMoney]
    rw [hzero]
    decide
  rw [ofPostings]
  apply List.foldlRecOn ps _ hempty
  intro l hl x _
  exact hl.setTally

theorem InRange.of_updateTallyMap (hl : l.InRange)
    (h : l.updateTallyMap who p n t = .ok (ok, l')) : l'.InRange := by
  rcases l.updateTallyMap_cases who p n t with ⟨-, he⟩ | ⟨-, m, ⟨-, he, hm⟩ | ⟨ha, he, hm⟩⟩
  · rw [he] at h
    cases h
  · rw [he] at h
    cases h
    intro a q u hu
    rw [hm.money_eq, Posting.net_nil, add_zero]
    exact hl a q u hu
  · rw [he] at h
    cases h
    exact hl.accepted ha hm

theorem InRange.of_assertTally (hl : l.InRange) (h : l.assertTally who p n t = .ok l') :
    l'.InRange := by
  rw [assertTally, bind_eq_ok] at h
  obtain ⟨⟨ok, m⟩, hu, h⟩ := h
  cases ok with
  | false => simp at h
  | true =>
    cases h
    exact hl.of_updateTallyMap hu

end Ledger

end TradeLayer
