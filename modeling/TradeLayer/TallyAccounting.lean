import TradeLayer.Tally

namespace TradeLayer
open Library

def TallyType.all : List TallyType :=
  [.balance, .sellOfferReserve, .acceptReserve, .pending, .metadexReserve, .contractdexReserve,
    .positiveBalance, .negativeBalance, .realizedProfit, .realizedLosses, .count, .remaining,
    .liquidationPrice, .upnl, .nupnl, .unvested, .contractdexMargin, .channelReserve]

/-- The comparison of two tallies, record by record in the order of the properties. -/
def Tally.operatorEq (t rhs : Tally) : Bool :=
  t.toList.isEqv rhs.toList fun pc1 pc2 =>
    pc1.1 = pc2.1 && TallyType.all.all fun ttype => pc1.2 ttype = pc2.2 ttype

structure TallyCall where
  propertyId : PropertyId
  amount : Int
  ttype : TallyType
  amount_inInt64 : InInt64 amount

namespace TallyCall

def update (c : TallyCall) (t : Tally) : Bool × Tally :=
  t.updateMoney c.propertyId c.amount c.ttype

/-- A call adds its amount to the tally; those that return true are kept. -/
def step (state : Tally × List TallyCall) (c : TallyCall) : Tally × List TallyCall :=
  ((c.update state.1).2, if (c.update state.1).1 then state.2 ++ [c] else state.2)

def run (calls : List TallyCall) : Tally × List TallyCall :=
  calls.foldl step (∅, [])

def acceptedSum (calls : List TallyCall) (p : PropertyId) (u : TallyType) : Int :=
  (((run calls).2.filter fun c => c.propertyId = p ∧ c.ttype = u).map TallyCall.amount).sum

def Fits (calls : List TallyCall) (c : TallyCall) : Prop :=
  InInt64 (acceptedSum calls c.propertyId c.ttype + c.amount) ∧
    (c.ttype = .pending ∨ 0 ≤ acceptedSum calls c.propertyId c.ttype + c.amount)

/-- The balances are the sums of what was accepted, a call returns true just when its sum fits,
and one that returns false cannot be seen by the comparison. -/
structure Accounts (calls : List TallyCall) : Prop where
  balance : ∀ p u, u ≠ .tallyTypeCount →
    (run calls).1.getMoney p u = acceptedSum calls p u ∧ InInt64 ((run calls).1.getMoney p u)
  returns : ∀ before c, before ++ [c] <+: calls →
    ((c.update (run before).1).1 = true ↔ c.ttype ≠ .tallyTypeCount ∧ Fits before c)
  unseen : ∀ before c, before ++ [c] <+: calls → (c.update (run before).1).1 = false →
    Tally.operatorEq (c.update (run before).1).2 (run before).1 = true

variable {calls : List TallyCall} {c : TallyCall} {p : PropertyId} {u : TallyType}

theorem run_concat (calls : List TallyCall) (c : TallyCall) :
    run (calls ++ [c]) = step (run calls) c := by
  rw [run, List.foldl_concat]
  rfl

theorem acceptedSum_concat (calls : List TallyCall) (c : TallyCall) (p : PropertyId)
    (u : TallyType) : acceptedSum (calls ++ [c]) p u = acceptedSum calls p u +
      if (c.update (run calls).1).1 = true ∧ p = c.propertyId ∧ u = c.ttype then c.amount
      else 0 := by
  rw [acceptedSum, run_concat, step]
  by_cases hok : (c.update (run calls).1).1 = true
  · by_cases hentry : p = c.propertyId ∧ u = c.ttype
    · obtain ⟨rfl, rfl⟩ := hentry
      simp [hok, acceptedSum]
    · have hne : ¬ (c.propertyId = p ∧ c.ttype = u) := fun h => hentry ⟨h.1.symm, h.2.symm⟩
      simp [hok, hentry, hne, acceptedSum]
  · simp [hok, acceptedSum]

theorem getMoney_run (calls : List TallyCall) (p : PropertyId) (u : TallyType) :
    (run calls).1.getMoney p u = acceptedSum calls p u := by
  induction calls using List.reverseRecOn with
  | nil => simp [run, acceptedSum, Tally.getMoney]
  | append_singleton calls c ih =>
    rw [run_concat, acceptedSum_concat, ← ih]
    exact Tally.getMoney_updateMoney

theorem update_eq_true_iff (hsum : InInt64 (acceptedSum calls c.propertyId c.ttype)) :
    (c.update (run calls).1).1 = true ↔
      c.ttype ≠ .tallyTypeCount ∧ c.amount ≠ 0 ∧ Fits calls c := by
  rw [update, Tally.updateMoney_fst, Tally.Accepts, getMoney_run, isOverflow_eq_false hsum, Fits]

theorem acceptedSum_inRange (calls : List TallyCall) (p : PropertyId) (u : TallyType) :
    InInt64 (acceptedSum calls p u) ∧ (u = .pending ∨ 0 ≤ acceptedSum calls p u) := by
  induction calls using List.reverseRecOn with
  | nil =>
    have hzero : acceptedSum [] p u = 0 := by simp [acceptedSum, run]
    rw [hzero]
    exact ⟨by decide, .inr le_rfl⟩
  | append_singleton calls c ih =>
    rw [acceptedSum_concat]
    split_ifs with h
    · obtain ⟨hok, rfl, rfl⟩ := h
      exact ((update_eq_true_iff ih.1).mp hok).2.2
    · simpa using ih

/-- A record is made by the first call of a property that passes the check of its type and its
amount, even where it is then refused. -/
theorem get?_run_ne_none_iff (calls : List TallyCall) (p : PropertyId) :
    (run calls).1.get? p ≠ none ↔
      ∃ c ∈ calls, c.propertyId = p ∧ c.ttype ≠ .tallyTypeCount ∧ c.amount ≠ 0 := by
  induction calls using List.reverseRecOn with
  | nil => simp [run]
  | append_singleton calls c ih =>
    rw [run_concat]
    simp only [List.mem_append, List.mem_singleton, or_and_right, exists_or, exists_eq_left, ← ih]
    by_cases hz : c.ttype = .tallyTypeCount ∨ c.amount = 0
    · have hskip : (c.update (run calls).1).2 = (run calls).1 := by
        rw [update, Tally.updateMoney, if_pos hz]
      simp only [step, hskip]
      tauto
    · obtain ⟨r, hset⟩ : ∃ r, (c.update (run calls).1).2 = (run calls).1.set c.propertyId r := by
        rw [update, Tally.updateMoney, if_neg hz]
        dsimp only
        split_ifs <;> exact ⟨_, rfl⟩
      simp only [step, hset, OrderedMap.get?_set]
      split_ifs with hp
      · simp only [ne_eq, reduceCtorEq, not_false_eq_true, true_iff]
        exact .inr ⟨hp.symm, not_or.mp hz⟩
      · simp only [Ne.symm hp, false_and, or_false]

theorem operatorEq_self (t : Tally) : Tally.operatorEq t t = true := by
  simp [Tally.operatorEq, List.isEqv_eq_decide]

theorem operatorEq_set_record (t : Tally) (p : PropertyId) :
    Tally.operatorEq (t.set p (t.record p)) t = true ↔ t.get? p ≠ none := by
  constructor
  · intro heq hnone
    rw [Tally.operatorEq, List.isEqv_eq_decide] at heq
    split_ifs at heq with hlen
    have hfind := OrderedMap.get?_eq_none.mp hnone
    rw [OrderedMap.set, Keyed.assign, Keyed.erase_of_find?_eq_none hfind] at hlen
    have hperm := (Keyed.insertList_perm (a := (p, t.record p))
      (Keyed.find?_eq_none.mp hfind)).length_eq
    exact absurd (hlen.symm.trans hperm) (by simp)
  · intro hsome
    obtain ⟨r, hr⟩ := Option.ne_none_iff_exists'.mp hsome
    have hset : t.set p (t.record p) = t := by
      apply OrderedMap.ext_get?
      intro q
      rw [OrderedMap.get?_set, Tally.record, hr, Option.getD_some]
      split_ifs with hq
      · rw [hq, hr]
      · rfl
    rw [hset]
    exact operatorEq_self t

theorem unseen_iff {t : Tally} (h : (c.update t).1 = false) :
    Tally.operatorEq (c.update t).2 t = true ↔
      c.ttype = .tallyTypeCount ∨ c.amount = 0 ∨ t.get? c.propertyId ≠ none := by
  simp only [update, Tally.updateMoney] at h ⊢
  rw [← or_assoc]
  split_ifs at h ⊢ with hz
  · exact iff_of_true (operatorEq_self t) (.inl hz)
  all_goals rw [or_iff_right hz]
  all_goals exact operatorEq_set_record t c.propertyId

/-- A history is accounted for just when every call has a type that is none or an amount other than
zero, and one that is refused comes after another call of its property that has both. -/
theorem accounts_iff (calls : List TallyCall) : Accounts calls ↔
    ∀ before c, before ++ [c] <+: calls → c.ttype = .tallyTypeCount ∨ c.amount ≠ 0 ∧
      (Fits before c ∨ ∃ c' ∈ before,
        c'.propertyId = c.propertyId ∧ c'.ttype ≠ .tallyTypeCount ∧ c'.amount ≠ 0) := by
  constructor
  · intro h before c hc
    by_cases htype : c.ttype = .tallyTypeCount
    · exact .inl htype
    have hin := acceptedSum_inRange before c.propertyId c.ttype
    have hreturns := (update_eq_true_iff hin.1).symm.trans (h.returns before c hc)
    have hamount : c.amount ≠ 0 := by
      intro hzero
      have hfits : Fits before c := by simpa [Fits, hzero] using hin
      exact (hreturns.mpr ⟨htype, hfits⟩).2.1 hzero
    refine .inr ⟨hamount, ?_⟩
    by_contra hnot
    rw [not_or, ← get?_run_ne_none_iff] at hnot
    have hfalse : (c.update (run before).1).1 = false := by
      rw [← Bool.not_eq_true, update_eq_true_iff hin.1]
      exact fun hok => hnot.1 hok.2.2
    rcases (unseen_iff hfalse).mp (h.unseen before c hc hfalse) with hu | hu | hu
    · exact htype hu
    · exact hamount hu
    · exact hnot.2 hu
  · intro h
    refine ⟨fun p u _ => ⟨getMoney_run calls p u, ?_⟩, fun before c hc => ?_,
      fun before c hc hfalse => ?_⟩
    · rw [getMoney_run]
      exact (acceptedSum_inRange calls p u).1
    · rw [update_eq_true_iff (acceptedSum_inRange _ _ _).1]
      have hcond := h before c hc
      tauto
    · rw [unseen_iff hfalse, get?_run_ne_none_iff]
      rcases h before c hc with htype | ⟨hamount, hfits | hsome⟩
      · exact .inl htype
      · rw [← Bool.not_eq_true, update_eq_true_iff (acceptedSum_inRange _ _ _).1] at hfalse
        tauto
      · exact .inr (.inr hsome)

def sampleOverdraft : TallyCall := ⟨1, -1, .balance, by decide⟩

/-- The refused call leaves a record of zeros behind, which the comparison sees. -/
theorem not_accounts_sampleOverdraft :
    ¬ Accounts [sampleOverdraft] ∧ (sampleOverdraft.update ∅).1 = false ∧
      (sampleOverdraft.update ∅).2.toList.map Prod.fst = [1] := by
  refine ⟨fun h => ?_, by decide, by decide⟩
  exact absurd (h.unseen [] sampleOverdraft (by simp) (by decide)) (by decide +kernel)

end TallyCall

end TradeLayer
