import TradeLayer.Ledger

namespace TradeLayer
open Library

structure CMPPending where
  src : Address
  prop : PropertyId
  amount : Int
  type : Nat
  deriving DecidableEq, Repr

structure PendingState where
  ledger : Ledger
  myPending : OrderedMap Nat CMPPending

inductive PendingCall
  | add (txid : Nat) (sendingAddress : Address) (type : Nat) (propertyId : PropertyId)
      (amount : Int) (fSubtract : Bool)
  | delete (txid : Nat)

namespace PendingState

def pendingAdd (s : PendingState) (txid : Nat) (sendingAddress : Address) (type : Nat)
    (propertyId : PropertyId) (amount : Int) (fSubtract : Bool) : Except Abort PendingState := do
  let (updated, ledger) ← if fSubtract then
      s.ledger.updateTallyMap sendingAddress propertyId (-amount) .pending
    else .ok (true, s.ledger)
  let pending : CMPPending := ⟨sendingAddress, propertyId, amount, type⟩
  if updated then .ok ⟨ledger, s.myPending.insert (txid, pending)⟩
  else .ok ⟨ledger, s.myPending⟩

def pendingDelete (s : PendingState) (txid : Nat) : Except Abort PendingState :=
  match s.myPending.get? txid with
  | none => .ok s
  | some pending => do
    let srcAmount := s.ledger.getTokenBalance pending.src pending.prop .pending
    let (_, ledger) ← if srcAmount ≠ 0 then
        s.ledger.updateTallyMap pending.src pending.prop pending.amount .pending
      else .ok (false, s.ledger)
    .ok ⟨ledger, s.myPending.erase txid⟩

def call (s : PendingState) : PendingCall → Except Abort PendingState
  | .add txid sendingAddress type propertyId amount fSubtract =>
    s.pendingAdd txid sendingAddress type propertyId amount fSubtract
  | .delete txid => s.pendingDelete txid

def run (s : PendingState) (calls : List PendingCall) : Except Abort PendingState :=
  calls.foldlM call s

structure Settled (s : PendingState) : Prop where
  myPending_eq : s.myPending = ∅
  money_eq : ∀ a p, s.ledger.money a p .pending = 0

end PendingState

namespace PendingCall

def addedTxid : PendingCall → Option Nat
  | .add txid .. => some txid
  | .delete _ => none

def Proper : PendingCall → Prop
  | .add _ _ _ _ amount _ => 0 ≤ amount ∧ amount ≤ int64Max
  | .delete _ => True

def subtracts (txid : Nat) : PendingCall → Bool
  | .add txid' _ _ _ _ fSubtract => txid' = txid && fSubtract
  | .delete _ => false

end PendingCall

/-- Amounts of signed variables that are not negative, no transaction added twice. -/
structure ProperCalls (calls : List PendingCall) : Prop where
  proper : ∀ c ∈ calls, c.Proper
  nodup : (calls.filterMap PendingCall.addedTxid).Nodup

def isSubtracted (calls : List PendingCall) (txid : Nat) : Bool :=
  calls.any (PendingCall.subtracts txid)

namespace PendingState

variable {s s' : PendingState} {calls : List PendingCall} {a src : Address}
  {p prop : PropertyId} {amount : Int} {txid type : Nat} {pending : CMPPending}
variable {calls' : List PendingCall}

def share (calls : List PendingCall) (a : Address) (p : PropertyId) (e : Nat × CMPPending) : Int :=
  if e.2.src = a ∧ e.2.prop = p ∧ isSubtracted calls e.1 = true then e.2.amount else 0

/-- The sum of the pending entries of an account that were added with subtraction. -/
def owed (s : PendingState) (calls : List PendingCall) (a : Address) (p : PropertyId) : Int :=
  s.myPending.sum (share calls a p)

/-- The pending tallies owe exactly what the entries added with subtraction hold. -/
def Balanced (calls : List PendingCall) (s : PendingState) : Prop :=
  ∀ a p, s.ledger.money a p .pending = -s.owed calls a p

structure Tracked (calls : List PendingCall) (s : PendingState) : Prop where
  added : ∀ e ∈ s.myPending, e.1 ∈ calls.filterMap PendingCall.addedTxid
  nonneg : ∀ e ∈ s.myPending, 0 ≤ e.2.amount
  le_max : ∀ e ∈ s.myPending, e.2.amount ≤ int64Max
  pos : ∀ e ∈ s.myPending, isSubtracted calls e.1 = true → 0 < e.2.amount

theorem accepts_pending {l : Ledger} :
    l.Accepts a p amount .pending ↔
      amount ≠ 0 ∧ isOverflow (l.money a p .pending) amount = false := by
  simp [Ledger.Accepts, Tally.Accepts, Ledger.money]

theorem updateTallyMap_pending (l : Ledger) (a : Address) (p : PropertyId) (amount : Int) :
    ∃ l', l.updateTallyMap a p amount .pending =
        .ok (decide (l.Accepts a p amount .pending), l') ∧
      Ledger.Posted l (if l.Accepts a p amount .pending then [⟨⟨a, p, .pending⟩, amount⟩] else [])
        l' := by
  rcases l.updateTallyMap_cases a p amount .pending with
    ⟨hf, -⟩ | ⟨-, l', ⟨hna, he, hp⟩ | ⟨ha, he, hp⟩⟩
  · exact absurd hf.1 (by decide)
  · exact ⟨l', by simpa [hna] using he, by simpa [hna] using hp⟩
  · exact ⟨l', by simpa [ha] using he, by simpa [ha] using hp⟩

theorem pendingAdd_cases (s : PendingState) (txid : Nat) (src : Address) (type : Nat)
    (prop : PropertyId) (amount : Int) (fSubtract : Bool) :
    ∃ s', s.pendingAdd txid src type prop amount fSubtract = .ok s' ∧
      ((fSubtract = true ∧ s'.myPending = s.myPending ∧ s.ledger.Posted [] s'.ledger) ∨
        ((fSubtract = true → amount ≠ 0) ∧
          s'.myPending = s.myPending.insert (txid, ⟨src, prop, amount, type⟩) ∧
          s.ledger.Posted (if fSubtract then [⟨⟨src, prop, .pending⟩, -amount⟩] else [])
            s'.ledger)) := by
  cases fSubtract with
  | false => exact ⟨_, rfl, .inr ⟨by simp, rfl, .nil _⟩⟩
  | true =>
    obtain ⟨l', hupdate, hposted⟩ := updateTallyMap_pending s.ledger src prop (-amount)
    rw [pendingAdd, if_pos rfl, hupdate, ok_bind]
    by_cases haccepts : s.ledger.Accepts src prop (-amount) .pending
    · have hne := (accepts_pending.mp haccepts).1
      rw [if_pos haccepts] at hposted
      simp only [haccepts, decide_true, if_true]
      exact ⟨_, rfl, .inr ⟨by simpa using hne, rfl, hposted⟩⟩
    · rw [if_neg haccepts] at hposted
      simp only [haccepts, decide_false, Bool.false_eq_true, if_false]
      exact ⟨_, rfl, .inl ⟨trivial, rfl, hposted⟩⟩

theorem isSubtracted_append {c : PendingCall} :
    isSubtracted (calls ++ [c]) txid = (isSubtracted calls txid || c.subtracts txid) := by
  simp [isSubtracted]

theorem owed_congr (h : ∀ e ∈ s.myPending, isSubtracted calls' e.1 = isSubtracted calls e.1) :
    s.owed calls' a p = s.owed calls a p :=
  Keyed.sum_congr fun e he => by rw [share, share, h e he]

theorem Tracked.of_myPending_eq (ht : Tracked calls s)
    (hsame : ∀ e ∈ s.myPending, isSubtracted calls' e.1 = isSubtracted calls e.1)
    (hadded : ∀ txid ∈ calls.filterMap PendingCall.addedTxid,
      txid ∈ calls'.filterMap PendingCall.addedTxid)
    (hsub : ∀ e ∈ s'.myPending, e ∈ s.myPending) : Tracked calls' s' where
  added e he := hadded _ (ht.added e (hsub e he))
  nonneg e he := ht.nonneg e (hsub e he)
  le_max e he := ht.le_max e (hsub e he)
  pos e he h := ht.pos e (hsub e he) (by rwa [hsame e (hsub e he)] at h)

variable {fSubtract : Bool}

theorem step_pendingAdd (ht : Tracked calls s)
    (hcalls : ProperCalls (calls ++ [.add txid src type prop amount fSubtract])) :
    ∃ s', s.pendingAdd txid src type prop amount fSubtract = .ok s' ∧
      Tracked (calls ++ [.add txid src type prop amount fSubtract]) s' ∧
      (Balanced calls s →
        Balanced (calls ++ [.add txid src type prop amount fSubtract]) s') := by
  obtain ⟨hproper, hnodup⟩ := hcalls
  set call := PendingCall.add txid src type prop amount fSubtract with hcall
  have hamount : 0 ≤ amount ∧ amount ≤ int64Max := hproper call (by simp)
  have hadded : (calls ++ [call]).filterMap PendingCall.addedTxid =
      calls.filterMap PendingCall.addedTxid ++ [txid] := by
    rw [List.filterMap_append]
    rfl
  have hfresh : txid ∉ calls.filterMap PendingCall.addedTxid := by
    rw [hadded, List.nodup_append] at hnodup
    intro hmem
    exact hnodup.2.2 txid hmem txid (List.mem_singleton_self _) rfl
  have hne : ∀ e ∈ s.myPending, e.1 ≠ txid := by
    rintro e he rfl
    exact hfresh (ht.added e he)
  have hsame : ∀ e ∈ s.myPending,
      isSubtracted (calls ++ [call]) e.1 = isSubtracted calls e.1 := by
    intro e he
    simp [isSubtracted_append, hcall, PendingCall.subtracts, (hne e he).symm]
  have hself : isSubtracted (calls ++ [call]) txid = fSubtract := by
    have hnone : isSubtracted calls txid = false := by
      rw [isSubtracted, List.any_eq_false]
      intro c hc hsub
      cases c with
      | delete => exact Bool.false_ne_true hsub
      | add txid' =>
        simp only [PendingCall.subtracts, Bool.and_eq_true, decide_eq_true_eq] at hsub
        exact hfresh (List.mem_filterMap.mpr ⟨_, hc, congrArg some hsub.1⟩)
    simp [isSubtracted_append, hnone, hcall, PendingCall.subtracts]
  have hmono : ∀ txid ∈ calls.filterMap PendingCall.addedTxid,
      txid ∈ (calls ++ [call]).filterMap PendingCall.addedTxid := by
    intro txid h
    rw [hadded]
    exact List.mem_append_left _ h
  obtain ⟨s', hadd, ⟨hsub, hmap, hposted⟩ | ⟨hsub, hmap, hposted⟩⟩ :=
    s.pendingAdd_cases txid src type prop amount fSubtract
  · refine ⟨s', hadd, ht.of_myPending_eq hsame hmono fun e he => hmap ▸ he, ?_⟩
    intro hbalanced a p
    rw [hposted.money_eq, Posting.net_nil, add_zero, hbalanced a p, ← owed_congr hsame, owed,
      owed, hmap]
  · have hnone : s.myPending.find? txid = none := Keyed.find?_eq_none.mpr hne
    have hcases : ∀ e ∈ s'.myPending, e ∈ s.myPending ∨ e = (txid, ⟨src, prop, amount, type⟩) := by
      intro e he
      rw [hmap, Keyed.mem_insert] at he
      exact he.imp_right And.left
    refine ⟨s', hadd, ⟨?_, ?_, ?_, ?_⟩, ?_⟩
    · intro e he
      rcases hcases e he with he | rfl
      · exact hmono _ (ht.added e he)
      · rw [hadded]
        exact List.mem_append_right _ (List.mem_singleton_self _)
    · intro e he
      rcases hcases e he with he | rfl
      · exact ht.nonneg e he
      · exact hamount.1
    · intro e he
      rcases hcases e he with he | rfl
      · exact ht.le_max e he
      · exact hamount.2
    · intro e he h
      rcases hcases e he with he | rfl
      · exact ht.pos e he (hsame e he ▸ h)
      · have := hsub (hself ▸ h)
        have := hamount.1
        show 0 < amount
        omega
    · intro hbalanced a p
      have howed : s'.owed (calls ++ [call]) a p =
          share (calls ++ [call]) a p (txid, ⟨src, prop, amount, type⟩) + s.owed calls a p := by
        rw [← owed_congr hsame, owed, hmap, Keyed.sum_insert hnone, owed]
      rw [howed, hposted.money_eq, hbalanced a p, share]
      simp only [hself]
      cases fSubtract with
      | false => simp
      | true =>
        simp only [if_true, Posting.net_cons, Posting.net_nil, Account.mk.injEq, and_true]
        split_ifs <;> omega

variable {start : PendingState}

variable {e : Nat × CMPPending}

/-- A transaction added without subtraction is not deleted while one that was added with
subtraction is pending for the same account. -/
def DeletesSafely (calls : List PendingCall) (s : PendingState) (txid : Nat) : Prop :=
  ∀ pending, s.myPending.get? txid = some pending →
    isSubtracted calls txid = true ∨ pending.amount = 0 ∨
      ∀ e ∈ s.myPending, isSubtracted calls e.1 = true →
        ¬ (e.2.src = pending.src ∧ e.2.prop = pending.prop)

theorem pendingDelete_of_some (h : s.myPending.get? txid = some pending) :
    ∃ s', s.pendingDelete txid = .ok s' ∧ s'.myPending = s.myPending.erase txid ∧
      s.ledger.Posted (if s.ledger.money pending.src pending.prop .pending ≠ 0 ∧
          s.ledger.Accepts pending.src pending.prop pending.amount .pending then
        [⟨⟨pending.src, pending.prop, .pending⟩, pending.amount⟩] else []) s'.ledger := by
  have hbalance : s.ledger.getTokenBalance pending.src pending.prop .pending =
      s.ledger.money pending.src pending.prop .pending := rfl
  rw [pendingDelete, h]
  simp only [hbalance]
  by_cases hzero : s.ledger.money pending.src pending.prop .pending = 0
  · simp only [hzero, ne_eq, not_true_eq_false, if_false, false_and, ok_bind]
    exact ⟨_, rfl, rfl, .nil _⟩
  · obtain ⟨l', hupdate, hposted⟩ :=
      updateTallyMap_pending s.ledger pending.src pending.prop pending.amount
    simp only [ne_eq, hzero, not_false_eq_true, if_true, true_and, hupdate, ok_bind]
    exact ⟨_, rfl, rfl, hposted⟩

theorem share_nonneg (ht : Tracked calls s) (he : e ∈ s.myPending) : 0 ≤ share calls a p e := by
  unfold share
  split_ifs
  · exact ht.nonneg e he
  · exact le_rfl

theorem owed_nonneg (ht : Tracked calls s) : 0 ≤ s.owed calls a p :=
  Keyed.sum_nonneg fun _ he => share_nonneg ht he

theorem share_le_owed (ht : Tracked calls s) (he : e ∈ s.myPending) :
    share calls a p e ≤ s.owed calls a p :=
  Keyed.le_sum (fun _ he => share_nonneg ht he) he

theorem owed_eq_zero (ht : Tracked calls s) : s.owed calls a p = 0 ↔
    ∀ e ∈ s.myPending, isSubtracted calls e.1 = true → ¬ (e.2.src = a ∧ e.2.prop = p) := by
  constructor
  · rintro h e he hsub ⟨hsrc, hprop⟩
    have hle := share_le_owed (a := a) (p := p) ht he
    rw [share, if_pos ⟨hsrc, hprop, hsub⟩, h] at hle
    exact absurd (ht.pos e he hsub) (not_lt.mpr hle)
  · intro h
    have hzero : ∀ e ∈ s.myPending, share calls a p e = 0 := by
      intro e he
      apply if_neg
      rintro ⟨hsrc, hprop, hsub⟩
      exact h e he hsub ⟨hsrc, hprop⟩
    rw [owed, Keyed.sum_congr hzero, Keyed.sum, List.sum_map_zero]

theorem isSubtracted_append_delete {txid' : Nat} :
    isSubtracted (calls ++ [.delete txid']) txid = isSubtracted calls txid := by
  rw [isSubtracted_append, PendingCall.subtracts, Bool.or_false]

theorem owed_of_erase (h : (txid, pending) ∈ s.myPending)
    (hmap : s'.myPending = s.myPending.erase txid) :
    s'.owed (calls ++ [.delete txid]) a p =
      s.owed calls a p - share calls a p (txid, pending) := by
  have hsum := Keyed.sum_erase (f := share calls a p) h
  rw [owed_congr fun e _ => isSubtracted_append_delete, owed, hmap, owed, ← hsum]
  exact (add_sub_cancel_left _ _).symm

/-- Where the tallies are balanced, a deleted entry is credited exactly where something is owed
for its account, for whichever entry. -/
theorem money_of_pendingDelete (ht : Tracked calls s) (hbalanced : Balanced calls s)
    (h : s.myPending.get? txid = some pending) (hdelete : s.pendingDelete txid = .ok s') :
    s'.ledger.money a p .pending = -s.owed calls a p +
      if (pending.src = a ∧ pending.prop = p) ∧ s.owed calls pending.src pending.prop ≠ 0 then
        pending.amount else 0 := by
  have hmem := OrderedMap.get?_eq_some.mp h
  have hnonneg : 0 ≤ s.owed calls pending.src pending.prop := owed_nonneg ht
  have hmax : pending.amount ≤ int64Max := ht.le_max _ hmem
  have hamount : 0 ≤ pending.amount := ht.nonneg _ hmem
  have hcredited : (s.ledger.money pending.src pending.prop .pending ≠ 0 ∧
      s.ledger.Accepts pending.src pending.prop pending.amount .pending) ↔
      s.owed calls pending.src pending.prop ≠ 0 ∧ pending.amount ≠ 0 := by
    rw [accepts_pending, hbalanced]
    simp only [isOverflow, Bool.or_eq_false_iff, Bool.and_eq_false_iff, decide_eq_false_iff_not]
    omega
  obtain ⟨t, ht, -, hposted⟩ := pendingDelete_of_some h
  obtain rfl : t = s' := Except.ok.inj (ht.symm.trans hdelete)
  rw [hposted.money_eq, hbalanced a p]
  simp only [hcredited]
  by_cases hcredit : s.owed calls pending.src pending.prop ≠ 0 ∧ pending.amount ≠ 0
  · simp [hcredit]
  · rw [if_neg hcredit, Posting.net_nil]
    split_ifs with h
    · rw [not_and_not_right.mp hcredit h.2]
    · rfl

theorem deletesSafely_iff (ht : Tracked calls s) (h : s.myPending.get? txid = some pending) :
    DeletesSafely calls s txid ↔ isSubtracted calls txid = true ∨ pending.amount = 0 ∨
      s.owed calls pending.src pending.prop = 0 := by
  rw [owed_eq_zero ht]
  exact ⟨fun hsafe => hsafe pending h,
    fun hsafe found hfound => by rwa [← Option.some.inj (h.symm.trans hfound)]⟩

theorem balanced_pendingDelete_iff (ht : Tracked calls s) (hbalanced : Balanced calls s)
    (h : s.myPending.get? txid = some pending) (hdelete : s.pendingDelete txid = .ok s') :
    Balanced (calls ++ [.delete txid]) s' ↔ DeletesSafely calls s txid := by
  have hmem := OrderedMap.get?_eq_some.mp h
  obtain ⟨t, ht', hmap, -⟩ := pendingDelete_of_some h
  obtain rfl : t = s' := Except.ok.inj (ht'.symm.trans hdelete)
  have haccount : Balanced (calls ++ [.delete txid]) t ↔
      (if s.owed calls pending.src pending.prop ≠ 0 then pending.amount else 0) =
        share calls pending.src pending.prop (txid, pending) := by
    constructor
    · intro h'
      have h' := h' pending.src pending.prop
      rw [money_of_pendingDelete ht hbalanced h hdelete, owed_of_erase hmem hmap] at h'
      simp only [and_self, true_and] at h'
      omega
    · intro h' a p
      rw [money_of_pendingDelete ht hbalanced h hdelete, owed_of_erase hmem hmap]
      by_cases hkey : pending.src = a ∧ pending.prop = p
      · obtain ⟨rfl, rfl⟩ := hkey
        simp only [and_self, true_and, h']
        ring
      · have hshare : share calls a p (txid, pending) = 0 :=
          if_neg fun ⟨hsrc, hprop, _⟩ => hkey ⟨hsrc, hprop⟩
        rw [hshare, if_neg fun h => hkey h.1]
        ring
  have hle := share_le_owed (a := pending.src) (p := pending.prop) ht hmem
  rw [haccount, deletesSafely_iff ht h]
  by_cases hsub : isSubtracted calls txid = true
  · have hself : share calls pending.src pending.prop (txid, pending) = pending.amount :=
      if_pos ⟨rfl, rfl, hsub⟩
    have hpos : 0 < pending.amount := ht.pos _ hmem hsub
    rw [hself] at hle ⊢
    rw [if_pos (by omega)]
    simp [hsub]
  · have hself : share calls pending.src pending.prop (txid, pending) = 0 :=
      if_neg fun h => hsub h.2.2
    rw [hself]
    simp only [hsub, Bool.false_eq_true, false_or]
    split_ifs with howed
    · simp [howed]
    · simp [not_not.mp howed]

theorem step_pendingDelete (ht : Tracked calls s) :
    ∃ s', s.pendingDelete txid = .ok s' ∧ Tracked (calls ++ [.delete txid]) s' ∧
      (Balanced calls s →
        (Balanced (calls ++ [.delete txid]) s' ↔ DeletesSafely calls s txid)) := by
  have hadded : ∀ txid' ∈ calls.filterMap PendingCall.addedTxid,
      txid' ∈ (calls ++ [PendingCall.delete txid]).filterMap PendingCall.addedTxid := by
    intro txid' h
    rw [List.filterMap_append]
    exact List.mem_append_left _ h
  cases hget : s.myPending.get? txid with
  | none =>
    refine ⟨s, by rw [pendingDelete, hget], ht.of_myPending_eq
      (fun e _ => isSubtracted_append_delete) hadded fun e he => he, fun hbalanced => ?_⟩
    constructor
    · intro _ pending h
      rw [hget] at h
      exact absurd h (by simp)
    · intro _ a p
      rw [hbalanced a p, owed_congr fun e _ => isSubtracted_append_delete]
  | some pending =>
    obtain ⟨s', hdelete, hmap, hposted⟩ := pendingDelete_of_some hget
    refine ⟨s', hdelete, ht.of_myPending_eq (fun e _ => isSubtracted_append_delete) hadded ?_,
      fun hbalanced => balanced_pendingDelete_iff ht hbalanced hget hdelete⟩
    intro e he
    rw [hmap] at he
    exact (Keyed.mem_erase.mp he).1

theorem run_concat {c : PendingCall} :
    s.run (calls ++ [c]) = s.run calls >>= fun t => t.call c := by
  rw [run, run, List.foldlM_append]
  congr
  funext t
  rw [List.foldlM_cons]
  cases t.call c <;> rfl

theorem ProperCalls.of_append {rest : List PendingCall} (h : ProperCalls (calls ++ rest)) :
    ProperCalls calls where
  proper c hc := h.proper c (List.mem_append_left _ hc)
  nodup := by
    have hnodup := h.nodup
    rw [List.filterMap_append] at hnodup
    exact hnodup.of_append_left

theorem tracked_of_run (hstart : start.Settled) (hcalls : ProperCalls calls) :
    ∃ s, start.run calls = .ok s ∧ Tracked calls s := by
  induction calls using List.reverseRecOn with
  | nil => exact ⟨start, rfl, by simp [hstart.myPending_eq], by simp [hstart.myPending_eq],
      by simp [hstart.myPending_eq], by simp [hstart.myPending_eq]⟩
  | append_singleton calls c ih =>
    obtain ⟨s, hrun, ht⟩ := ih (ProperCalls.of_append hcalls)
    rw [run_concat, hrun, ok_bind]
    cases c with
    | add txid src type prop amount fSubtract =>
      obtain ⟨s', hadd, ht', -⟩ := step_pendingAdd ht hcalls
      exact ⟨s', hadd, ht'⟩
    | delete txid =>
      obtain ⟨s', hdelete, ht', -⟩ := step_pendingDelete ht
      exact ⟨s', hdelete, ht'⟩

def SafeRun (start : PendingState) (calls : List PendingCall) : Prop :=
  ∀ done txid, done ++ [.delete txid] <+: calls → ∀ s, start.run done = .ok s →
    DeletesSafely done s txid

/-- After every part of the calls the pending tallies are what the entries added with subtraction
account for, and zero when there is no entry. -/
def StaysBalanced (start : PendingState) (calls : List PendingCall) : Prop :=
  ∀ done, done <+: calls → ∃ s, start.run done = .ok s ∧ Balanced done s ∧
    (s.myPending = ∅ → ∀ a p, s.ledger.money a p .pending = 0)

theorem balanced_of_settled (hstart : start.Settled) : Balanced [] start := by
  intro a p
  rw [hstart.money_eq, owed, hstart.myPending_eq]
  rfl

theorem money_of_empty (hbalanced : Balanced calls s) (hempty : s.myPending = ∅) (a : Address)
    (p : PropertyId) : s.ledger.money a p .pending = 0 := by
  rw [hbalanced a p, owed, hempty]
  rfl

theorem balanced_of_safeRun (hstart : start.Settled) (hcalls : ProperCalls calls)
    (hsafe : start.SafeRun calls) : ∃ s, start.run calls = .ok s ∧ Balanced calls s := by
  induction calls using List.reverseRecOn with
  | nil => exact ⟨start, rfl, balanced_of_settled hstart⟩
  | append_singleton calls c ih =>
    have hpart := ProperCalls.of_append hcalls
    obtain ⟨s, hrun, hbalanced⟩ :=
      ih hpart fun done txid h => hsafe done txid (h.trans (List.prefix_append ..))
    obtain ⟨t, ht, htracked⟩ := tracked_of_run hstart hpart
    obtain rfl : s = t := Except.ok.inj (hrun.symm.trans ht)
    rw [run_concat, hrun, ok_bind]
    cases c with
    | add txid src type prop amount fSubtract =>
      obtain ⟨s', hadd, -, hkeeps⟩ := step_pendingAdd htracked hcalls
      exact ⟨s', hadd, hkeeps hbalanced⟩
    | delete txid =>
      obtain ⟨s', hdelete, -, hkeeps⟩ := step_pendingDelete htracked
      exact ⟨s', hdelete,
        (hkeeps hbalanced).mpr (hsafe calls txid (List.prefix_refl _) s hrun)⟩

/-- The pending tallies stay balanced exactly where no transaction added without subtraction is
deleted while one added with subtraction is pending for the same account. -/
theorem staysBalanced_iff (hstart : start.Settled) (hcalls : ProperCalls calls) :
    start.StaysBalanced calls ↔ start.SafeRun calls := by
  have hpart {done : List PendingCall} (h : done <+: calls) : ProperCalls done := by
    obtain ⟨rest, rfl⟩ := h
    exact ProperCalls.of_append hcalls
  constructor
  · intro h done txid hdone s hrun
    have hbefore : done <+: calls := (List.prefix_append ..).trans hdone
    obtain ⟨t, ht, hbalanced, -⟩ := h done hbefore
    obtain rfl : t = s := Except.ok.inj (ht.symm.trans hrun)
    obtain ⟨u, hu, htracked⟩ := tracked_of_run hstart (hpart hbefore)
    obtain rfl : u = t := Except.ok.inj (hu.symm.trans hrun)
    obtain ⟨s', hdelete, -, hiff⟩ : ∃ s', u.pendingDelete txid = .ok s' ∧
        Tracked (done ++ [.delete txid]) s' ∧ (Balanced done u →
          (Balanced (done ++ [.delete txid]) s' ↔ DeletesSafely done u txid)) :=
      step_pendingDelete htracked
    obtain ⟨v, hv, hafter, -⟩ := h _ hdone
    rw [run_concat, hrun, ok_bind] at hv
    obtain rfl : v = s' := Except.ok.inj (hv.symm.trans hdelete)
    exact (hiff hbalanced).mp hafter
  · intro h done hdone
    obtain ⟨s, hrun, hbalanced⟩ := balanced_of_safeRun hstart (hpart hdone)
      fun part txid hp => h part txid (hp.trans hdone)
    exact ⟨s, hrun, hbalanced, money_of_empty hbalanced⟩

def sampleStart : PendingState := ⟨⟨∅, .clear⟩, ∅⟩

theorem settled_sampleStart : sampleStart.Settled where
  myPending_eq := rfl
  money_eq _ _ := rfl

def sampleCalls : List PendingCall :=
  [.add 1 ['a'] 0 3 10 true, .add 2 ['a'] 26 3 5 false]

theorem properCalls_sampleCalls (txids : List Nat) :
    ProperCalls (sampleCalls ++ txids.map .delete) where
  proper c hc := by
    rcases List.mem_append.mp hc with hc | hc
    · simp only [sampleCalls, List.mem_cons, List.not_mem_nil, or_false] at hc
      rcases hc with rfl | rfl
      · exact ⟨by decide, by decide⟩
      · exact ⟨by decide, by decide⟩
    · obtain ⟨txid, -, rfl⟩ := List.mem_map.mp hc
      trivial
  nodup := by
    have hnone : (txids.map PendingCall.delete).filterMap PendingCall.addedTxid = [] := by
      simp [PendingCall.addedTxid]
    rw [List.filterMap_append, hnone]
    decide

theorem staysBalanced_sampleCalls : sampleStart.Settled ∧
    ProperCalls (sampleCalls ++ [.delete 1]) ∧
    sampleStart.StaysBalanced (sampleCalls ++ [.delete 1]) := by
  refine ⟨settled_sampleStart, properCalls_sampleCalls [1],
    (staysBalanced_iff settled_sampleStart (properCalls_sampleCalls [1])).mpr ?_⟩
  intro done txid hdone s hrun pending hpending
  left
  rcases List.prefix_concat_iff.mp hdone with hdone | hdone
  · obtain ⟨rfl, hlast⟩ := List.append_inj' hdone rfl
    obtain rfl : txid = 1 := by simpa using hlast
    decide
  · have hmem : PendingCall.delete txid ∈ sampleCalls := hdone.subset (by simp)
    simp [sampleCalls] at hmem

/-- The deletion of the cancellation takes five of the ten tokens off the pending tally, so that
five are left over when nothing is pending. -/
theorem not_balanced_of_sampleCalls : sampleStart.Settled ∧
    ProperCalls (sampleCalls ++ [.delete 2, .delete 1]) ∧
    ((sampleStart.run (sampleCalls ++ [.delete 2])).map fun s =>
        (s.ledger.money ['a'] 3 .pending, s.owed (sampleCalls ++ [.delete 2]) ['a'] 3)) =
      .ok (-5, 10) ∧
    ((sampleStart.run (sampleCalls ++ [.delete 2, .delete 1])).map fun s =>
        (s.ledger.money ['a'] 3 .pending, s.myPending.toList)) = .ok (5, []) :=
  ⟨settled_sampleStart, properCalls_sampleCalls [2, 1], by decide +kernel, by decide +kernel⟩

end PendingState

end TradeLayer
