import TradeLayer.FeeDistribution
import TradeLayer.FeeRecords

namespace TradeLayer
open Library

/-- A fee and the node it is added on, whose records of earlier fees are those of the payments
before it. -/
structure FeePayment where
  node : NodeState
  propertyId : PropertyId
  block : Int
  amount : Int

/-- The fees of each property that were added since its last distribution. -/
abbrev FeesDue := PropertyId → List Int

namespace FeesDue

def total (due : FeesDue) (f : FeePayment) : Int :=
  (due f.propertyId).sum + f.amount

def Reached (due : FeesDue) (f : FeePayment) : Prop :=
  f.node.feeCache.getDistributionThreshold f.propertyId ≤ due.total f

instance (due : FeesDue) (f : FeePayment) : Decidable (due.Reached f) :=
  inferInstanceAs (Decidable (_ ≤ _))

def add (due : FeesDue) (f : FeePayment) : FeesDue := fun p =>
  if p = f.propertyId then (if due.Reached f then [] else due p ++ [f.amount]) else due p

def none : FeesDue := fun _ => []

def after (due : FeesDue) (fs : List FeePayment) : FeesDue := fs.foldl add due

/-- The amounts of a payment and of the balances it may be distributed over fit their types. -/
structure Room (due : FeesDue) (f : FeePayment) : Prop where
  nonneg : 0 ≤ f.amount
  ledger : f.node.ledger.InRange
  holdings : f.node.ledger.circulation (NodeState.feeShareProperty f.propertyId) ≤ int64Max
  credit : ∀ a, f.node.ledger.money a f.propertyId .balance + due.total f ≤ int64Max

def Receivable (due : FeesDue) (f : FeePayment) : Prop :=
  due.Reached f → due.total f = 0 ∨ f.node.HasFeeReceiver f.propertyId

variable {due : FeesDue} {f : FeePayment}

theorem sum_add {p : PropertyId} : (due.add f p).sum =
    if p = f.propertyId then (if due.Reached f then 0 else due.total f) else (due p).sum := by
  unfold add
  split_ifs with hp
  · rfl
  · rw [List.sum_append, List.sum_singleton, total, hp]
  · rfl

theorem add_nonneg (hdue : ∀ p, 0 ≤ (due p).sum) (hamount : 0 ≤ f.amount) (p : PropertyId) :
    0 ≤ (due.add f p).sum := by
  rw [sum_add]
  split_ifs
  · exact le_rfl
  · exact Int.add_nonneg (hdue f.propertyId) hamount
  · exact hdue p

end FeesDue

namespace FeePayment

def resume (f : FeePayment) (s : NodeState) : NodeState :=
  { f.node with feeCache.cacheHistory := s.feeCache.cacheHistory }

def pay (env : Environment) (s : NodeState) (f : FeePayment) : Except Abort NodeState :=
  (f.resume s).addFee env f.propertyId f.block f.amount

/-- A payment is booked with the fees before it: they stay in the cache until the threshold is
reached, and then they are credited to the receivers to the last unit. -/
structure Booked (due : FeesDue) (f : FeePayment) (s' : NodeState) : Prop where
  cached : ∀ p, s'.feeCache.getCachedAmount p = (due.add f p).sum
  kept : ¬ due.Reached f → s'.ledger = f.node.ledger
  distributed : due.Reached f → ∃ receivers : OwnerAddrType,
    stoGetReceivers f.node.ledger feeDistribution (NodeState.feeShareProperty f.propertyId)
      (due.total f) = .ok receivers ∧
    receivers.total = due.total f ∧
    f.node.ledger.Posted (NodeState.credits f.propertyId receivers) s'.ledger

def AllBooked (env : Environment) : NodeState → FeesDue → List FeePayment → Prop
  | _, _, [] => True
  | s, due, f :: fs =>
    ∃ s', f.pay env s = .ok s' ∧ f.Booked due s' ∧ AllBooked env s' (due.add f) fs

variable {env : Environment} {s s' : NodeState} {due : FeesDue} {f : FeePayment}
variable {fs : List FeePayment}

def recorded (env : Environment) (s : NodeState) (due : FeesDue) (f : FeePayment) : NodeState :=
  (f.resume s).putCachedAmount env f.propertyId f.block (due.total f)

section Payment

variable (hcached : ∀ p, s.feeCache.getCachedAmount p = (due p).sum)
variable (hupto : s.feeCache.UpTo f.block)

include hcached

theorem getCachedAmount_resume :
    (f.resume s).feeCache.getCachedAmount f.propertyId + f.amount = due.total f :=
  congrArg (· + f.amount) (hcached f.propertyId)

theorem inInt64_of_pay (h : f.pay env s = .ok s') : InInt64 (due.total f) := by
  obtain ⟨n, hn, -⟩ := bind_eq_ok.mp h
  rw [getCachedAmount_resume hcached] at hn
  exact (checked64_eq_ok.mp hn).2

include hupto

theorem getCachedAmount_recorded (p : PropertyId) :
    (f.recorded env s due).feeCache.getCachedAmount p =
      if p = f.propertyId then due.total f else (due p).sum := by
  have hupto' : (f.resume s).feeCache.UpTo f.block := hupto
  have hcached' : (f.resume s).feeCache.getCachedAmount p = (due p).sum := hcached p
  rw [recorded, NodeState.getCachedAmount_putCachedAmount hupto', hcached']

theorem pay_eq (hin : InInt64 (due.total f)) : f.pay env s =
    if due.Reached f then (f.recorded env s due).distributeCache env f.propertyId f.block
    else .ok (f.recorded env s due) := by
  rw [pay, NodeState.addFee, getCachedAmount_resume hcached, checked64_eq_ok.mpr ⟨rfl, hin⟩,
    ok_bind, ← recorded, NodeState.evalCache, getCachedAmount_recorded hcached hupto, if_pos rfl]
  rfl

theorem booked_of_pay (h : f.pay env s = .ok s') : f.Booked due s' := by
  have hamount : ∀ p, (f.recorded env s due).feeCache.getCachedAmount p =
      if p = f.propertyId then due.total f else (due p).sum :=
    getCachedAmount_recorded hcached hupto
  rw [pay_eq hcached hupto (inInt64_of_pay hcached h)] at h
  split_ifs at h with hreached
  · rw [NodeState.distributeCache, hamount, if_pos rfl] at h
    simp only [bind_eq_ok] at h
    obtain ⟨receivers, hreceivers, m, hm, h⟩ := h
    split_ifs at h with htotal
    cases h
    have hposted := NodeState.posted_of_assertTallies hm
    have hcache : m.feeCache = (f.recorded env s due).feeCache := by rw [hposted.1]
    refine ⟨fun p => ?_, fun h => absurd hreached h, fun _ => ?_⟩
    · have hrecorded : m.feeCache.UpTo f.block := by
        rw [hcache]
        exact FeeCache.UpTo.putAmount hupto
      rw [NodeState.clearCache, NodeState.getCachedAmount_putCachedAmount hrecorded, hcache,
        hamount, FeesDue.sum_add, if_pos hreached]
      split_ifs <;> rfl
    · exact ⟨receivers, hreceivers, htotal, hposted.2⟩
  · cases h
    refine ⟨fun p => ?_, fun _ => rfl, fun h => absurd h hreached⟩
    rw [hamount, FeesDue.sum_add, if_neg hreached]

theorem pay_returns_iff (hroom : due.Room f) (hdue : 0 ≤ (due f.propertyId).sum) :
    (∃ s', f.pay env s = .ok s') ↔ due.Receivable f := by
  have hnonneg : 0 ≤ due.total f := Int.add_nonneg hdue hroom.nonneg
  have hmax : due.total f ≤ int64Max := by
    have hbalance := (hroom.ledger [] f.propertyId .balance (by decide)).1
    have hcredit := hroom.credit []
    omega
  have hin : InInt64 (due.total f) := ⟨le_trans (by decide) hnonneg, hmax⟩
  have hamount : (f.recorded env s due).feeCache.getCachedAmount f.propertyId = due.total f := by
    rw [getCachedAmount_recorded hcached hupto, if_pos rfl]
  rw [pay_eq hcached hupto hin, FeesDue.Receivable]
  split_ifs with hreached
  · rw [forall_prop_of_true hreached]
    have hledger : (f.recorded env s due).ledger.InRange := hroom.ledger
    have hholdings : (f.recorded env s due).ledger.circulation
        (NodeState.feeShareProperty f.propertyId) ≤ int64Max := hroom.holdings
    by_cases hreceiver : f.node.HasFeeReceiver f.propertyId
    · refine iff_of_true ?_ (.inr hreceiver)
      refine NodeState.exists_distributeCache hledger hholdings ?_ ?_ hreceiver
      · rw [hamount]
        exact hnonneg
      · rw [hamount]
        exact hroom.credit
    · rw [NodeState.distributeCache_of_not_hasFeeReceiver hledger hholdings hreceiver, hamount,
        or_iff_left hreceiver]
      by_cases hzero : due.total f = 0 <;> simp [hzero]
  · exact iff_of_true ⟨_, rfl⟩ fun h => absurd h hreached

end Payment

theorem upTo_of_pay (hupto : s.feeCache.UpTo f.block) (h : f.pay env s = .ok s') :
    s'.feeCache.UpTo f.block := by
  have hcall : (f.resume s).makeFeeCall env (.addFee f.propertyId f.block f.amount) = .ok s' := h
  exact (NodeState.entered_of_makeFeeCall hcall).upTo hupto

theorem allBooked_of_due (hcached : ∀ p, s.feeCache.getCachedAmount p = (due p).sum)
    (hdue : ∀ p, 0 ≤ (due p).sum) (hupto : ∀ f ∈ fs, s.feeCache.UpTo f.block)
    (hsorted : fs.Pairwise fun f g => f.block ≤ g.block)
    (hroom : ∀ done f rest, fs = done ++ f :: rest → (due.after done).Room f) :
    AllBooked env s due fs ↔
      ∀ done f rest, fs = done ++ f :: rest → (due.after done).Receivable f := by
  induction fs generalizing s due with
  | nil => simp [AllBooked]
  | cons f fs ih =>
    rw [forall_split_cons (P := fun done f => (due.after done).Room f)] at hroom
    rw [forall_split_cons (P := fun done f => (due.after done).Receivable f), AllBooked]
    obtain ⟨hlater, hsorted⟩ := List.pairwise_cons.mp hsorted
    have hupto' := hupto f List.mem_cons_self
    have hreturns : (∃ s', f.pay env s = .ok s') ↔ due.Receivable f :=
      pay_returns_iff hcached hupto' hroom.1 (hdue f.propertyId)
    have hrest : ∀ s', f.pay env s = .ok s' → (AllBooked env s' (due.add f) fs ↔
        ∀ done g rest, fs = done ++ g :: rest → ((due.add f).after done).Receivable g) := by
      intro s' hpay
      refine ih (booked_of_pay hcached hupto' hpay).cached (FeesDue.add_nonneg hdue hroom.1.nonneg)
        (fun g hg => ?_) hsorted hroom.2
      exact (upTo_of_pay hupto' hpay).mono (hlater g hg)
    constructor
    · rintro ⟨s', hpay, -, hall⟩
      exact ⟨hreturns.mp ⟨s', hpay⟩, (hrest s' hpay).mp hall⟩
    · rintro ⟨hreceivable, hall⟩
      obtain ⟨s', hpay⟩ := hreturns.mpr hreceivable
      exact ⟨s', hpay, booked_of_pay hcached hupto' hpay, (hrest s' hpay).mpr hall⟩

/-- Starting from an empty cache, every fee is booked and every distribution goes through if
and only if somebody holds the property whose holders share the fees whenever there is something
to distribute. -/
theorem allBooked_iff (hempty : s.feeCache.cacheHistory = ∅)
    (hsorted : fs.Pairwise fun f g => f.block ≤ g.block)
    (hroom : ∀ done f rest, fs = done ++ f :: rest → (FeesDue.none.after done).Room f) :
    AllBooked env s .none fs ↔
      ∀ done f rest, fs = done ++ f :: rest → (FeesDue.none.after done).Receivable f := by
  have hrecord : ∀ p, s.feeCache.getCacheHistory p = ∅ := by
    intro p
    rw [FeeCache.getCacheHistory, hempty]
    rfl
  refine allBooked_of_due (fun p => ?_) (fun p => le_rfl) (fun f _ p e he => ?_) hsorted hroom
  · rw [FeeCache.getCachedAmount, hrecord]
    rfl
  · rw [hrecord] at he
    exact absurd he Keyed.not_mem_empty

section Samples

def sampleUnheld : NodeState :=
  { NodeState.initial .test .zero with
    spInfo := SPInfo.oneManaged ['i']
    feeCache := ⟨∅, OrderedMap.set ∅ 3 10⟩ }

def sampleHeld : NodeState :=
  { sampleUnheld with ledger := .ofPostings [⟨⟨['a'], tlPropertyMsc, .balance⟩, 10⟩] }

/-- The second of two fees reaches the threshold. -/
theorem allBooked_of_sampleHeld : AllBooked (.plain .test) sampleHeld .none
    [⟨sampleHeld, 3, 1, 5⟩, ⟨sampleHeld, 3, 2, 7⟩] := by
  have hledger : sampleHeld.ledger.InRange := Ledger.inRange_ofPostings
  have hmoney : ∀ a, sampleHeld.ledger.money a 3 .balance = 0 := by
    intro a
    rw [sampleHeld, Ledger.ofPostings, List.foldl_cons, List.foldl_nil, Ledger.money_setTally,
      Tally.getMoney_updateMoney]
    split_ifs with ha hp
    · exact absurd hp.2.1 (by decide)
    · rfl
    · rfl
  have hreceiver : sampleHeld.HasFeeReceiver 3 :=
    ⟨['a'], by decide, .balance, by decide, by decide +kernel⟩
  refine (allBooked_iff rfl (by decide) ?_).mpr ?_
  · rw [forall_split_cons (P := fun done f => (FeesDue.none.after done).Room f),
      forall_split_cons (P := fun done f => (FeesDue.none.after (_ :: done)).Room f)]
    refine ⟨⟨by decide, hledger, by decide +kernel, fun a => ?_⟩,
      ⟨by decide, hledger, by decide +kernel, fun a => ?_⟩, by simp⟩
    · rw [hmoney]
      decide +kernel
    · rw [hmoney]
      decide +kernel
  · intro done f rest hsplit _
    have hf : f ∈ [(⟨sampleHeld, 3, 1, 5⟩ : FeePayment), ⟨sampleHeld, 3, 2, 7⟩] := by
      rw [hsplit]
      exact List.mem_append_right _ List.mem_cons_self
    right
    simp only [List.mem_cons, List.not_mem_nil, or_false] at hf
    rcases hf with rfl | rfl <;> exact hreceiver

/-- Where nobody holds the first property, reaching the threshold fails an assertion. -/
theorem not_allBooked_of_sampleUnheld :
    (⟨sampleUnheld, 3, 1, 12⟩ : FeePayment).pay (.plain .test) sampleUnheld = .error .assertion ∧
    ¬ AllBooked (.plain .test) sampleUnheld .none [⟨sampleUnheld, 3, 1, 12⟩] := by
  have hpay : (⟨sampleUnheld, 3, 1, 12⟩ : FeePayment).pay (.plain .test) sampleUnheld =
      .error .assertion := eq_error_of_failure (by decide +kernel)
  refine ⟨hpay, ?_⟩
  rintro ⟨s', hreturns, -⟩
  rw [hpay] at hreturns
  cases hreturns

end Samples

end FeePayment

end TradeLayer
