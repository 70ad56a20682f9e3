import TradeLayer.DexPayments

namespace TradeLayer
open Library

namespace NodeState

def payInstallments (s : NodeState) (env : Environment) (seller buyer : Address)
    (p : PropertyId) : List (Int × Int) → Except Abort NodeState
  | [] => .ok s
  | (amountPaid, block) :: payments =>
    if (s.getAccept seller p buyer).isNone then .ok s
    else do
      let (_, s) ← s.payment env seller buyer amountPaid block
      s.payInstallments env seller buyer p payments

def purchases (accept : Accept) (payments : List (Int × Int)) : Int :=
  (payments.map fun x => purchase accept x.1).sum

/-- The computations of payments to an accept stay in range, and each payment looks for it. -/
structure InstallmentsFit (s : NodeState) (env : Environment) (seller buyer : Address)
    (p : PropertyId) (accept : Accept) (payments : List (Int × Int)) : Prop where
  inRange : s.ledger.InRange
  accept_eq : s.getAccept seller p buyer = some accept
  looksUp : ∀ x ∈ payments, s.LooksUp env seller buyer x.2 p
  paid : ∀ x ∈ payments, 0 < x.1
  remaining : 0 ≤ accept.acceptAmountRemaining
  offered : 0 < accept.offerAmountOriginal
  desired : 0 < accept.btcDesiredOriginal
  fits : ∀ x ∈ payments,
    x.1 * accept.offerAmountOriginal ≤ int64Max * accept.btcDesiredOriginal
  funds : min accept.acceptAmountRemaining (purchases accept payments) ≤
    s.ledger.money seller p .acceptReserve
  room : s.ledger.money buyer p .balance +
    min accept.acceptAmountRemaining (purchases accept payments) ≤ int64Max

variable {s s' m : NodeState} {env : Environment} {seller buyer : Address} {p : PropertyId}
variable {n amountPaid block : Int} {accept : Accept} {payments : List (Int × Int)}

section Rounding

theorem purchase_add (accept : Accept) (a b : Int) :
    purchase accept (a + b) ≤ purchase accept a + purchase accept b ∧
      purchase accept a + purchase accept b ≤ purchase accept (a + b) + 1 := by
  have hsplit : (((a + b) * accept.offerAmountOriginal : Int) : ℚ) / accept.btcDesiredOriginal =
      ((a * accept.offerAmountOriginal : Int) : ℚ) / accept.btcDesiredOriginal +
        ((b * accept.offerAmountOriginal : Int) : ℚ) / accept.btcDesiredOriginal := by
    rw [add_mul, Int.cast_add, add_div]
  rw [purchase, hsplit]
  exact ⟨Int.ceil_add_le _ _, Int.ceil_add_ceil_le _ _⟩

theorem purchase_sum_le (accept : Accept) (payments : List (Int × Int)) :
    purchase accept (payments.map Prod.fst).sum ≤ purchases accept payments := by
  induction payments with
  | nil => exact purchase_zero.le
  | cons x payments ih =>
    rw [List.map_cons, List.sum_cons, purchases, List.map_cons, List.sum_cons]
    exact (purchase_add ..).1.trans (Int.add_le_add_left ih _)

theorem purchases_le (accept : Accept) (hne : payments ≠ []) :
    purchases accept payments ≤
      purchase accept (payments.map Prod.fst).sum + (payments.length - 1) := by
  induction payments with
  | nil => exact absurd rfl hne
  | cons x payments ih =>
    rw [List.map_cons, List.sum_cons, purchases, List.map_cons, List.sum_cons, ← purchases,
      List.length_cons]
    cases payments with
    | nil => simp [purchases]
    | cons y payments =>
      have hrest := ih (List.cons_ne_nil _ _)
      have hfirst := (purchase_add accept x.1 ((y :: payments).map Prod.fst).sum).2
      push_cast
      omega

end Rounding

section Lookup

theorem LooksUp.congr (hoffers : s'.myOffers = s.myOffers) (hsp : s'.spInfo = s.spInfo)
    (hfree : s'.isFeatureActivated .freeDex block = s.isFeatureActivated .freeDex block)
    (haccepts : ∀ a q b, (s'.getAccept a q b).isSome = (s.getAccept a q b).isSome)
    (h : s.LooksUp env seller buyer block p) : s'.LooksUp env seller buyer block p := by
  have hpaired : ∀ a b q, s'.Paired a b q ↔ s.Paired a b q := by
    intro a b q
    rw [Paired, Paired, hsp, haccepts, haccepts]
  have htoken : s'.getTokenForSale seller = s.getTokenForSale seller := by
    rw [getTokenForSale, hoffers, getTokenForSale]
  have hnone : s'.getAccept seller tlPropertyMsc buyer = none ↔
      s.getAccept seller tlPropertyMsc buyer = none := by
    rw [← Option.isNone_iff_eq_none, ← Option.isNone_iff_eq_none, ← Option.not_isSome, haccepts,
      Option.not_isSome]
  rw [LooksUp] at h ⊢
  simp only [FirstPaired, hpaired, htoken, hfree, hnone]
  exact h

end Lookup

section Steps

structure Installment (s : NodeState) (env : Environment) (seller buyer : Address)
    (p : PropertyId) (accept : Accept) (n : Int) (s' : NodeState) : Prop where
  inRange : s'.ledger.InRange
  balance_eq : s'.ledger.money buyer p .balance = s.ledger.money buyer p .balance + n
  reserve_eq : s'.ledger.money seller p .acceptReserve =
    s.ledger.money seller p .acceptReserve - n
  accept_eq : s'.getAccept seller p buyer =
    if accept.acceptAmountRemaining ≤ n then none else some (accept.reduce n)
  looksUp : n < accept.acceptAmountRemaining → ∀ block,
    s.LooksUp env seller buyer block p → s'.LooksUp env seller buyer block p

theorem InstallmentsFit.rest_nonneg {x : Int × Int}
    (h : s.InstallmentsFit env seller buyer p accept (x :: payments)) :
    0 ≤ purchases accept payments := by
  apply List.sum_nonneg
  intro n hn
  obtain ⟨y, hy, rfl⟩ := List.mem_map.mp hn
  exact (purchase_pos (h.paid y (List.mem_cons_of_mem _ hy)) h.offered h.desired).le

theorem looksUp_setAccept {ps : List (Posting Account)} (hposted : s.Posted ps m)
    (haccept : (s.getAccept seller p buyer).isSome = true) (accept' : Accept)
    (h : s.LooksUp env seller buyer block p) :
    (m.setAccept (strAcceptAddrPropAddrCombo seller buyer p) accept').LooksUp env seller buyer
      block p := by
  have hoffers : m.myOffers = s.myOffers := by rw [hposted.1]
  have hsp : m.spInfo = s.spInfo := by rw [hposted.1]
  have haccepts : m.myAccepts = s.myAccepts := by rw [hposted.1]
  have hfree : m.isFeatureActivated .freeDex block = s.isFeatureActivated .freeDex block := by
    rw [hposted.1]
    rfl
  refine LooksUp.congr hoffers hsp hfree ?_ h
  intro a q b
  rw [getAccept, setAccept, OrderedMap.get?_set]
  split_ifs with hkey
  · rw [getAccept, hkey]
    exact haccept.symm
  · rw [haccepts]
    rfl

theorem InstallmentsFit.step
    (h : s.InstallmentsFit env seller buyer p accept ((amountPaid, block) :: payments))
    (hn : n = min (purchase accept amountPaid) accept.acceptAmountRemaining) :
    ∃ rc s', s.payment env seller buyer amountPaid block = .ok (rc, s') ∧
      s.Installment env seller buyer p accept n s' := by
  have hl : s.Locates env seller buyer block p accept :=
    ⟨h.looksUp _ List.mem_cons_self, h.accept_eq⟩
  have hpaid : 0 < amountPaid := h.paid _ List.mem_cons_self
  have hpurchase := purchase_pos hpaid h.offered h.desired
  have hsum : purchases accept ((amountPaid, block) :: payments) =
    purchase accept amountPaid + purchases accept payments := rfl
  have hrest := h.rest_nonneg
  have hremaining := h.remaining
  have hfunds := h.funds
  have hroom := h.room
  -- an accept of which nothing remains is closed without a transfer
  obtain ⟨m, hm⟩ : ∃ m, s.assertTallies (if 0 < n then
      Posting.transfer ⟨seller, p, .acceptReserve⟩ ⟨buyer, p, .balance⟩ n else []) = .ok m := by
    split_ifs with hpos
    · rcases transfer_cases seller buyer p h.inRange hpos (by omega) with ⟨-, hm⟩ | ⟨hover, -⟩
      · exact hm
      · exact absurd (by omega) hover
    · exact ⟨s, rfl⟩
  have hposted := posted_of_assertTallies hm
  have hinRange := inRange_of_assertTallies h.inRange hm
  have hbalance : m.ledger.money buyer p .balance = s.ledger.money buyer p .balance + n := by
    rw [hposted.money_ite]
    simp only [Account.mk.injEq, reduceCtorEq, and_false, and_true, if_false, sub_zero]
    split_ifs <;> omega
  have hreserve : m.ledger.money seller p .acceptReserve =
      s.ledger.money seller p .acceptReserve - n := by
    rw [hposted.money_ite]
    simp only [Account.mk.injEq, reduceCtorEq, and_false, and_true, if_false, add_zero]
    split_ifs <;> omega
  rw [payment_eq hpaid.le hl.paymentAccept_eq h.offered h.desired (h.fits _ List.mem_cons_self) hn,
    hm, ok_bind]
  dsimp only [FoundAccept.key]
  by_cases hall : accept.acceptAmountRemaining ≤ n
  · rw [if_pos hall]
    have hzero : (accept.reduce n).acceptAmountRemaining = 0 :=
      sub_eq_zero.mpr (hall.antisymm (hn ▸ min_le_right _ _))
    obtain ⟨s', hs', hledger, haccepts⟩ := finishAccept_of_zero m seller buyer p hzero
    refine ⟨_, s', by rw [hs']; rfl, by rwa [hledger], by rwa [hledger], by rwa [hledger], ?_,
      fun hlt => absurd hall hlt.not_ge⟩
    rw [if_pos hall, getAccept, haccepts, OrderedMap.get?_erase, if_pos rfl]
  · rw [if_neg hall]
    refine ⟨_, _, rfl, hinRange, hbalance, hreserve, ?_, fun _ block' hlooks => ?_⟩
    · rw [if_neg hall, getAccept, setAccept, OrderedMap.get?_set, if_pos rfl]
    · exact looksUp_setAccept hposted (Option.isSome_iff_exists.mpr ⟨_, h.accept_eq⟩) _ hlooks

end Steps

section Runs

theorem payInstallments_of_none (h : s.getAccept seller p buyer = none) :
    s.payInstallments env seller buyer p payments = .ok s := by
  cases payments with
  | nil => rfl
  | cons x payments => rw [payInstallments, h, Option.isNone_none, if_pos rfl]

theorem payInstallments_cons {rc : Int} (haccept : s.getAccept seller p buyer = some accept)
    (h : s.payment env seller buyer amountPaid block = .ok (rc, s')) :
    s.payInstallments env seller buyer p ((amountPaid, block) :: payments) =
      s'.payInstallments env seller buyer p payments := by
  rw [payInstallments, haccept, Option.isNone_some, if_neg Bool.false_ne_true, h, ok_bind]

theorem InstallmentsFit.rest
    (h : s.InstallmentsFit env seller buyer p accept ((amountPaid, block) :: payments))
    (hstep : s.Installment env seller buyer p accept (purchase accept amountPaid) s')
    (hopen : purchase accept amountPaid < accept.acceptAmountRemaining) :
    s'.InstallmentsFit env seller buyer p (accept.reduce (purchase accept amountPaid))
      payments := by
  have hsum : purchases accept ((amountPaid, block) :: payments) =
    purchase accept amountPaid + purchases accept payments := rfl
  have hfunds := h.funds
  have hroom := h.room
  refine ⟨hstep.inRange, ?_, ?_, ?_, ?_, h.offered, h.desired, ?_, ?_, ?_⟩
  · rw [hstep.accept_eq, if_neg hopen.not_ge]
  · intro x hx
    exact hstep.looksUp hopen x.2 (h.looksUp x (List.mem_cons_of_mem _ hx))
  · exact fun x hx => h.paid x (List.mem_cons_of_mem _ hx)
  · exact sub_nonneg.mpr hopen.le
  · exact fun x hx => h.fits x (List.mem_cons_of_mem _ hx)
  · rw [hstep.reserve_eq]
    change min (accept.acceptAmountRemaining - _) (purchases accept payments) ≤ _
    omega
  · rw [hstep.balance_eq]
    change _ + min (accept.acceptAmountRemaining - _) (purchases accept payments) ≤ _
    omega

/-- Payments buy what they buy one by one, up to what remains of the accept. -/
theorem payInstallments_eq (h : s.InstallmentsFit env seller buyer p accept payments)
    (hopen : payments = [] → 0 < accept.acceptAmountRemaining)
    (hn : n = min accept.acceptAmountRemaining (purchases accept payments)) :
    ∃ s', s.payInstallments env seller buyer p payments = .ok s' ∧
      s'.ledger.money buyer p .balance = s.ledger.money buyer p .balance + n ∧
      s'.ledger.money seller p .acceptReserve = s.ledger.money seller p .acceptReserve - n ∧
      (s'.getAccept seller p buyer = none ↔ n = accept.acceptAmountRemaining) := by
  induction payments generalizing s accept n with
  | nil =>
    have hzero : n = 0 := by rw [hn]; exact min_eq_right h.remaining
    subst hzero
    refine ⟨s, rfl, (add_zero _).symm, (sub_zero _).symm, ?_⟩
    rw [h.accept_eq]
    exact iff_of_false nofun (hopen rfl).ne
  | cons x payments ih =>
    obtain ⟨amountPaid, block⟩ := x
    have hsum : purchases accept ((amountPaid, block) :: payments) =
      purchase accept amountPaid + purchases accept payments := rfl
    have hrest := h.rest_nonneg
    rcases le_or_gt accept.acceptAmountRemaining (purchase accept amountPaid) with hall | hpart
    · obtain ⟨rc, s', hpayment, hstep⟩ := h.step (n := accept.acceptAmountRemaining)
        (min_eq_right hall).symm
      have hnone : s'.getAccept seller p buyer = none := by
        rw [hstep.accept_eq, if_pos le_rfl]
      obtain rfl : n = accept.acceptAmountRemaining := by omega
      refine ⟨s', ?_, hstep.balance_eq, hstep.reserve_eq, iff_of_true hnone rfl⟩
      rw [payInstallments_cons h.accept_eq hpayment, payInstallments_of_none hnone]
    · obtain ⟨rc, m, hpayment, hstep⟩ := h.step (n := purchase accept amountPaid)
        (min_eq_left hpart.le).symm
      obtain ⟨s', hs', hbalance, hreserve, hclosed⟩ :=
        ih (h.rest hstep hpart) (fun _ => sub_pos.mpr hpart) rfl
      change _ = _ + min (accept.acceptAmountRemaining - _) (purchases accept payments)
        at hbalance
      change _ = _ - min (accept.acceptAmountRemaining - _) (purchases accept payments)
        at hreserve
      change _ ↔ min (accept.acceptAmountRemaining - _) (purchases accept payments) =
        accept.acceptAmountRemaining - _ at hclosed
      rw [hstep.balance_eq] at hbalance
      rw [hstep.reserve_eq] at hreserve
      refine ⟨s', ?_, by omega, by omega, ?_⟩
      · rw [payInstallments_cons h.accept_eq hpayment, hs']
      · rw [hclosed]
        omega

/-- Paying in installments buys at least what one payment of the sum buys and at most a token
more for each further payment, never more than remains, and closes the accept exactly when all
of it is bought. -/
theorem payInstallments_bounds (h : s.InstallmentsFit env seller buyer p accept payments)
    (hne : payments ≠ []) :
    ∃ s' n, s.payInstallments env seller buyer p payments = .ok s' ∧
      s'.ledger.money buyer p .balance = s.ledger.money buyer p .balance + n ∧
      s'.ledger.money seller p .acceptReserve = s.ledger.money seller p .acceptReserve - n ∧
      min accept.acceptAmountRemaining (purchase accept (payments.map Prod.fst).sum) ≤ n ∧
      n ≤ min accept.acceptAmountRemaining
        (purchase accept (payments.map Prod.fst).sum + (payments.length - 1)) ∧
      (s'.getAccept seller p buyer = none ↔ n = accept.acceptAmountRemaining) := by
  have hlow := purchase_sum_le accept payments
  have hhigh := purchases_le accept hne
  obtain ⟨s', hs', hbalance, hreserve, hclosed⟩ :=
    payInstallments_eq h (fun hnil => absurd hnil hne) rfl
  exact ⟨s', _, hs', hbalance, hreserve, min_le_min_left _ hlow, min_le_min_left _ hhigh, hclosed⟩

end Runs

def sampleAccept : Accept where
  acceptAmountOriginal := 4
  acceptAmountRemaining := 4
  blockTimeLimit := 10
  property := 3
  offerAmountOriginal := 5
  btcDesiredOriginal := 2
  offerTxid := 1
  block := 100

theorem installmentsFit_sampleAccept
    (hrun : sampleSellers.runOperations (.plain .test) (sampleAccepted 2) = .ok s) :
    s.InstallmentsFit (.plain .test) ['s'] ['c'] 3 sampleAccept [(1, 101), (1, 102)] := by
  obtain ⟨m, hm, hlookup⟩ := exists_ok_of_map
    (g := fun s => (s.getTokenForSale ['s'], s.isFeatureActivated .freeDex 101,
      s.isFeatureActivated .freeDex 102))
    (x := sampleSellers.runOperations (.plain .test) (sampleAccepted 2))
    (b := (some 3, true, true)) (by decide +kernel)
  obtain ⟨m', hm', hstate⟩ := exists_ok_of_map
    (g := fun s => (s.getAccept ['s'] 3 ['c'], s.ledger.money ['s'] 3 .acceptReserve,
      s.ledger.money ['c'] 3 .balance))
    (x := sampleSellers.runOperations (.plain .test) (sampleAccepted 2))
    (b := (some sampleAccept, 4, 0)) (by decide +kernel)
  obtain rfl : m = s := Except.ok.inj (hm.symm.trans hrun)
  obtain rfl : m' = m := Except.ok.inj (hm'.symm.trans hrun)
  simp only [Prod.mk.injEq] at hlookup hstate
  obtain ⟨htoken, hfree, hfree'⟩ := hlookup
  obtain ⟨haccept, hreserve, hbalance⟩ := hstate
  have hcalls : ∀ c ∈ sampleAccepted 2, c.2.OnDex := by
    simp [sampleAccepted, Operation.OnDex, PlainAddress]
  have hpays : sampleSellers.paysSellers (.plain .test) (sampleAccepted 2) = true := by
    decide +kernel
  have hinv := (dexKept_of_runOperations dexStart_sampleSellers.inv hcalls hpays hrun).inv
  refine ⟨hinv.inRange, haccept, ?_, by simp, by decide, by decide, by decide, ?_,
    (min_le_left _ _).trans hreserve.ge, ?_⟩
  · simp [LooksUp, hfree, hfree', htoken, Environment.plain]
  · simp [sampleAccept, int64Max]
  · rw [hbalance, zero_add]
    exact (min_le_left _ _).trans (by decide)

/-- Two payments that are together worth five tokens buy the four of the accept and close it. -/
theorem payInstallments_sampleAccept :
    ∃ s s', sampleSellers.runOperations (.plain .test) (sampleAccepted 2) = .ok s ∧
      s.payInstallments (.plain .test) ['s'] ['c'] 3 [(1, 101), (1, 102)] = .ok s' ∧
      s'.ledger.money ['c'] 3 .balance = s.ledger.money ['c'] 3 .balance + 4 ∧
      s'.getAccept ['s'] 3 ['c'] = none := by
  obtain ⟨s, hrun⟩ : ∃ s, sampleSellers.runOperations (.plain .test) (sampleAccepted 2) = .ok s :=
    exists_ok (by decide +kernel)
  obtain ⟨s', n, hs', hbalance, -, hlow, hhigh, hclosed⟩ :=
    payInstallments_bounds (installmentsFit_sampleAccept hrun) (List.cons_ne_nil _ _)
  have hpurchase : purchase sampleAccept
      (List.map Prod.fst [((1 : Int), (101 : Int)), (1, 102)]).sum = 5 := by
    norm_num [purchase, sampleAccept]
  rw [hpurchase] at hlow
  obtain rfl : n = 4 := le_antisymm (hhigh.trans (min_le_left _ _)) hlow
  exact ⟨s, s', hrun, hs', hbalance, hclosed.mpr rfl⟩

end NodeState

end TradeLayer
