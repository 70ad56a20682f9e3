import TradeLayer.MetaDExLeftover
import TradeLayer.MetaDExReady

namespace TradeLayer
open Library

/-- The fees of what the matching rule buys of resting orders, one after the other. -/
def MetaDEx.feesOf : MetaDEx → List MetaDEx → Int
  | _, [] => 0
  | pnew, o :: orders =>
    (if Executable pnew o then (affordable pnew.amountRemaining o).tdiv 2000 else 0) +
      feesOf (pnew.afterOffer o) orders

namespace MetaDEx

variable {pnew o : MetaDEx} {orders : List MetaDEx}

theorem afterOffer_of_not_executable (h : ¬ Executable pnew o) : pnew.afterOffer o = pnew :=
  if_neg h

theorem feesOf_nonneg (pnew : MetaDEx) (orders : List MetaDEx) : 0 ≤ pnew.feesOf orders := by
  induction orders generalizing pnew with
  | nil => exact le_rfl
  | cons o orders ih =>
    rw [feesOf]
    have hrest := ih (pnew.afterOffer o)
    split_ifs with hexec
    · have hfee := Int.tdiv_nonneg hexec.2.2.1.le (by decide : (0 : Int) ≤ 2000)
      omega
    · omega

theorem feesOf_of_not_executable (h : ¬ Executable pnew o) :
    pnew.feesOf (o :: orders) = pnew.feesOf orders := by
  rw [feesOf, if_neg h, zero_add, afterOffer_of_not_executable h]

theorem feesOf_eq_zero (h : ∀ o ∈ orders, ¬ Executable pnew o) : pnew.feesOf orders = 0 := by
  induction orders with
  | nil => rfl
  | cons o orders ih =>
    obtain ⟨ho, horders⟩ := List.forall_mem_cons.mp h
    rw [feesOf_of_not_executable ho]
    exact ih horders

section Fill

variable {got paid : Int} (hwant : 0 < pnew.amountDesired)
  (h : fill pnew o = .ok (some (got, paid)))

include hwant h

theorem afterOffer_of_fill : pnew.afterOffer o =
    { pnew with amountRemaining := pnew.amountRemaining - paid } := by
  have hexec := executable_of_fill hwant h
  obtain ⟨-, -, rfl, rfl⟩ := amounts_of_fill h
  exact if_pos hexec

theorem feesOf_of_fill :
    pnew.feesOf (o :: orders) = got.tdiv 2000 + (pnew.afterOffer o).feesOf orders := by
  have hexec := executable_of_fill hwant h
  obtain ⟨-, -, rfl, -⟩ := amounts_of_fill h
  rw [feesOf, if_pos hexec]

end Fill

end MetaDEx

namespace NodeState

variable {s s' : NodeState} {env : Environment} {pnew : MetaDEx} {offers : List (ℚ × MetaDEx)}
variable {orders : List MetaDEx}

/-- The trades of an incoming order bring the fee cache to a distribution without receivers. -/
def FeesStuck (s : NodeState) (pnew : MetaDEx) (orders : List MetaDEx) : Prop :=
  s.ChargesFees pnew ∧ (∃ o ∈ orders, MetaDEx.Executable pnew o) ∧ s.Stuck pnew.desProperty
    (s.feeCache.getCachedAmount pnew.desProperty + pnew.feesOf orders)

/-- Matching returns, and what is left of the order is still in the balance of its sender. -/
def TradesSafely (pnew : MetaDEx) (x : Except Abort (List Visit × MetaDEx × NodeState)) : Prop :=
  ∃ visits rest m, x = .ok (visits, rest, m) ∧
    rest.amountRemaining ≤ m.ledger.money pnew.addr pnew.property .balance

theorem tradesSafely_cons {e : ℚ × MetaDEx} {pmid : MetaDEx}
    (hm : s.matchOrder env e.1 pnew e.2 = .ok (pmid, s')) (hne : pmid.amountRemaining ≠ 0) :
    TradesSafely pnew (visitOffers env (e :: offers) pnew s) ↔
      TradesSafely pmid (visitOffers env offers pmid s') := by
  have hsame : pmid.addr = pnew.addr ∧ pmid.property = pnew.property := by
    rw [pnew_of_matchOrder hm]
    exact ⟨rfl, rfl⟩
  rw [TradesSafely, TradesSafely, hsame.1, hsame.2, visitOffers, hm, ok_bind]
  dsimp only
  rw [if_neg hne]
  constructor
  · rintro ⟨visits, rest, m, hrun, hle⟩
    obtain ⟨⟨vs, r⟩, hr, hrun⟩ := bind_eq_ok.mp hrun
    cases hrun
    exact ⟨vs, rest, m, hr, hle⟩
  · rintro ⟨visits, rest, m, hrun, hle⟩
    exact ⟨⟨pnew, e.2⟩ :: visits, rest, m, by rw [hrun]; rfl, hle⟩

section Match

variable {price : ℚ} {pold : MetaDEx} {got paid : Int} (h : s.Ready pnew)
  (hmem : pold ∈ Book.level s.metadex pnew.desProperty price)
  (hfill : MetaDEx.fill pnew pold = .ok (some (got, paid)))

include h

theorem Ready.feesStuck_of_feeStuck
    (hfill : MetaDEx.fill pnew pold = .ok (some (got, paid))) (hstuck : s.FeeStuck pnew got) :
    s.FeesStuck pnew (pold :: orders) := by
  have hexec := MetaDEx.executable_of_fill h.desired hfill
  have hgot := (MetaDEx.fill_eq_some hfill).2.2.1
  obtain ⟨hcharges, hnone, hne, hdue⟩ := hstuck
  have hrest := (pnew.afterOffer pold).feesOf_nonneg orders
  have hcached := (h.fees hcharges).nonneg
  have hfee := Int.tdiv_nonneg hgot.le (by decide : (0 : Int) ≤ 2000)
  refine ⟨hcharges, ⟨pold, List.mem_cons_self, hexec⟩, hnone, ?_, ?_⟩
  · rw [MetaDEx.feesOf_of_fill h.desired hfill]
    omega
  · rw [MetaDEx.feesOf_of_fill h.desired hfill]
    omega

include hmem

theorem Ready.fill_eq (hne : pnew.amountRemaining ≠ 0) (hprice : price ≤ pnew.inversePrice) :
    MetaDEx.fill pnew pold = .ok (if MetaDEx.Executable pnew pold then
      some (MetaDEx.affordable pnew.amountRemaining pold,
        pold.cost (MetaDEx.affordable pnew.amountRemaining pold)) else none) := by
  have hrest := h.book.remaining hmem
  have hplace := h.book.place hmem
  have hmax := (h.book.inRange pnew.addr pnew.property .balance (by decide)).2
  exact MetaDEx.fill_eq (h.nonneg.lt_of_ne' hne) (h.funds.trans hmax) h.sale h.desired h.distinct
    hrest.1 hrest.2 (h.book.le_max hmem).1 (h.book.desired hmem) hplace.1.symm
    (hplace.2 ▸ hprice)

include hfill

theorem Ready.feesStuck_cons (hpay : ¬ s.FeeStuck pnew got)
    (hexec : s.executeTrade env price pnew pold got paid = .ok s') :
    s.FeesStuck pnew (pold :: orders) ↔ s'.FeesStuck (pnew.afterOffer pold) orders := by
  have hafter := MetaDEx.afterOffer_of_fill h.desired hfill
  have hdes : (pnew.afterOffer pold).desProperty = pnew.desProperty := by rw [hafter]
  have hcharged : s'.ChargesFees (pnew.afterOffer pold) ↔ s.ChargesFees pnew := by
    rw [hafter]
    exact chargesFees_executeTrade hexec
  rw [FeesStuck, FeesStuck, hcharged, hdes, MetaDEx.feesOf_of_fill h.desired hfill]
  refine and_congr_right fun hcharges => ?_
  have hreceiver := hasFeeReceiver_executeTrade hfill hexec hcharges
  have hthreshold : s'.feeCache.getDistributionThreshold pnew.desProperty =
      s.feeCache.getDistributionThreshold pnew.desProperty := by
    rw [FeeCache.getDistributionThreshold, FeeCache.getDistributionThreshold,
      (h.feeTaken_executeTrade hfill hexec hcharges).thresholds]
  rw [Stuck, Stuck, hreceiver, hthreshold]
  constructor
  · rintro ⟨-, hnone, hne, hdue⟩
    have hcached := h.cached_executeTrade hmem hfill hexec hpay hcharges hnone
    rw [← add_assoc, ← hcached] at hne hdue
    refine ⟨?_, hnone, hne, hdue⟩
    -- without a further trade the fees would have been stuck at this one
    by_contra hidle
    rw [MetaDEx.feesOf_eq_zero fun o ho hx => hidle ⟨o, ho, hx⟩, add_zero, hcached] at hne hdue
    exact hpay ⟨hcharges, hnone, hne, hdue⟩
  · rintro ⟨-, hnone, hne, hdue⟩
    have hcached := h.cached_executeTrade hmem hfill hexec hpay hcharges hnone
    rw [hcached, add_assoc] at hne hdue
    exact ⟨⟨pold, List.mem_cons_self, MetaDEx.executable_of_fill h.desired hfill⟩, hnone, hne, hdue⟩

end Match

theorem tradesSafely_visitOffers (h : s.Ready pnew) (hne : pnew.amountRemaining ≠ 0)
    (hoffers : ∀ e ∈ offers, e.1 ≤ pnew.inversePrice ∧
      e.2 ∈ Book.level s.metadex pnew.desProperty e.1)
    (hsorted : offers.Pairwise fun a b => priority a < priority b) :
    TradesSafely pnew (visitOffers env offers pnew s) ↔
      ¬ s.FeesStuck pnew (offers.map Prod.snd) := by
  induction offers generalizing pnew s with
  | nil =>
    refine iff_of_true ⟨[], pnew, s, rfl, h.funds⟩ ?_
    rintro ⟨-, ⟨o, ho, -⟩, -⟩
    cases ho
  | cons e offers ih =>
    obtain ⟨⟨hprice, hmem⟩, hoffers⟩ := List.forall_mem_cons.mp hoffers
    obtain ⟨hfirst, hsorted⟩ := List.pairwise_cons.mp hsorted
    have hfill := h.fill_eq hmem hne hprice
    have hplace := (h.book.place hmem).2.symm
    rw [List.map_cons]
    split_ifs at hfill with hexecutable
    · generalize MetaDEx.affordable pnew.amountRemaining e.2 = got at hfill
      generalize e.2.cost got = paid at hfill
      have hmatch : s.matchOrder env e.1 pnew e.2 = _ := matchOrder_of_some hplace hfill
      by_cases hstuck : s.FeeStuck pnew got
      · refine iff_of_false ?_ (not_not.mpr (h.feesStuck_of_feeStuck hfill hstuck))
        rw [h.executeTrade_of_feeStuck hmem hfill hstuck, error_bind] at hmatch
        rintro ⟨visits, rest, m, hrun, -⟩
        rw [visitOffers, hmatch, error_bind] at hrun
        cases hrun
      · obtain ⟨s', hexec⟩ : ∃ s', s.executeTrade env e.1 pnew e.2 got paid = .ok s' :=
          h.exists_executeTrade hmem hfill hstuck
        have hnext := h.executeTrade hmem hfill hexec
        have hafter := MetaDEx.afterOffer_of_fill h.desired hfill
        rw [hexec, ok_bind, ← hafter] at hmatch
        rw [← hafter] at hnext
        rw [h.feesStuck_cons hmem hfill hstuck hexec]
        by_cases hzero : (pnew.afterOffer e.2).amountRemaining = 0
        · refine iff_of_true ⟨[⟨pnew, e.2⟩], pnew.afterOffer e.2, s', ?_, ?_⟩ ?_
          · rw [visitOffers, hmatch, ok_bind]
            exact if_pos hzero
          · have hfunds := hnext.funds
            rw [hafter] at hfunds ⊢
            exact hfunds
          · rintro ⟨-, ⟨o, -, ho⟩, -⟩
            exact MetaDEx.not_executable_of_zero hzero ho
        · rw [tradesSafely_cons hmatch hzero, ih hnext hzero ?_ hsorted]
          intro e' he'
          obtain ⟨hprice', hmem'⟩ := hoffers e' he'
          rw [hafter]
          refine ⟨hprice', (mem_level_executeTrade hexec).mpr (.inl ⟨hmem', ?_⟩)⟩
          -- the orders that follow stand behind the one that was matched
          rintro ⟨-, hsame, hpos⟩
          have hlt := hfirst e' he'
          rw [priority, priority, ← hsame, ← hpos] at hlt
          exact lt_irrefl _ hlt
    · rw [tradesSafely_cons (matchOrder_of_none hplace hfill) hne, ih h hne hoffers hsorted]
      rw [FeesStuck, FeesStuck, MetaDEx.feesOf_of_not_executable hexecutable,
        List.exists_mem_cons_iff]
      simp only [hexecutable, false_or]

/-- Matching an incoming order never aborts and leaves its rest in the balance of the sender,
exactly where it does not bring a fee to a distribution without receivers. -/
theorem xTrade_safe_iff {a : Address} {block n d : Int} {p q : PropertyId} {txid idx : Nat}
    (hnew : pnew = .incoming a block p n q d txid idx) (hbook : s.BookInvariant) (hn : 0 < n)
    (hd : 0 < d) (hne : p ≠ q) (hfunds : n ≤ s.ledger.money a p .balance)
    (hfree : s.ledger.freeze.isAddressFrozen a p = false)
    (hfees : s.ChargesFees pnew → s.CacheInOrder q block) :
    (∃ rest m, s.xTrade env pnew = .ok (rest, m) ∧
        rest.amountRemaining ≤ m.ledger.money a p .balance) ↔
      ¬ s.FeesStuck pnew ((s.offers pnew).map Prod.snd) := by
  subst hnew
  have hready : s.Ready (.incoming a block p n q d txid idx) :=
    ⟨hbook, hn.le, hn, hd, hne, hfunds, hfree, hfees⟩
  have hsafe : TradesSafely _ (visitOffers env (s.offers _) _ s) ↔ ¬ s.FeesStuck _ _ :=
    tradesSafely_visitOffers hready hn.ne' (fun e he => mem_offers.mp he) (offers_sorted s _)
  rw [← hsafe, xTrade_eq (hn.ne' : n ≠ 0)]
  constructor
  · rintro ⟨rest, m, hrun, hle⟩
    obtain ⟨⟨visits, r⟩, hvisits, rfl⟩ := exists_ok_of_map hrun
    exact ⟨visits, rest, m, hvisits, hle⟩
  · rintro ⟨visits, rest, m, hrun, hle⟩
    exact ⟨rest, m, by rw [hrun]; rfl, hle⟩

def sampleFeeOrder : MetaDEx := .incoming ['A'] 100 4 4000 5 4000 1 1

def sampleFeeMarket (others : List (Posting Account)) : NodeState :=
  { oneOrder sampleFeeOrder (⟨⟨['B'], 5, .balance⟩, 4000⟩ :: others) with
    features := .initial .test }

theorem cacheInOrder_sampleFeeMarket {others : List (Posting Account)}
    (hbook : (sampleFeeMarket others).BookInvariant) :
    (sampleFeeMarket others).CacheInOrder 4 101 := by
  refine ⟨le_rfl, fun p e he => ?_, ?_⟩
  · cases he
  · have hcap := hbook.capped 4
    rw [circulation]
    change _ + 0 ≤ _
    omega

/-- With a holder of the base property the order is bought and its fee is shared. -/
theorem xTrade_sampleFeeMarket :
    (sampleFeeMarket [⟨⟨['H'], 1, .balance⟩, 10⟩]).ChargesFees
        (.incoming ['B'] 101 5 4000 4 4000 2 1) ∧
      ∃ rest m, (sampleFeeMarket [⟨⟨['H'], 1, .balance⟩, 10⟩]).xTrade (.plain .test)
          (.incoming ['B'] 101 5 4000 4 4000 2 1) = .ok (rest, m) ∧
        rest.amountRemaining ≤ m.ledger.money ['B'] 5 .balance := by
  have hbook : (sampleFeeMarket [⟨⟨['H'], 1, .balance⟩, 10⟩]).BookInvariant :=
    bookInvariant_of_entries rfl (by decide) (by decide +kernel)
  refine ⟨by decide +kernel, ?_⟩
  refine (xTrade_safe_iff rfl hbook (by decide) (by decide) (by decide) (by decide +kernel)
    (by decide +kernel) fun _ => cacheInOrder_sampleFeeMarket hbook).mpr ?_
  rintro ⟨-, -, hnone, -⟩
  exact hnone ⟨['H'], by decide, .balance, by decide, by decide +kernel⟩

/-- Without one the same order stops the node. -/
theorem abort_of_sampleFeeMarket : (sampleFeeMarket []).BookInvariant ∧
    (sampleFeeMarket []).CacheInOrder 4 101 ∧
    4000 ≤ (sampleFeeMarket []).ledger.money ['B'] 5 .balance ∧
    (sampleFeeMarket []).ledger.freeze.isAddressFrozen ['B'] 5 = false ∧
    (sampleFeeMarket []).ledger.freeze.isAddressFrozen ['A'] 4 = false ∧
    (sampleFeeMarket []).xTrade (.plain .test) (.incoming ['B'] 101 5 4000 4 4000 2 1) =
      .error .assertion := by
  have hbook : (sampleFeeMarket []).BookInvariant :=
    bookInvariant_of_entries rfl (by decide) (by decide +kernel)
  refine ⟨hbook, cacheInOrder_sampleFeeMarket hbook, by decide +kernel, by decide +kernel,
    by decide +kernel, ?_⟩
  exact eq_error_of_failure (by decide +kernel)

end NodeState

end TradeLayer
