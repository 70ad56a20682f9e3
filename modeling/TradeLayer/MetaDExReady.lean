import TradeLayer.MetaDExRests
import TradeLayer.SupplyMoves

namespace TradeLayer
open Library

theorem Ledger.Nonneg.money_add_money_le {l : Ledger} {a b : Address} {p : PropertyId}
    {t : TallyType} (hl : l.Nonneg) (hne : a ≠ b) (ht : t ≠ .pending) :
    l.money a p t + l.money b p t ≤ l.supply p t := by
  have hempty : ∀ q u, Tally.getMoney ∅ q u = 0 := by simp [Tally.getMoney]
  have hrest : (l.setTally a ∅).Nonneg := by
    intro c q u hu
    rw [money_setTally]
    split_ifs
    · rw [hempty]
    · exact hl c q u hu
  have hb := hrest.money_le_supply (a := b) (p := p) ht
  rw [money_setTally, if_neg hne.symm, supply_setTally, hempty] at hb
  omega

namespace NodeState

variable {s s' m : NodeState} {env : Environment} {pnew pold : MetaDEx} {price : ℚ}
variable {p : PropertyId} {got paid : Int}

/-- A proper incoming order that has its rest in a balance free to spend, before a proper book
and, where fees are charged, a fee cache in order. -/
structure Ready (s : NodeState) (pnew : MetaDEx) : Prop where
  book : s.BookInvariant
  nonneg : 0 ≤ pnew.amountRemaining
  sale : 0 < pnew.amountForSale
  desired : 0 < pnew.amountDesired
  distinct : pnew.property ≠ pnew.desProperty
  funds : pnew.amountRemaining ≤ s.ledger.money pnew.addr pnew.property .balance
  unfrozen : s.ledger.freeze.isAddressFrozen pnew.addr pnew.property = false
  fees : s.ChargesFees pnew → s.CacheInOrder pnew.desProperty pnew.block

/-- Adding the fee of a purchase to the cache leaves a distribution without receivers. -/
def FeeStuck (s : NodeState) (pnew : MetaDEx) (got : Int) : Prop :=
  s.ChargesFees pnew ∧ s.Stuck pnew.desProperty
    (s.feeCache.getCachedAmount pnew.desProperty + got.tdiv 2000)

section Fees

variable (h : s.Ready pnew) (hmem : pold ∈ Book.level s.metadex pnew.desProperty price)
  (hfill : MetaDEx.fill pnew pold = .ok (some (got, paid)))

include h hmem

theorem Ready.remaining_le_reserve : pold.amountRemaining ≤
    s.ledger.money pold.addr pnew.desProperty .metadexReserve := by
  have hle := h.book.remaining_le_reserve (Book.mem_entries.mpr hmem)
  have hplace := (h.book.place hmem).1
  rw [hplace]
  exact hle

include hfill

theorem Ready.room_for_fees (hcharges : s.ChargesFees pnew) (a : Address) :
    s.ledger.money a pnew.desProperty .balance +
      (s.feeCache.getCachedAmount pnew.desProperty + got.tdiv 2000) ≤ int64Max := by
  obtain ⟨-, hwithin, hgot, -⟩ := MetaDEx.fill_eq_some hfill
  have hreserve := h.remaining_le_reserve hmem
  have hcap := (h.fees hcharges).capped
  have hsum := balance_add_reserve_le h.book.inRange a pold.addr pnew.desProperty
  have hleft := hwithin.2.2.1
  rw [circulation] at hcap
  rw [Int.tdiv_eq_ediv_of_nonneg hgot.le]
  omega

theorem Ready.exists_chargeFee (hpay : ¬ s.FeeStuck pnew got) :
    ∃ m, s.chargeFee env pnew (s.tradingFee pnew pold got) = .ok m ∧
      (s.ChargesFees pnew → ¬ s.HasFeeReceiver pnew.desProperty →
        m.feeCache.getCachedAmount pnew.desProperty =
          s.feeCache.getCachedAmount pnew.desProperty + got.tdiv 2000) := by
  obtain ⟨hmatch, -, hgot, -⟩ := MetaDEx.fill_eq_some hfill
  by_cases hcharges : s.ChargesFees pnew
  · rw [chargeFee_of_chargesFees hmatch hcharges]
    obtain ⟨m, hm, hcached⟩ := exists_addFee h.book.inRange (h.fees hcharges)
      (Int.tdiv_nonneg hgot.le (by decide)) (h.room_for_fees hmem hfill hcharges)
      (h.book.capped _) fun hstuck => hpay ⟨hcharges, hstuck⟩
    exact ⟨m, hm, fun _ => hcached⟩
  · rw [chargeFee_of_not_chargesFees hmatch hcharges]
    exact ⟨s, rfl, fun hcharges' => absurd hcharges' hcharges⟩

theorem Ready.executeTrade_of_feeStuck (hstuck : s.FeeStuck pnew got) :
    s.executeTrade env price pnew pold got paid = .error .assertion := by
  obtain ⟨hmatch, -, hgot, -⟩ := MetaDEx.fill_eq_some hfill
  obtain ⟨hcharges, hstuck⟩ := hstuck
  rw [executeTrade, chargeFee_of_chargesFees hmatch hcharges,
    addFee_of_stuck h.book.inRange (h.fees hcharges) (Int.tdiv_nonneg hgot.le (by decide))
      (h.room_for_fees hmem hfill hcharges) (h.book.capped _) hstuck, error_bind]

end Fees

theorem tradingFee_bounds (hm : pnew.Matches pold) (hgot : 0 < got) :
    0 ≤ (s.tradingFee pnew pold got).getD 0 ∧ (s.tradingFee pnew pold got).getD 0 < got := by
  rw [tradingFee_eq hm]
  split_ifs
  · rw [Option.getD_some, Int.tdiv_eq_ediv_of_nonneg hgot.le]
    omega
  · exact ⟨le_rfl, hgot⟩

section Match

variable (h : s.Ready pnew) (hmem : pold ∈ Book.level s.metadex pnew.desProperty price)
  (hfill : MetaDEx.fill pnew pold = .ok (some (got, paid)))

/-- The state between the fee of a match and its payments. -/
structure AfterFee (pnew : MetaDEx) (fee : Int) (s m : NodeState) : Prop where
  paidOut : PaidOut pnew.desProperty s m
  inRange : m.ledger.InRange
  capped : m.ledger.circulation pnew.desProperty ≤ int64Max + fee

include h hfill

theorem Ready.afterFee (hm : s.chargeFee env pnew (s.tradingFee pnew pold got) = .ok m) :
    AfterFee pnew ((s.tradingFee pnew pold got).getD 0) s m := by
  obtain ⟨hmatch, -, hgot, -⟩ := MetaDEx.fill_eq_some hfill
  rcases chargeFee_cases hmatch hm with ⟨-, hzero, rfl⟩ | ⟨hcharges, hfee, hm⟩
  · rw [hzero]
    refine ⟨.refl _ _, h.book.inRange, ?_⟩
    rw [add_zero]
    exact h.book.capped _
  · have hcache := h.fees hcharges
    have hcirculation := (circulates_of_addFee hm).circulation_eq hcache.upTo pnew.desProperty
    rw [hfee]
    refine ⟨paidOut_of_addFee hm, inRange_of_addFee h.book.inRange hm, ?_⟩
    have hcached : 0 ≤ m.feeCache.getCachedAmount pnew.desProperty := by
      have hnonneg := Int.tdiv_nonneg hgot.le (by decide : (0 : Int) ≤ 2000)
      have hbefore := hcache.nonneg
      rcases (feeTaken_of_addFee hcache.upTo hm).cached with hzero | hsum <;> omega
    have hcap := hcache.capped
    rw [circulation, if_pos rfl] at hcirculation
    omega

include hmem

theorem Ready.exists_executeTrade (hpay : ¬ s.FeeStuck pnew got) :
    ∃ s', s.executeTrade env price pnew pold got paid = .ok s' := by
  obtain ⟨hmatch, hwithin, hgot, -⟩ := MetaDEx.fill_eq_some hfill
  obtain ⟨hsale, hdesired, -, hpaid⟩ := MetaDEx.amounts_of_fill hfill
  have hpos : 0 < paid := hpaid ▸ MetaDEx.cost_pos hsale hdesired hgot
  obtain ⟨hleft, hrest⟩ := hwithin.2.2
  obtain ⟨m, hm, -⟩ : ∃ m, s.chargeFee env pnew (s.tradingFee pnew pold got) = .ok m ∧ _ :=
    h.exists_chargeFee hmem hfill hpay
  have hafter := h.afterFee hfill hm
  have hmoney : ∀ a, m.ledger.money a pnew.property .balance =
      s.ledger.money a pnew.property .balance :=
    fun a => hafter.paidOut.money_eq (.inl h.distinct)
  have hreserve : m.ledger.money pold.addr pnew.desProperty .metadexReserve =
      s.ledger.money pold.addr pnew.desProperty .metadexReserve :=
    hafter.paidOut.money_eq (.inr (by decide))
  have hfreeze : m.ledger.freeze = s.ledger.freeze := by
    obtain ⟨ps, hps, -⟩ := hafter.paidOut.posted
    exact hps.freeze_eq
  have hfee := tradingFee_bounds (s := s) hmatch hgot
  have hcovers : m.ledger.Covers (tradePostings pnew pold got paid
      ((s.tradingFee pnew pold got).getD 0)) := by
    have hseller := h.remaining_le_reserve hmem
    have hfunds := h.funds
    refine covers_tradePostings hafter.inRange hmatch (hfreeze ▸ h.unfrozen) hpos ?_ ?_ ?_
      hfee.1 hfee.2 ?_
    · rw [hmoney]
      omega
    · intro hother
      have hsum := h.book.inRange.nonneg.money_add_money_le (p := pnew.property) hother
        (by decide : TallyType.balance ≠ .pending)
      have hsupply := supply_add_supply_le h.book.inRange pnew.property
      have hreserves := h.book.inRange.nonneg.supply_nonneg (p := pnew.property)
        (by decide : TallyType.metadexReserve ≠ .pending)
      have hcap := h.book.capped pnew.property
      rw [hmoney]
      omega
    · rw [hreserve]
      omega
    · have hsum := balance_add_reserve_le hafter.inRange pnew.addr pold.addr pnew.desProperty
      have hcap := hafter.capped
      rw [hreserve] at hsum
      omega
  have hplain : Ledger.Plain (tradePostings pnew pold got paid
      ((s.tradingFee pnew pold got).getD 0)) := by
    simp [Ledger.Plain, tradePostings]
  obtain ⟨m', hm'⟩ := exists_assertTallies hafter.inRange hcovers hplain
  refine ⟨m'.replaceOrder price pnew.desProperty pold (pold.amountRemaining - got), ?_⟩
  rw [executeTrade, hm, ok_bind, hm', ok_bind, pure_eq_ok]

end Match

section Step

variable (h : s.Ready pnew) (hmem : pold ∈ Book.level s.metadex pnew.desProperty price)
  (hfill : MetaDEx.fill pnew pold = .ok (some (got, paid)))
  (hexec : s.executeTrade env price pnew pold got paid = .ok s')

include hexec

theorem chargesFees_executeTrade {left : Int} :
    s'.ChargesFees { pnew with amountRemaining := left } ↔ s.ChargesFees pnew := by
  rw [ChargesFees, ChargesFees, isFeatureActivated, params, (frame_executeTrade hexec).1]
  rfl

include h hfill

theorem Ready.feeTaken_executeTrade (hcharges : s.ChargesFees pnew) :
    FeeTaken pnew.desProperty (got.tdiv 2000) s s' := by
  obtain ⟨hmatch, -, -, -⟩ := MetaDEx.fill_eq_some hfill
  obtain ⟨m, hm, hexec⟩ := bind_eq_ok.mp hexec
  obtain ⟨m', hm', hexec⟩ := bind_eq_ok.mp hexec
  cases hexec
  rw [chargeFee_of_chargesFees hmatch hcharges] at hm
  have hfee := feeTaken_of_addFee (h.fees hcharges).upTo hm
  have hsame : m'.feeCache = m.feeCache := by rw [(posted_of_assertTallies hm').1]
  exact ⟨hsame ▸ hfee.thresholds, fun q hq => hsame ▸ hfee.other q hq, hsame ▸ hfee.cached⟩

theorem Ready.inRange_executeTrade : s'.ledger.InRange := by
  obtain ⟨m, hm, hexec⟩ := bind_eq_ok.mp hexec
  obtain ⟨m', hm', hexec⟩ := bind_eq_ok.mp hexec
  cases hexec
  have hrange := inRange_of_assertTallies (h.afterFee hfill hm).inRange hm'
  exact hrange

include hmem

theorem Ready.circulation_executeTrade :
    (∀ p, s'.ledger.circulation p ≤ int64Max) ∧
      (s.ChargesFees pnew → s'.CacheInOrder pnew.desProperty pnew.block) := by
  obtain ⟨hmatch, -, hgot, -⟩ := MetaDEx.fill_eq_some hfill
  obtain rfl := (h.book.place hmem).2
  by_cases hcharges : s.ChargesFees pnew
  · have hcache := h.fees hcharges
    have hgains (p : PropertyId) : Gains pnew.block p 0 s s' :=
      gains_of_trade (.execute hmem hfill hexec)
    have hfee := h.feeTaken_executeTrade hfill hexec hcharges
    have hcached : 0 ≤ s'.feeCache.getCachedAmount pnew.desProperty := by
      have hnonneg := Int.tdiv_nonneg hgot.le (by decide : (0 : Int) ≤ 2000)
      have hbefore := hcache.nonneg
      rcases hfee.cached with hzero | hsum <;> omega
    have hcap := hcache.capped
    refine ⟨fun p => ?_, fun _ => ⟨hcached, (hgains pnew.desProperty).upTo hcache.upTo, ?_⟩⟩
    · have hp := (hgains p).circulation_eq hcache.upTo
      have hbook := h.book.capped p
      rw [circulation, circulation, add_zero] at hp
      rcases eq_or_ne p pnew.desProperty with rfl | hne
      · rw [circulation] at hcap
        omega
      · rw [hfee.other p hne] at hp
        omega
    · rw [(hgains _).circulation_eq hcache.upTo, add_zero]
      exact hcap
  · refine ⟨fun p => ?_, fun hcharges' => absurd hcharges' hcharges⟩
    obtain ⟨m, hm, hexec⟩ := bind_eq_ok.mp hexec
    obtain ⟨m', hm', hexec⟩ := bind_eq_ok.mp hexec
    cases hexec
    rw [chargeFee_of_not_chargesFees hmatch hcharges] at hm
    cases hm
    rw [tradingFee_eq hmatch, if_neg hcharges, Option.getD_none] at hm'
    change m'.ledger.circulation p ≤ int64Max
    rw [(posted_of_assertTallies hm').2.circulation_eq, net_tradePostings hmatch]
    simp only [neg_zero, ite_self, add_zero]
    exact h.book.capped p

theorem Ready.bookInvariant_executeTrade : s'.BookInvariant := by
  obtain ⟨-, hwithin, hgot, -⟩ := MetaDEx.fill_eq_some hfill
  have hleft := hwithin.2.2.1
  have hlevel : ∀ {p r o}, o ∈ Book.level s'.metadex p r → o ∈ Book.level s.metadex p r ∨
      0 < pold.amountRemaining - got ∧ p = pnew.desProperty ∧ r = price ∧
        o = { pold with amountRemaining := pold.amountRemaining - got } := by
    intro p r o ho
    rcases (mem_level_executeTrade hexec).mp ho with ⟨ho, -⟩ | ho
    · exact .inl ho
    · exact .inr ho
  refine ⟨h.inRange_executeTrade hfill hexec, fun ho => ?_, fun ho => ?_, fun ho => ?_,
    fun ho => ?_, fun a p => ?_, (h.circulation_executeTrade hmem hfill hexec).1⟩
  · rcases hlevel ho with ho | ⟨hpos, -, -, rfl⟩
    · exact h.book.remaining ho
    · have hrest := h.book.remaining hmem
      exact ⟨hpos, by dsimp only; omega⟩
  · rcases hlevel ho with ho | ⟨-, -, -, rfl⟩
    · exact h.book.desired ho
    · exact h.book.desired (o := pold) hmem
  · rcases hlevel ho with ho | ⟨-, -, -, rfl⟩
    · exact h.book.le_max ho
    · exact h.book.le_max (o := pold) hmem
  · rcases hlevel ho with ho | ⟨-, rfl, rfl, rfl⟩
    · exact h.book.place ho
    · exact h.book.place (o := pold) hmem
  · rw [reserve_executeTrade hexec, total_executeTrade hexec hmem hleft]
    exact sub_le_sub_right (h.book.covered a p) _

theorem Ready.executeTrade :
    s'.Ready { pnew with amountRemaining := pnew.amountRemaining - paid } := by
  obtain ⟨-, hwithin, -, -⟩ := MetaDEx.fill_eq_some hfill
  have hbalance := balance_executeTrade hfill hexec h.distinct
  refine ⟨h.bookInvariant_executeTrade hmem hfill hexec, hwithin.2.2.2, h.sale, h.desired,
    h.distinct, ?_, ?_, fun hcharges => ?_⟩
  · exact (sub_le_sub_right h.funds paid).trans hbalance
  · rw [(frame_executeTrade hexec).2]
    exact h.unfrozen
  · exact (h.circulation_executeTrade hmem hfill hexec).2
      ((chargesFees_executeTrade hexec).mp hcharges)

theorem Ready.cached_executeTrade (hpay : ¬ s.FeeStuck pnew got) (hcharges : s.ChargesFees pnew)
    (hnone : ¬ s.HasFeeReceiver pnew.desProperty) :
    s'.feeCache.getCachedAmount pnew.desProperty =
      s.feeCache.getCachedAmount pnew.desProperty + got.tdiv 2000 := by
  obtain ⟨m, hm, hexec⟩ := bind_eq_ok.mp hexec
  obtain ⟨m', hm', hexec⟩ := bind_eq_ok.mp hexec
  cases hexec
  obtain ⟨n, hn, hcached⟩ := h.exists_chargeFee hmem hfill hpay
  rw [hm] at hn
  cases hn
  have hsame : m'.feeCache = m.feeCache := by rw [(posted_of_assertTallies hm').1]
  change m'.feeCache.getCachedAmount pnew.desProperty = _
  rw [hsame]
  exact hcached hcharges hnone

end Step

end NodeState

end TradeLayer
