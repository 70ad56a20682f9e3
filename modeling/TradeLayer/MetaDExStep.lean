import TradeLayer.BookInvariant
import TradeLayer.FeeDistribution
import TradeLayer.MetaDExAmounts

namespace TradeLayer
open Library

namespace NodeState

variable {s s' m : NodeState} {env : Environment} {pnew pold : MetaDEx} {price : ℚ}
variable {p q : PropertyId} {block fee got paid : Int}

def ChargesFees (s : NodeState) (pnew : MetaDEx) : Prop :=
  s.isFeatureActivated .fees pnew.block = true ∧ tlPropertyTmsc < pnew.desProperty ∧
    tlPropertyTmsc < pnew.property

instance (s : NodeState) (pnew : MetaDEx) : Decidable (s.ChargesFees pnew) :=
  inferInstanceAs (Decidable (_ ∧ _ ∧ _))

theorem tradingFee_eq (h : pnew.Matches pold) : s.tradingFee pnew pold got =
    if s.ChargesFees pnew then some (got.tdiv 2000) else none := by
  rw [tradingFee, ← h.2.2.2.1, h.2.2.2.2.1]
  rfl

/-- The fee cache owes nothing and has no entry from a later block, and the tokens of a property
fit a signed variable together with those in the cache. -/
structure CacheInOrder (s : NodeState) (p : PropertyId) (block : Int) : Prop where
  nonneg : 0 ≤ s.feeCache.getCachedAmount p
  upTo : s.feeCache.UpTo block
  capped : s.circulation p ≤ int64Max

section Fees

theorem addFee_eq (hu : s.feeCache.UpTo block)
    (hin : InInt64 (s.feeCache.getCachedAmount p + fee)) : s.addFee env p block fee =
      if s.feeCache.getDistributionThreshold p ≤ s.feeCache.getCachedAmount p + fee then
        (s.putCachedAmount env p block (s.feeCache.getCachedAmount p + fee)).distributeCache env p
          block
      else .ok (s.putCachedAmount env p block (s.feeCache.getCachedAmount p + fee)) := by
  have hcached : (s.putCachedAmount env p block (s.feeCache.getCachedAmount p +
      fee)).feeCache.getCachedAmount p = s.feeCache.getCachedAmount p + fee := by
    rw [getCachedAmount_putCachedAmount hu, if_pos rfl]
  rw [addFee, checked64_eq_ok.mpr ⟨rfl, hin⟩, ok_bind, evalCache, hcached]
  rfl

structure FeeTaken (p : PropertyId) (fee : Int) (s s' : NodeState) : Prop where
  thresholds : s'.feeCache.distributionThresholds = s.feeCache.distributionThresholds
  other : ∀ q, q ≠ p → s'.feeCache.getCachedAmount q = s.feeCache.getCachedAmount q
  cached : s'.feeCache.getCachedAmount p = 0 ∨
    s'.feeCache.getCachedAmount p = s.feeCache.getCachedAmount p + fee

theorem feeTaken_of_putCachedAmount (hu : s.feeCache.UpTo block) :
    FeeTaken p fee s (s.putCachedAmount env p block (s.feeCache.getCachedAmount p + fee)) := by
  refine ⟨rfl, fun q hq => ?_, .inr ?_⟩
  · rw [getCachedAmount_putCachedAmount hu, if_neg hq]
  · rw [getCachedAmount_putCachedAmount hu, if_pos rfl]

theorem feeTaken_of_addFee (hu : s.feeCache.UpTo block)
    (h : s.addFee env p block fee = .ok s') : FeeTaken p fee s s' := by
  have hin : InInt64 (s.feeCache.getCachedAmount p + fee) := by
    obtain ⟨n, hn, -⟩ := bind_eq_ok.mp h
    exact (checked64_eq_ok.mp hn).2
  have hput : FeeTaken p fee s (s.putCachedAmount env p block
    (s.feeCache.getCachedAmount p + fee)) := feeTaken_of_putCachedAmount hu
  rw [addFee_eq hu hin] at h
  split_ifs at h
  · obtain ⟨receivers, m, -, -, hm, rfl⟩ := distributeCache_cases h
    have hm' : m.feeCache = s.feeCache.putAmount env.mscDebugFees p block
        (s.feeCache.getCachedAmount p + fee) := by
      rw [hm.1]
      rfl
    have hum : m.feeCache.UpTo block := hm' ▸ hu.putAmount
    refine ⟨?_, fun q hq => ?_, .inl ?_⟩
    · rw [clearCache, putCachedAmount, hm']
      rfl
    · rw [clearCache, getCachedAmount_putCachedAmount hum, if_neg hq, hm']
      exact hput.other q hq
    · rw [clearCache, getCachedAmount_putCachedAmount hum, if_pos rfl]
  · cases h
    exact hput

theorem inRange_of_addFee (hl : s.ledger.InRange) (h : s.addFee env p block fee = .ok s') :
    s'.ledger.InRange := by
  obtain ⟨n, -, h⟩ := bind_eq_ok.mp h
  unfold evalCache at h
  split_ifs at h
  · simp only [distributeCache, bind_eq_ok] at h
    obtain ⟨receivers, -, m, hm, h⟩ := h
    split_ifs at h
    cases h
    have hrange : m.ledger.InRange :=
      inRange_of_assertTallies (s := s.putCachedAmount env p block n) hl hm
    exact hrange
  · cases h
    exact hl

/-- A fee is due for distribution with nobody to receive it. -/
def Stuck (s : NodeState) (p : PropertyId) (cached : Int) : Prop :=
  ¬ s.HasFeeReceiver p ∧ cached ≠ 0 ∧ s.feeCache.getDistributionThreshold p ≤ cached

variable (hl : s.ledger.InRange) (hcache : s.CacheInOrder p block) (hfee : 0 ≤ fee)
  (hroom : ∀ a, s.ledger.money a p .balance + (s.feeCache.getCachedAmount p + fee) ≤ int64Max)

include hl hcache hfee hroom

theorem inInt64_cached : InInt64 (s.feeCache.getCachedAmount p + fee) := by
  have hbalance := (hl [] p .balance (by decide)).1
  have hfits := hroom []
  have hcached := hcache.nonneg
  exact ⟨le_trans (by decide) (add_nonneg hcached hfee), by omega⟩

variable (hcap : s.ledger.circulation (feeShareProperty p) ≤ int64Max)

include hcap

theorem exists_addFee (hpay : ¬ s.Stuck p (s.feeCache.getCachedAmount p + fee)) :
    ∃ s', s.addFee env p block fee = .ok s' ∧ (¬ s.HasFeeReceiver p →
      s'.feeCache.getCachedAmount p = s.feeCache.getCachedAmount p + fee) := by
  have hu := hcache.upTo
  have hin := inInt64_cached hl hcache hfee hroom
  have hcached : (s.putCachedAmount env p block (s.feeCache.getCachedAmount p +
      fee)).feeCache.getCachedAmount p = s.feeCache.getCachedAmount p + fee := by
    rw [getCachedAmount_putCachedAmount hu, if_pos rfl]
  rw [addFee_eq hu hin]
  by_cases hdue : s.feeCache.getDistributionThreshold p ≤ s.feeCache.getCachedAmount p + fee
  · rw [if_pos hdue]
    by_cases hreceiver : s.HasFeeReceiver p
    · obtain ⟨s', hs'⟩ : ∃ s', (s.putCachedAmount env p block
          (s.feeCache.getCachedAmount p + fee)).distributeCache env p block = .ok s' := by
        refine exists_distributeCache hl hcap ?_ (fun a => ?_) hreceiver
        · rw [hcached]
          exact add_nonneg hcache.nonneg hfee
        · rw [hcached]
          exact hroom a
      exact ⟨s', hs', fun hnone => absurd hreceiver hnone⟩
    · have hzero : s.feeCache.getCachedAmount p + fee = 0 := by
        by_contra hne
        exact hpay ⟨hreceiver, hne, hdue⟩
      rw [distributeCache_of_not_hasFeeReceiver (s := s.putCachedAmount env p block _) hl hcap
        hreceiver, hcached, if_pos hzero]
      refine ⟨_, rfl, fun _ => ?_⟩
      rw [clearCache, getCachedAmount_putCachedAmount hu.putAmount, if_pos rfl, hzero]
  · rw [if_neg hdue]
    exact ⟨_, rfl, fun _ => hcached⟩

theorem addFee_of_stuck (hstuck : s.Stuck p (s.feeCache.getCachedAmount p + fee)) :
    s.addFee env p block fee = .error .assertion := by
  have hu := hcache.upTo
  obtain ⟨hnone, hne, hdue⟩ := hstuck
  have hcached : (s.putCachedAmount env p block (s.feeCache.getCachedAmount p +
      fee)).feeCache.getCachedAmount p = s.feeCache.getCachedAmount p + fee := by
    rw [getCachedAmount_putCachedAmount hu, if_pos rfl]
  rw [addFee_eq hu (inInt64_cached hl hcache hfee hroom), if_pos hdue,
    distributeCache_of_not_hasFeeReceiver (s := s.putCachedAmount env p block _) hl hcap hnone,
    hcached, if_neg hne]

end Fees

/-- The postings of a match go through where the buyer has what it pays, free to spend, the
seller has reserved what it sells, and both have room for what they get. A seller that is the
buyer gets back what it pays. -/
theorem covers_tradePostings (hl : s.ledger.InRange) (hm : pnew.Matches pold)
    (hfree : s.ledger.freeze.isAddressFrozen pnew.addr pnew.property = false) (hpaid : 0 < paid)
    (hfunds : paid ≤ s.ledger.money pnew.addr pnew.property .balance)
    (hseller : pnew.addr ≠ pold.addr →
      s.ledger.money pold.addr pnew.property .balance + paid ≤ int64Max)
    (hsold : got ≤ s.ledger.money pold.addr pnew.desProperty .metadexReserve)
    (hfee : 0 ≤ fee) (hgot : fee < got)
    (hbuyer : s.ledger.money pnew.addr pnew.desProperty .balance + (got - fee) ≤ int64Max) :
    s.ledger.Covers (tradePostings pnew pold got paid fee) := by
  obtain ⟨-, -, hne, hdes, hprop, -, -⟩ := hm
  have hsplit : tradePostings pnew pold got paid fee =
      Posting.transfer ⟨pnew.addr, pnew.property, .balance⟩
        ⟨pold.addr, pnew.property, .balance⟩ paid ++
      [⟨⟨pold.addr, pnew.desProperty, .metadexReserve⟩, -got⟩,
        ⟨⟨pnew.addr, pnew.desProperty, .balance⟩, got - fee⟩] := by
    rw [tradePostings, ← hdes, hprop]
    rfl
  have hspend : ¬ s.ledger.DebitsFrozen pnew.addr pnew.property (-paid) .balance :=
    fun hd => by simpa [hfree] using hd.2.2
  rw [hsplit]
  apply Ledger.covers_append
  · rcases eq_or_ne pnew.addr pold.addr with hself | hother
    · rw [← hself]
      exact Ledger.covers_transfer_self hl hpaid (by simp) hspend hfunds
    · refine (Ledger.covers_transfer hl ?_ hpaid (by simp) (by simp)).mpr
        ⟨hspend, hfunds, hseller hother⟩
      exact fun heq => hother (congrArg Account.owner heq)
  · have hsells := hl pold.addr pnew.desProperty .metadexReserve (by decide)
    have hbuys := hl pnew.addr pnew.desProperty .balance (by decide)
    refine Ledger.covers_of_distinct (List.pairwise_pair.mpr (by simp)) ?_
    simp only [List.forall_mem_cons, List.not_mem_nil, false_imp_iff, implies_true, and_true]
    constructor
    · refine Ledger.fits_of_reserve (by simp) (by dsimp only; omega) ?_ ?_
      · simp only [Ledger.amountAt]
        omega
      · simp only [Ledger.amountAt]
        omega
    · refine ⟨by dsimp only; omega, fun hd => absurd hd.2.1 (by dsimp only; omega), ?_, ?_⟩
      · simp only [Ledger.amountAt, Posting.net_nil]
        omega
      · simp only [Ledger.amountAt, Posting.net_nil]
        omega
  · simp [Posting.transfer, hne]

theorem chargeFee_cases (hm : pnew.Matches pold)
    (h : s.chargeFee env pnew (s.tradingFee pnew pold got) = .ok m) :
    ¬ s.ChargesFees pnew ∧ (s.tradingFee pnew pold got).getD 0 = 0 ∧ m = s ∨
      s.ChargesFees pnew ∧ (s.tradingFee pnew pold got).getD 0 = got.tdiv 2000 ∧
        s.addFee env pnew.desProperty pnew.block (got.tdiv 2000) = .ok m := by
  rw [tradingFee_eq hm] at h ⊢
  split_ifs at h ⊢ with hcharges
  · exact .inr ⟨hcharges, rfl, h⟩
  · cases h
    exact .inl ⟨hcharges, rfl, rfl⟩

theorem chargeFee_of_not_chargesFees (hm : pnew.Matches pold) (h : ¬ s.ChargesFees pnew) :
    s.chargeFee env pnew (s.tradingFee pnew pold got) = .ok s := by
  rw [tradingFee_eq hm, if_neg h]
  rfl

theorem chargeFee_of_chargesFees (hm : pnew.Matches pold) (h : s.ChargesFees pnew) :
    s.chargeFee env pnew (s.tradingFee pnew pold got) =
      s.addFee env pnew.desProperty pnew.block (got.tdiv 2000) := by
  rw [tradingFee_eq hm, if_pos h]
  rfl

section Kept

variable (hfill : MetaDEx.fill pnew pold = .ok (some (got, paid)))
  (hexec : s.executeTrade env price pnew pold got paid = .ok s')

include hexec

theorem frame_executeTrade :
    s'.features = s.features ∧ s'.ledger.freeze = s.ledger.freeze := by
  obtain ⟨fee, m, m', hm, hm', rfl⟩ := executeTrade_cases hexec
  have hfee : m.features = s.features ∧ m.ledger.freeze = s.ledger.freeze := by
    rcases hm with ⟨-, rfl⟩ | hm
    · exact ⟨rfl, rfl⟩
    · have hpaid := paidOut_of_addFee hm
      obtain ⟨ps, hps, -⟩ := hpaid.posted
      refine ⟨?_, hps.freeze_eq⟩
      rw [hpaid.frame]
  refine ⟨?_, hm'.2.freeze_eq.trans hfee.2⟩
  change m'.features = _
  rw [hm'.1]
  exact hfee.1

include hfill

theorem money_executeTrade_of_ne {a : Address} {t : TallyType} (hp : p ≠ pnew.property)
    (hq : p ≠ pnew.desProperty) : s'.ledger.money a p t = s.ledger.money a p t := by
  obtain ⟨⟨-, -, -, hdes, hprop, -, -⟩, -, -, -⟩ := MetaDEx.fill_eq_some hfill
  obtain ⟨fee, m, m', hm, hm', rfl⟩ := executeTrade_cases hexec
  have hfee : m.ledger.money a p t = s.ledger.money a p t := by
    rcases hm with ⟨-, rfl⟩ | hm
    · rfl
    · exact (paidOut_of_addFee hm).money_eq (.inl hq)
  change m'.ledger.money a p t = _
  rw [hm'.2.money_eq, hfee, tradePostings, ← hdes, hprop]
  simp [Ne.symm hp, Ne.symm hq]

theorem balance_executeTrade (hne : pnew.property ≠ pnew.desProperty) :
    s.ledger.money pnew.addr pnew.property .balance - paid ≤
      s'.ledger.money pnew.addr pnew.property .balance := by
  obtain ⟨⟨-, -, -, hdes, hprop, -, -⟩, -, -, hpaid⟩ := MetaDEx.fill_eq_some hfill
  obtain ⟨fee, m, m', hm, hm', rfl⟩ := executeTrade_cases hexec
  have hfee : m.ledger.money pnew.addr pnew.property .balance =
      s.ledger.money pnew.addr pnew.property .balance := by
    rcases hm with ⟨-, rfl⟩ | hm
    · rfl
    · exact (paidOut_of_addFee hm).money_eq (.inl hne)
  change _ ≤ m'.ledger.money pnew.addr pnew.property .balance
  rw [hm'.2.money_eq, hfee, tradePostings, ← hdes, hprop]
  simp only [Posting.net_cons, Posting.net_nil, Account.mk.injEq, reduceCtorEq, and_false,
    and_true, if_false, if_true, hne.symm]
  split_ifs <;> omega

theorem hasFeeReceiver_executeTrade (hcharges : s.ChargesFees pnew) :
    s'.HasFeeReceiver pnew.desProperty ↔ s.HasFeeReceiver pnew.desProperty := by
  have hbase : feeShareProperty pnew.desProperty ≤ tlPropertyTmsc := by
    rw [feeShareProperty]
    split_ifs <;> decide
  have hmoney : ∀ a t, s'.ledger.money a (feeShareProperty pnew.desProperty) t =
      s.ledger.money a (feeShareProperty pnew.desProperty) t := fun a t =>
    money_executeTrade_of_ne hfill hexec (hbase.trans_lt hcharges.2.2).ne
      (hbase.trans_lt hcharges.2.1).ne
  simp only [HasFeeReceiver, Ledger.HasHolder, hmoney]

end Kept

end NodeState

end TradeLayer
