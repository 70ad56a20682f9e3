import TradeLayer.MetaDExStep

namespace TradeLayer
open Library

namespace NodeState

variable {s s' m : NodeState} {env : Environment} {p q : PropertyId}
variable {block gain gain' rc amount : Int} {ps : List (Posting Account)}

/-- A property that its issuer manages: tokens are granted and revoked, none are fixed at its
creation. -/
def IsManaged (s : NodeState) (p : PropertyId) : Prop :=
  ∃ sp, s.spInfo.getSP p = some sp ∧ sp.manual = true ∧ sp.fixed = false

/-- What a step at a block does to the tokens of a property: some come into circulation, and
nothing enters or leaves the tallies that are not counted there. -/
structure Gains (block : Int) (p : PropertyId) (gain : Int) (s s' : NodeState) : Prop where
  isManaged : s.IsManaged p → s'.IsManaged p
  nonneg : s.ledger.Nonneg → s'.ledger.Nonneg
  outside : ∀ t, t ∉ circulatingTallies → s'.ledger.supply p t = s.ledger.supply p t
  upTo : s.feeCache.UpTo block → s'.feeCache.UpTo block
  cached : s.feeCache.UpTo block → 0 ≤ s.feeCache.getCachedAmount p →
    0 ≤ s'.feeCache.getCachedAmount p
  circulation_eq : s.feeCache.UpTo block → s'.circulation p = s.circulation p + gain

namespace Gains

theorem refl : Gains block p 0 s s :=
  ⟨id, id, fun _ _ => rfl, id, fun _ => id, fun _ => (add_zero _).symm⟩

theorem trans (h : Gains block p gain s m) (h' : Gains block p gain' m s') :
    Gains block p (gain + gain') s s' where
  isManaged hs := h'.isManaged (h.isManaged hs)
  nonneg hs := h'.nonneg (h.nonneg hs)
  outside t ht := (h'.outside t ht).trans (h.outside t ht)
  upTo hs := h'.upTo (h.upTo hs)
  cached hs hc := h'.cached (h.upTo hs) (h.cached hs hc)
  circulation_eq hs := by
    rw [h'.circulation_eq (h.upTo hs), h.circulation_eq hs]
    ring

theorem keep (h : Gains block p gain s m) (h' : Gains block p 0 m s') :
    Gains block p gain s s' := by
  simpa using h.trans h'

theorem of_posted (h : s.ledger.Posted ps s'.ledger)
    (hin : ∀ x ∈ ps, x.account.property = p → x.account.ttype ∈ circulatingTallies)
    (hcache : s'.feeCache = s.feeCache) (hsp : s'.spInfo = s.spInfo) :
    Gains block p (Posting.net (Account.Circulating p) ps) s s' where
  isManaged hs := by
    rw [IsManaged, hsp]
    exact hs
  nonneg := h.nonneg
  outside t ht := by
    rw [h.supply_eq, Posting.net_eq_zero, add_zero]
    rintro x hx ⟨hp, rfl⟩
    exact ht (hin x hx hp)
  upTo hs := hcache ▸ hs
  cached _ hc := hcache ▸ hc
  circulation_eq _ := by
    rw [circulation, circulation, h.circulation_eq, hcache]
    ring

theorem of_moves (h : s.ledger.Posted ps s'.ledger) (hm : Moves ps)
    (hcache : s'.feeCache = s.feeCache) (hsp : s'.spInfo = s.spInfo) : Gains block p 0 s s' := by
  rw [← hm.balanced p]
  exact of_posted h (fun x hx _ => hm.inside x hx) hcache hsp

theorem of_others (h : s.ledger.Posted ps s'.ledger) (hp : ∀ x ∈ ps, x.account.property ≠ p)
    (hcache : s'.feeCache = s.feeCache) (hsp : s'.spInfo = s.spInfo) : Gains block p 0 s s' := by
  have hzero : Posting.net (Account.Circulating p) ps = 0 :=
    Posting.net_eq_zero fun x hx hc => hp x hx hc.1
  rw [← hzero]
  exact of_posted h (fun x hx heq => absurd heq (hp x hx)) hcache hsp

theorem of_state_moves (h : s.Posted ps s') (hm : Moves ps) : Gains block p 0 s s' :=
  of_moves h.2 hm (by rw [h.1]) (by rw [h.1])

theorem of_dexTransfers (h : DexTransfers s s') : Gains block p 0 s s' := by
  obtain ⟨ps, hp, hm⟩ := h.posted
  exact of_moves hp hm (by rw [h.frame]) (by rw [h.frame])

theorem of_rejected (h : Rejected rc s s') : Gains block p 0 s s' := by
  obtain ⟨-, rfl⟩ := h
  exact .refl

theorem of_paidOut {lost : PropertyId → Int} (h : PaidOut q s s')
    (hcirculates : Circulates block lost s s')
    (hcached : s.feeCache.UpTo block → 0 ≤ s.feeCache.getCachedAmount p →
      0 ≤ s'.feeCache.getCachedAmount p) : Gains block p (-lost p) s s' := by
  obtain ⟨ps, hps, hbalance⟩ := h.posted
  refine ⟨?_, hps.nonneg, ?_, hcirculates.upTo, hcached, fun hs => ?_⟩
  · rw [IsManaged, IsManaged, h.frame]
    exact id
  · intro t ht
    rw [hps.supply_eq, Posting.net_eq_zero, add_zero]
    rintro x hx ⟨-, rfl⟩
    rw [(hbalance x hx).2.1] at ht
    exact ht (by decide)
  · exact hcirculates.circulation_eq hs p

end Gains

section FeeCache

theorem cached_of_evalCache (hu : s.feeCache.UpTo block) (h : s.evalCache env q block = .ok s')
    (hc : 0 ≤ s.feeCache.getCachedAmount p) : 0 ≤ s'.feeCache.getCachedAmount p := by
  unfold evalCache at h
  split_ifs at h
  · obtain ⟨receivers, m, -, -, hm, rfl⟩ := distributeCache_cases h
    have hcache : m.feeCache = s.feeCache := by rw [hm.1]
    rw [clearCache, getCachedAmount_putCachedAmount (hcache ▸ hu), hcache]
    split_ifs
    · exact le_refl 0
    · exact hc
  · cases h
    exact hc

theorem gains_of_notifyTotalTokensChanged
    (h : s.notifyTotalTokensChanged env q block = .ok s') : Gains block p 0 s s' := by
  refine .of_paidOut (paidOut_of_notifyTotalTokensChanged h)
    (circulates_of_notifyTotalTokensChanged h) fun hu hc => ?_
  simp only [notifyTotalTokensChanged, updateDistributionThresholds, bind_eq_ok] at h
  obtain ⟨m, ⟨n, -, hm⟩, h⟩ := h
  cases hm
  exact cached_of_evalCache (s := s.setDistributionThreshold q _) hu h hc

theorem gains_of_addFee (hamount : 0 ≤ amount) (h : s.addFee env q block amount = .ok s') :
    Gains block p (if p = q then amount else 0) s s' := by
  have hgains : Gains block p (-if p = q then -amount else 0) s s' := by
    refine .of_paidOut (paidOut_of_addFee h) (circulates_of_addFee h) fun hu hc => ?_
    obtain ⟨n, hn, h⟩ := bind_eq_ok.mp h
    obtain ⟨rfl, -⟩ := checked64_eq_ok.mp hn
    refine cached_of_evalCache hu.putAmount h ?_
    rw [getCachedAmount_putCachedAmount hu]
    split_ifs with hpq
    · rw [← hpq]
      exact add_nonneg hc hamount
    · exact hc
  convert hgains using 1
  split_ifs <;> simp

end FeeCache

section MetaDEx

theorem gains_of_chargeFee {pnew pold : MetaDEx} {got : Int} (hmatches : pnew.Matches pold)
    (hgot : 0 < got) (h : s.chargeFee env pnew (s.tradingFee pnew pold got) = .ok s') :
    Gains pnew.block p (if p = pnew.desProperty then (s.tradingFee pnew pold got).getD 0 else 0)
      s s' := by
  rcases chargeFee_cases hmatches h with ⟨-, hzero, rfl⟩ | ⟨-, hfee, h⟩
  · rw [hzero, ite_self]
    exact .refl
  · rw [hfee]
    exact gains_of_addFee (Int.tdiv_nonneg hgot.le (by decide)) h

theorem gains_of_trade {x y : MetaDEx × NodeState} (h : Trade env x y) :
    Gains x.1.block p 0 x.2 y.2 := by
  cases h with
  | @execute s s' pnew pold got paid hmem hfill hexec =>
    obtain ⟨hmatches, -, hgot, -⟩ := MetaDEx.fill_eq_some hfill
    obtain ⟨m, hm, hexec⟩ := bind_eq_ok.mp hexec
    obtain ⟨m', hm', hexec⟩ := bind_eq_ok.mp hexec
    cases hexec
    have hp := posted_of_assertTallies hm'
    have hfee := gains_of_chargeFee (p := p) hmatches hgot hm
    have hpay : Gains pnew.block p (if p = pnew.desProperty then
        -(s.tradingFee pnew pold got).getD 0 else 0) m (m'.replaceOrder pold.unitPrice
          pnew.desProperty pold (pold.amountRemaining - got)) := by
      rw [← net_tradePostings hmatches]
      refine .of_posted hp.2 (fun x hx _ => ?_) (by rw [replaceOrder, hp.1]) (by
        rw [replaceOrder, hp.1])
      simp only [tradePostings, List.mem_cons, List.not_mem_nil, or_false] at hx
      rcases hx with rfl | rfl | rfl | rfl <;> simp [circulatingTallies]
    convert hfee.trans hpay using 1
    split_ifs <;> simp

theorem gains_of_trades {x y : MetaDEx × NodeState} (h : Trades env x y) :
    Gains x.1.block p 0 x.2 y.2 := by
  induction h with
  | refl => exact .refl
  | tail hrun ht ih =>
    have hstep := gains_of_trade (p := p) ht
    rw [(incoming_of_trades hrun).1] at hstep
    exact ih.keep hstep

theorem gains_of_metaDExAdd {a : Address} {r : PropertyId} {n d : Int} {txid idx : Nat}
    (h : s.metaDExAdd env a q n block r d txid idx = .ok (rc, s')) : Gains block p 0 s s' := by
  rcases metaDExAdd_cases h with ⟨-, rfl⟩ | ⟨o, m, ht, h⟩
  · exact .refl
  · have htrades : Gains block p 0 s m := gains_of_trades ht
    rcases h with ⟨-, -, -, rfl⟩ | ⟨-, -, -, hp⟩ | ⟨-, -, rfl⟩
    · exact htrades
    · refine htrades.keep (.of_moves (s := m) hp.2 (.transfer (by decide) (by decide)) ?_ ?_)
      · rw [hp.1]
      · rw [hp.1]
    · exact htrades

theorem gains_of_cancels (h : Cancels s s') : Gains block p 0 s s' := by
  induction h with
  | refl => exact .refl
  | tail _ hc ih =>
    cases hc with
    | remove hmem h =>
      obtain ⟨m, hm, rfl⟩ := cancelOrder_cases h
      refine ih.keep (.of_moves hm.2 (.transfer (by decide) (by decide)) ?_ ?_)
      · rw [hm.1]
      · rw [hm.1]

theorem gains_of_cancel (h : rc < 0 ∧ s' = s ∨ rc = 0 ∧ Cancels s s') : Gains block p 0 s s' := by
  rcases h with ⟨-, rfl⟩ | ⟨-, hc⟩
  · exact .refl
  · exact gains_of_cancels hc

end MetaDEx

end NodeState

end TradeLayer
