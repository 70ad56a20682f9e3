import TradeLayer.Crash
import TradeLayer.StoReceivers

namespace TradeLayer
open Library

namespace NodeState

variable {s s' : NodeState} {env : Environment} {p : PropertyId} {block : Int}

def feeShareProperty (p : PropertyId) : PropertyId :=
  if isTestEcosystemProperty p then tlPropertyTmsc else tlPropertyMsc

def HasFeeReceiver (s : NodeState) (p : PropertyId) : Prop :=
  s.ledger.HasHolder feeDistribution (feeShareProperty p)

theorem pairwise_credits {receivers : OwnerAddrType} (h : Shares receivers.toList) :
    (credits p receivers).Pairwise fun x y => x.account ≠ y.account := by
  rw [credits, List.pairwise_map, List.pairwise_reverse]
  have hnodup := h.nodup
  rw [List.nodup_iff_pairwise_ne, List.pairwise_map] at hnodup
  refine hnodup.imp fun hne heq => ?_
  exact hne (congrArg Account.owner heq).symm

variable (hl : s.ledger.InRange) (hcap : s.ledger.circulation (feeShareProperty p) ≤ int64Max)

include hl hcap

/-- Where somebody can receive fees and has room for them, the distribution goes through. -/
theorem exists_distributeCache (hcached : 0 ≤ s.feeCache.getCachedAmount p)
    (hroom : ∀ a, s.ledger.money a p .balance + s.feeCache.getCachedAmount p ≤ int64Max)
    (hreceiver : s.HasFeeReceiver p) :
    ∃ s', s.distributeCache env p block = .ok s' := by
  have hmax : s.feeCache.getCachedAmount p ≤ int64Max := by
    have hbalance := (hl [] p .balance (by decide)).1
    have hfits := hroom []
    omega
  obtain ⟨receivers, hshares, htotal, hrun⟩ := exists_stoGetReceivers hl hcap hcached hmax
    hreceiver
  have hcovers : s.ledger.Covers (credits p receivers) := by
    refine Ledger.covers_of_distinct (pairwise_credits hshares) fun x hx => ?_
    simp only [credits, List.mem_map, List.mem_reverse] at hx
    obtain ⟨r, hr, rfl⟩ := hx
    have hpos := hshares.pos r hr
    have hle := hshares.le_total hr
    have hbalance := (hl r.2 p .balance (by decide)).1
    have hfits := hroom r.2
    refine ⟨hpos.ne', fun hd => absurd hd.2.1 hpos.not_gt, ?_, ?_⟩
    · simp only [Ledger.amountAt, Posting.net_nil]
      omega
    · simp only [Ledger.amountAt, Posting.net_nil]
      omega
  have hplain : Ledger.Plain (credits p receivers) := by
    intro x hx
    simp only [credits, List.mem_map, List.mem_reverse] at hx
    obtain ⟨r, -, rfl⟩ := hx
    exact ⟨by simp, by simp⟩
  obtain ⟨m, hm⟩ := exists_assertTallies hl hcovers hplain
  refine ⟨m.clearCache env p block, ?_⟩
  rw [distributeCache, ← feeShareProperty, hrun, ok_bind, hm, ok_bind, if_pos htotal]

theorem distributeCache_of_not_hasFeeReceiver (hnone : ¬ s.HasFeeReceiver p) :
    s.distributeCache env p block = if s.feeCache.getCachedAmount p = 0 then
      .ok (s.clearCache env p block) else .error .assertion := by
  rw [distributeCache, ← feeShareProperty, stoGetReceivers_of_not_hasHolder hl hcap hnone, ok_bind]
  change (if (0 : Int) = _ then _ else _) = _
  simp only [eq_comm]

end NodeState

end TradeLayer
