import TradeLayer.Sto

namespace TradeLayer
open Library

def maxStateHistory : Int := 50
def tlFeeThreshold : Int := 100000

/-- The sender named when the receivers of a fee distribution are looked up. -/
def feeDistribution : Address :=
  ['F', 'E', 'E', 'D', 'I', 'S', 'T', 'R', 'I', 'B', 'U', 'T', 'I', 'O', 'N']

namespace CacheHistory

variable {h : CacheHistory} {block amount b : Int}

def lastAmount (h : CacheHistory) : Int :=
  (h.toList.getLast?.map Prod.snd).getD 0

def write (h : CacheHistory) (block amount : Int) : CacheHistory :=
  (h.filter fun e => e.1 ≠ block).insert (block, amount)

def prune (h : CacheHistory) (mscDebugFees : Bool) (block : Int) : CacheHistory :=
  let pruneBlock := block - maxStateHistory
  match h.toList.head?, h.toList.getLast? with
  | some firstItem, some mostRecentItem =>
    if pruneBlock ≤ firstItem.1 then h
    else
      -- matured entries are discarded only while fees are being debugged
      let kept := h.filter fun e => !(decide (e.1 < pruneBlock) && mscDebugFees)
      if kept.toList = [] then Keyed.insert ∅ mostRecentItem else kept
  | _, _ => h

def UpTo (h : CacheHistory) (block : Int) : Prop :=
  ∀ e ∈ h, e.1 ≤ block

theorem UpTo.mono (hu : h.UpTo b) (hb : b ≤ block) : h.UpTo block :=
  fun e he => (hu e he).trans hb

theorem getLast?_eq_some {x : Int × Int} : h.toList.getLast? = some x ↔
    x ∈ h ∧ ∀ e ∈ h, toLex e ≤ toLex x := by
  constructor
  · intro hx
    obtain ⟨l, hl⟩ := List.getLast?_eq_some_iff.mp hx
    refine ⟨List.mem_of_getLast? hx, fun e he => ?_⟩
    have hs := h.sorted
    rw [hl, List.pairwise_append] at hs
    rw [Keyed.mem_def, hl, List.mem_append] at he
    rcases he with he | he
    · exact (hs.2.2 e he x List.mem_cons_self).le
    · rw [List.mem_singleton.mp he]
  · rintro ⟨hx, hmax⟩
    cases hl : h.toList.getLast? with
    | none =>
      rw [List.getLast?_eq_none_iff] at hl
      rw [Keyed.mem_def, hl] at hx
      cases hx
    | some y =>
      have hy : y ∈ h := List.mem_of_getLast? hl
      obtain ⟨l, hl⟩ := List.getLast?_eq_some_iff.mp hl
      have hs := h.sorted
      rw [hl, List.pairwise_append] at hs
      rw [Keyed.mem_def, hl, List.mem_append] at hx
      rcases hx with hx | hx
      · exact absurd (hs.2.2 x hx y List.mem_cons_self) (not_lt.mpr (hmax y hy))
      · rw [List.mem_singleton.mp hx]

theorem lastAmount_write (hu : h.UpTo block) : (h.write block amount).lastAmount = amount := by
  have hlast : (h.write block amount).toList.getLast? = some (block, amount) := by
    rw [getLast?_eq_some]
    refine ⟨Keyed.mem_insert_self toLex.injective, fun e he => ?_⟩
    rcases Keyed.mem_insert.mp he with he | ⟨rfl, -⟩
    · obtain ⟨he, hne⟩ := Keyed.mem_filter.mp he
      have hlt : e.1 < block := lt_of_le_of_ne (hu e he) (by simpa using hne)
      exact (Prod.Lex.lt_iff.mpr (.inl hlt)).le
    · exact le_refl _
  simp [lastAmount, hlast]

theorem UpTo.write (hu : h.UpTo block) : (h.write block amount).UpTo block := by
  intro e he
  rcases Keyed.mem_insert.mp he with he | ⟨rfl, -⟩
  · exact hu e (Keyed.mem_filter.mp he).1
  · exact le_refl _

theorem mem_of_mem_prune {debug : Bool} {e : Int × Int} (he : e ∈ h.prune debug block) : e ∈ h := by
  unfold prune at he
  split at he
  case h_1 firstItem mostRecentItem hf hm =>
    dsimp only at he
    split_ifs at he
    · exact he
    · rcases Keyed.mem_insert.mp he with he | ⟨rfl, -⟩
      · simp at he
      · exact List.mem_of_getLast? hm
    · exact (Keyed.mem_filter.mp he).1
  case h_2 => exact he

theorem lastAmount_prune {debug : Bool} : (h.prune debug block).lastAmount = h.lastAmount := by
  unfold prune
  split
  case h_1 firstItem mostRecentItem hf hm =>
    dsimp only
    split_ifs with h₁ h₂
    · rfl
    · simp [lastAmount, hm, Keyed.insert, Keyed.insertList]
    · suffices hk : (h.filter fun e =>
          !(decide (e.1 < block - maxStateHistory) && debug)).toList.getLast? =
          some mostRecentItem by
        rw [lastAmount, lastAmount, hk, hm]
      obtain ⟨hmem, hmax⟩ := getLast?_eq_some.mp hm
      obtain ⟨x, hx⟩ := List.exists_mem_of_ne_nil _ h₂
      obtain ⟨hxh, hxk⟩ := Keyed.mem_filter.mp hx
      rw [getLast?_eq_some]
      refine ⟨Keyed.mem_filter.mpr ⟨hmem, ?_⟩, fun e he => hmax e (Keyed.mem_filter.mp he).1⟩
      have hle : x.1 ≤ mostRecentItem.1 := by
        rcases Prod.Lex.le_iff.mp (hmax x hxh) with hlt | ⟨heq, -⟩
        · exact hlt.le
        · exact heq.le
      simp only [Bool.not_eq_true', Bool.and_eq_false_iff, decide_eq_false_iff_not] at hxk ⊢
      rcases hxk with hxk | hxk
      · exact .inl (by omega)
      · exact .inr hxk
  case h_2 => rfl

end CacheHistory

namespace FeeCache

variable {c : FeeCache} {p q : PropertyId} {block amount b : Int} {debug : Bool}

def getCacheHistory (c : FeeCache) (propertyId : PropertyId) : CacheHistory :=
  (c.cacheHistory.get? propertyId).getD ∅

def getCachedAmount (c : FeeCache) (propertyId : PropertyId) : Int :=
  (c.getCacheHistory propertyId).lastAmount

def getDistributionThreshold (c : FeeCache) (propertyId : PropertyId) : Int :=
  (c.distributionThresholds.get? propertyId).getD 0

def put (c : FeeCache) (propertyId : PropertyId) (h : CacheHistory) : FeeCache :=
  { c with cacheHistory := c.cacheHistory.set propertyId h }

def putAmount (c : FeeCache) (mscDebugFees : Bool) (propertyId : PropertyId)
    (block amount : Int) : FeeCache :=
  c.put propertyId (((c.getCacheHistory propertyId).write block amount).prune mscDebugFees block)

def UpTo (c : FeeCache) (block : Int) : Prop :=
  ∀ p, (c.getCacheHistory p).UpTo block

theorem UpTo.mono (hu : c.UpTo b) (hb : b ≤ block) : c.UpTo block :=
  fun p => (hu p).mono hb

theorem getCacheHistory_putAmount : (c.putAmount debug p block amount).getCacheHistory q =
    if q = p then ((c.getCacheHistory p).write block amount).prune debug block
    else c.getCacheHistory q := by
  simp only [getCacheHistory, putAmount, put, OrderedMap.get?_set]
  split_ifs <;> rfl

theorem UpTo.putAmount (hu : c.UpTo block) : (c.putAmount debug p block amount).UpTo block := by
  intro q
  rw [getCacheHistory_putAmount]
  split_ifs with hq
  · exact fun e he => (hu p).write e (CacheHistory.mem_of_mem_prune he)
  · exact hu q

theorem getCachedAmount_putAmount (hu : c.UpTo block) :
    (c.putAmount debug p block amount).getCachedAmount q =
      if q = p then amount else c.getCachedAmount q := by
  rw [getCachedAmount, getCacheHistory_putAmount]
  split_ifs with hq
  · rw [CacheHistory.lastAmount_prune, CacheHistory.lastAmount_write (hu p)]
  · rfl

end FeeCache

namespace NodeState

def getTotalTokens (s : NodeState) (propertyId : PropertyId) : Except Abort Int :=
  match s.spInfo.getSP propertyId with
  | none => .ok 0
  | some property =>
    if property.fixed then .ok property.numTokens
    else do
      let totalTokens ← s.ledger.mpTallyMap.toList.foldlM
        (fun totalTokens e => addTokens e.2 propertyId totalTokens) 0
      checked64 (totalTokens + s.feeCache.getCachedAmount propertyId)

def setDistributionThreshold (s : NodeState) (propertyId : PropertyId) (threshold : Int) :
    NodeState :=
  { s with feeCache.distributionThresholds :=
    s.feeCache.distributionThresholds.set propertyId threshold }

def updateDistributionThresholds (s : NodeState) (propertyId : PropertyId) :
    Except Abort NodeState := do
  let totalTokens ← s.getTotalTokens propertyId
  let distributionThreshold := totalTokens.tdiv tlFeeThreshold
  return s.setDistributionThreshold propertyId
    (if distributionThreshold ≤ 0 then 1 else distributionThreshold)

def putCachedAmount (s : NodeState) (env : Environment) (propertyId : PropertyId)
    (block amount : Int) : NodeState :=
  { s with feeCache := s.feeCache.putAmount env.mscDebugFees propertyId block amount }

def clearCache (s : NodeState) (env : Environment) (propertyId : PropertyId) (block : Int) :
    NodeState :=
  s.putCachedAmount env propertyId block 0

def credits (propertyId : PropertyId) (receivers : OwnerAddrType) : List (Posting Account) :=
  receivers.toList.reverse.map fun r => ⟨⟨r.2, propertyId, .balance⟩, r.1⟩

def distributeCache (s : NodeState) (env : Environment) (propertyId : PropertyId) (block : Int) :
    Except Abort NodeState := do
  let cachedAmount := s.feeCache.getCachedAmount propertyId
  let receiversSet ← stoGetReceivers s.ledger feeDistribution
    (if isTestEcosystemProperty propertyId then tlPropertyTmsc else tlPropertyMsc) cachedAmount
  let s ← s.assertTallies (credits propertyId receiversSet)
  if receiversSet.total = cachedAmount then .ok (s.clearCache env propertyId block)
  else .error .assertion

def evalCache (s : NodeState) (env : Environment) (propertyId : PropertyId) (block : Int) :
    Except Abort NodeState :=
  if s.feeCache.getDistributionThreshold propertyId ≤ s.feeCache.getCachedAmount propertyId then
    s.distributeCache env propertyId block
  else .ok s

def addFee (s : NodeState) (env : Environment) (propertyId : PropertyId) (block amount : Int) :
    Except Abort NodeState := do
  let newCachedAmount ← checked64 (s.feeCache.getCachedAmount propertyId + amount)
  (s.putCachedAmount env propertyId block newCachedAmount).evalCache env propertyId block

def notifyTotalTokensChanged (s : NodeState) (env : Environment) (propertyId : PropertyId)
    (block : Int) : Except Abort NodeState := do
  let s ← s.updateDistributionThresholds propertyId
  s.evalCache env propertyId block

variable {s s' : NodeState} {env : Environment} {p q : PropertyId} {block amount : Int}

theorem getCachedAmount_putCachedAmount (hu : s.feeCache.UpTo block) :
    (s.putCachedAmount env p block amount).feeCache.getCachedAmount q =
      if q = p then amount else s.feeCache.getCachedAmount q :=
  FeeCache.getCachedAmount_putAmount hu

theorem distributeCache_cases (h : s.distributeCache env p block = .ok s') :
    ∃ receivers m, (∀ r ∈ receivers, 0 < r.1) ∧
      receivers.total = s.feeCache.getCachedAmount p ∧ s.Posted (credits p receivers) m ∧
      s' = m.clearCache env p block := by
  simp only [distributeCache, bind_eq_ok] at h
  obtain ⟨receivers, hr, m, hm, h⟩ := h
  split_ifs at h with ht
  cases h
  exact ⟨receivers, m, stoGetReceivers_pos hr, ht, posted_of_assertTallies hm, rfl⟩

/-- Everything the fee cache does to a state: it pays amounts of one property into balances
and rewrites its own records. -/
structure PaidOut (p : PropertyId) (s s' : NodeState) : Prop where
  frame : s' = { s with ledger := s'.ledger, feeCache := s'.feeCache }
  posted : ∃ ps, s.ledger.Posted ps s'.ledger ∧
    ∀ x ∈ ps, x.account.property = p ∧ x.account.ttype = .balance ∧ 0 < x.amount

theorem PaidOut.refl (p : PropertyId) (s : NodeState) : PaidOut p s s :=
  ⟨rfl, [], .nil _, by simp⟩

theorem PaidOut.money_eq (h : PaidOut p s s') {a : Address} {t : TallyType}
    (hne : q ≠ p ∨ t ≠ .balance) : s'.ledger.money a q t = s.ledger.money a q t := by
  obtain ⟨ps, hps, hc⟩ := h.posted
  rw [hps.money_eq, Posting.net_eq_zero, add_zero]
  intro x hx hk
  obtain ⟨hproperty, htype, -⟩ := hc x hx
  rw [hk] at hproperty htype
  exact hne.elim (· hproperty) (· htype)

theorem paidOut_of_distributeCache (h : s.distributeCache env p block = .ok s') :
    PaidOut p s s' := by
  obtain ⟨receivers, m, hpos, -, hm, rfl⟩ := distributeCache_cases h
  refine ⟨?_, credits p receivers, hm.2, ?_⟩
  · rw [clearCache, putCachedAmount, hm.1]
  · intro x hx
    simp only [credits, List.mem_map, List.mem_reverse] at hx
    obtain ⟨r, hr, rfl⟩ := hx
    exact ⟨rfl, rfl, hpos r hr⟩

theorem paidOut_of_evalCache (h : s.evalCache env p block = .ok s') : PaidOut p s s' := by
  unfold evalCache at h
  split_ifs at h
  · exact paidOut_of_distributeCache h
  · cases h
    exact .refl p _

theorem paidOut_of_addFee (h : s.addFee env p block amount = .ok s') : PaidOut p s s' := by
  rw [addFee, bind_eq_ok] at h
  obtain ⟨n, -, h⟩ := h
  have he := paidOut_of_evalCache h
  exact ⟨he.frame, he.posted⟩

theorem paidOut_of_notifyTotalTokensChanged
    (h : s.notifyTotalTokensChanged env p block = .ok s') : PaidOut p s s' := by
  simp only [notifyTotalTokensChanged, updateDistributionThresholds, bind_eq_ok] at h
  obtain ⟨m, ⟨n, -, hm⟩, h⟩ := h
  cases hm
  have he := paidOut_of_evalCache h
  exact ⟨he.frame, he.posted⟩

end NodeState

end TradeLayer
