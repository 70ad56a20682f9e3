import TradeLayer.FeeRecords

namespace TradeLayer
open Library

namespace NodeState

variable {s s' m : NodeState} {env : Environment} {p : PropertyId} {b : Int}
variable {call : FeeCall} {calls before after : List FeeCall} {e : Int × Int}

def WrittenBy (calls : List FeeCall) (p : PropertyId) (h : CacheHistory) : Prop :=
  (∀ e ∈ h, ∃ call ∈ calls, call.propertyId = p ∧ call.block = e.1) ∧
    ∀ call ∈ calls, call.propertyId = p → ∃ e ∈ h, call.block ≤ e.1

theorem writtenBy_of_entered (hw : WrittenBy calls p (s.feeHistory p))
    (hsorted : ∀ earlier ∈ calls, earlier.block ≤ call.block)
    (h : Entered env call.propertyId call.block s s') :
    WrittenBy (calls ++ [call]) p (s'.feeHistory p) := by
  by_cases hp : call.propertyId = p
  · subst hp
    obtain ⟨amount, hmem⟩ := h.recorded
    constructor
    · intro e he
      rcases (hmem e).mp he with rfl | ⟨he, -⟩
      · exact ⟨call, by simp, rfl, rfl⟩
      · obtain ⟨earlier, hin, heq⟩ := hw.1 e he
        exact ⟨earlier, List.mem_append_left _ hin, heq⟩
    · intro earlier hin _
      refine ⟨(call.block, amount), (hmem _).mpr (.inl rfl), ?_⟩
      rcases List.mem_append.mp hin with hin | hin
      · exact hsorted earlier hin
      · rw [List.mem_singleton.mp hin]
  · rw [h.other p (Ne.symm hp)]
    constructor
    · intro e he
      obtain ⟨earlier, hin, heq⟩ := hw.1 e he
      exact ⟨earlier, List.mem_append_left _ hin, heq⟩
    · intro earlier hin heq
      rcases List.mem_append.mp hin with hin | hin
      · exact hw.2 earlier hin heq
      · rw [List.mem_singleton.mp hin] at heq
        exact absurd heq hp

theorem writtenBy_of_feeCalls {done : List FeeCall} (hw : WrittenBy done p (s.feeHistory p))
    (hsorted : (done ++ calls).Pairwise fun x y => x.block ≤ y.block)
    (h : s.feeCalls env calls = .ok s') : WrittenBy (done ++ calls) p (s'.feeHistory p) := by
  induction calls generalizing done s with
  | nil =>
    cases h
    rwa [List.append_nil]
  | cons call calls ih =>
    obtain ⟨m, hm, h⟩ := bind_eq_ok.mp h
    have hlast : ∀ earlier ∈ done, earlier.block ≤ call.block := fun earlier hin =>
      (List.pairwise_append.mp hsorted).2.2 earlier hin call List.mem_cons_self
    have hstep := writtenBy_of_entered hw hlast (entered_of_makeFeeCall hm)
    rw [List.append_cons] at hsorted ⊢
    exact ih hstep hsorted h

theorem mem_feeHistory_of_feeCalls (hafter : ∀ call ∈ calls, b ≤ call.block) (he : e.1 < b)
    (h : s.feeCalls env calls = .ok s') :
    e ∈ s'.feeHistory p ↔ e ∈ s.feeHistory p ∧ (env.mscDebugFees = true →
      ∀ call ∈ calls, call.propertyId = p → call.block - maxStateHistory ≤ e.1) := by
  induction calls generalizing s with
  | nil =>
    cases h
    simp
  | cons call calls ih =>
    obtain ⟨m, hm, h⟩ := bind_eq_ok.mp h
    have hstep := entered_of_makeFeeCall hm
    have hblock : b ≤ call.block := hafter call List.mem_cons_self
    rw [ih (fun c hc => hafter c (List.mem_cons_of_mem _ hc)) h]
    have hmem : e ∈ m.feeHistory p ↔ e ∈ s.feeHistory p ∧ (env.mscDebugFees = true →
        call.propertyId = p → call.block - maxStateHistory ≤ e.1) := by
      by_cases hp : call.propertyId = p
      · subst hp
        obtain ⟨amount, hentries⟩ := hstep.recorded
        have hne : e.1 ≠ call.block := by omega
        have hneq : e ≠ (call.block, amount) := fun heq => hne (congrArg Prod.fst heq)
        rw [hentries, or_iff_right hneq, and_iff_right hne]
        simp
      · rw [hstep.other p (Ne.symm hp)]
        simp [hp]
    rw [hmem, and_assoc, ← forall_and]
    simp only [List.forall_mem_cons]

def RollsBackTo (s m : NodeState) (b : Int) : Prop :=
  ∀ p ∈ s.spInfo.feeProperties,
    (s.rollBackCache b).feeCache.getCachedAmount p = m.feeCache.getCachedAmount p

section Rollback

variable (hempty : s.feeCache.cacheHistory = ∅)
variable (hsorted : (before ++ after).Pairwise fun x y => x.block ≤ y.block)
variable (hbefore : ∀ call ∈ before, call.block < b) (hafter : ∀ call ∈ after, b ≤ call.block)
variable (hm : s.feeCalls env before = .ok m) (hs' : m.feeCalls env after = .ok s')

include hempty hsorted hm

theorem writtenBy_before : WrittenBy before p (m.feeHistory p) := by
  have hnone : s.feeHistory p = ∅ := by
    rw [feeHistory, FeeCache.getCacheHistory, hempty]
    rfl
  have hstart : WrittenBy [] p (s.feeHistory p) := by
    rw [hnone]
    exact ⟨fun e he => absurd he Keyed.not_mem_empty, fun call hin => absurd hin List.not_mem_nil⟩
  exact writtenBy_of_feeCalls hstart (List.pairwise_append.mp hsorted).1 hm

include hbefore hafter hs'

theorem mem_rollBackCache_feeCalls (hp : p ∈ s'.spInfo.feeProperties) :
    e ∈ (s'.rollBackCache b).feeHistory p ↔ e ∈ m.feeHistory p ∧ (env.mscDebugFees = true →
      ∀ call ∈ after, call.propertyId = p → call.block - maxStateHistory ≤ e.1) := by
  have hmem : e ∈ (s'.rollBackCache b).feeHistory p ↔ e ∈ s'.feeHistory p ∧ e.1 < b :=
    FeeCache.mem_rollBackCache hp
  rw [hmem]
  constructor
  · rintro ⟨he, hlt⟩
    exact (mem_feeHistory_of_feeCalls hafter hlt hs').mp he
  · intro he
    obtain ⟨call, hin, -, hblock⟩ := (writtenBy_before hempty hsorted hm).1 e he.1
    have hlt : e.1 < b := hblock ▸ hbefore call hin
    exact ⟨(mem_feeHistory_of_feeCalls hafter hlt hs').mpr he, hlt⟩

theorem getCachedAmount_rollBackCache_iff (hp : p ∈ s'.spInfo.feeProperties) :
    (s'.rollBackCache b).feeCache.getCachedAmount p = m.feeCache.getCachedAmount p ↔
      env.mscDebugFees = false ∨ m.feeCache.getCachedAmount p = 0 ∨
        FeeCall.Survives before after p := by
  have hwritten : WrittenBy before p (m.feeHistory p) := writtenBy_before hempty hsorted hm
  have hlast := CacheHistory.lastAmount_eq_iff
    (fun n => env.mscDebugFees = true →
      ∀ call ∈ after, call.propertyId = p → call.block - maxStateHistory ≤ n)
    (fun n n' hle hn hdebug call hin hcall => (hn hdebug call hin hcall).trans hle)
    (fun e => mem_rollBackCache_feeCalls (e := e) hempty hsorted hbefore hafter hm hs' hp)
  refine hlast.trans ?_
  change m.feeCache.getCachedAmount p = 0 ∨ _ ↔ _
  cases hdebug : env.mscDebugFees with
  | false =>
    refine iff_of_true ?_ (.inl rfl)
    by_cases hnone : (m.feeHistory p).toList = []
    · left
      rw [FeeCache.getCachedAmount, CacheHistory.lastAmount, ← feeHistory, hnone]
      rfl
    · obtain ⟨e, he⟩ := List.exists_mem_of_ne_nil _ hnone
      exact .inr ⟨e, he, fun h => absurd h (by decide)⟩
  | true =>
    rw [or_iff_right (by decide : ¬ true = false)]
    refine or_congr_right ⟨?_, ?_⟩
    · rintro ⟨e, he, hkept⟩
      obtain ⟨earlier, hin, hproperty, hblock⟩ := hwritten.1 e he
      rw [← hblock] at hkept
      exact ⟨earlier, hin, hproperty, hkept rfl⟩
    · rintro ⟨earlier, hin, hproperty, hkept⟩
      obtain ⟨e, he, hle⟩ := hwritten.2 earlier hin hproperty
      exact ⟨e, he, fun _ call hcall hq => (hkept call hcall hq).trans hle⟩

/-- Rolling back to a block restores the amounts of the block before unless the fees are being
debugged and a property with a cached amount was written to again more than fifty blocks after its
last call before that block. -/
theorem rollsBackTo_iff : s'.RollsBackTo m b ↔ env.mscDebugFees = false ∨
    ∀ p ∈ s'.spInfo.feeProperties,
      m.feeCache.getCachedAmount p = 0 ∨ FeeCall.Survives before after p := by
  have hproperty := fun p hp =>
    getCachedAmount_rollBackCache_iff (p := p) hempty hsorted hbefore hafter hm hs' hp
  constructor
  · intro h
    refine or_iff_not_imp_left.mpr fun hdebug p hp => ?_
    exact ((hproperty p hp).mp (h p hp)).resolve_left hdebug
  · intro h p hp
    exact (hproperty p hp).mpr (h.imp_right fun hkept => hkept p hp)

end Rollback

section Samples

def sampleFees : NodeState :=
  { initial .test .zero with
    spInfo := SPInfo.oneManaged ['i']
    feeCache := ⟨∅, OrderedMap.set ∅ 3 100⟩ }

def debuggedFees : Environment := { Environment.plain .test with mscDebugFees := true }

/-- A fee in block 60 is still recorded when block 100 is rolled back. -/
theorem rollsBackTo_of_sampleFees : ∃ m s',
    sampleFees.feeCalls debuggedFees [.addFee 3 60 5] = .ok m ∧
    m.feeCalls debuggedFees [.addFee 3 100 5] = .ok s' ∧ s'.RollsBackTo m 100 := by
  have hrun : (do
      let m ← sampleFees.feeCalls debuggedFees [.addFee 3 60 5]
      let s' ← m.feeCalls debuggedFees [.addFee 3 100 5]
      return (m.feeCache.getCachedAmount 1, m.feeCache.getCachedAmount 2,
        s'.spInfo.feeProperties)) = Except.ok (0, 0, [1, 2, 3]) := by decide +kernel
  simp only [bind_eq_ok, pure_eq_ok, Except.ok.injEq, Prod.mk.injEq] at hrun
  obtain ⟨m, hm, s', hs', hone, htwo, hproperties⟩ := hrun
  refine ⟨m, s', hm, hs', ?_⟩
  refine (rollsBackTo_iff rfl (by decide) (by decide) (by decide) hm hs').mpr (.inr ?_)
  rw [hproperties]
  have hthree : FeeCall.Survives [.addFee 3 60 5] [.addFee 3 100 5] 3 := by
    refine ⟨.addFee 3 60 5, List.mem_singleton_self _, rfl, fun call hin _ => ?_⟩
    rw [List.mem_singleton.mp hin]
    decide
  simp [hone, htwo, hthree]

/-- A fee in block 10 is forgotten with the fee of block 100, and rolling that block back does not
bring it back. Where fees are not debugged it does. -/
theorem not_rollsBackTo_of_sampleFees :
    (∃ m s', sampleFees.feeCalls debuggedFees [.addFee 3 10 5] = .ok m ∧
      m.feeCalls debuggedFees [.addFee 3 100 5] = .ok s' ∧ m.feeCache.getCachedAmount 3 = 5 ∧
      (s'.rollBackCache 100).feeCache.getCachedAmount 3 = 0 ∧ ¬ s'.RollsBackTo m 100) ∧
    ∃ s', sampleFees.feeCalls (.plain .test) [.addFee 3 10 5, .addFee 3 100 5] = .ok s' ∧
      (s'.rollBackCache 100).feeCache.getCachedAmount 3 = 5 := by
  have hrun : (do
      let m ← sampleFees.feeCalls debuggedFees [.addFee 3 10 5]
      let s' ← m.feeCalls debuggedFees [.addFee 3 100 5]
      return (m.feeCache.getCachedAmount 3, (s'.rollBackCache 100).feeCache.getCachedAmount 3,
        s'.spInfo.feeProperties)) = Except.ok (5, 0, [1, 2, 3]) := by decide +kernel
  simp only [bind_eq_ok, pure_eq_ok, Except.ok.injEq, Prod.mk.injEq] at hrun
  obtain ⟨m, hm, s', hs', hearlier, hrolled, hproperties⟩ := hrun
  refine ⟨⟨m, s', hm, hs', hearlier, hrolled, fun h => ?_⟩, exists_ok_of_map (by decide +kernel)⟩
  have hthree := h 3 (by simp [hproperties])
  rw [hrolled, hearlier] at hthree
  exact absurd hthree (by decide)

end Samples

end NodeState

end TradeLayer
