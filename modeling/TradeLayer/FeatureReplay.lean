import TradeLayer.Chain
import TradeLayer.Library.Replay

namespace TradeLayer
open Library

namespace ConsensusParams

variable {params : ConsensusParams} {id id' : Nat} {b b' : Int}

theorem writeFeatureBlock_field {β : Type} (g : ConsensusParams → β)
    (hg : ∀ f, g (params.setFeatureBlock b f) = g params) :
    g (params.writeFeatureBlock id b) = g params := by
  unfold writeFeatureBlock
  cases Feature.ofId id with
  | none => rfl
  | some f => exact hg f

@[simp] theorem minActivationBlocks_writeFeatureBlock :
    (params.writeFeatureBlock id b).minActivationBlocks = params.minActivationBlocks :=
  writeFeatureBlock_field minActivationBlocks (by simp)

@[simp] theorem maxActivationBlocks_writeFeatureBlock :
    (params.writeFeatureBlock id b).maxActivationBlocks = params.maxActivationBlocks :=
  writeFeatureBlock_field maxActivationBlocks (by simp)

@[simp] theorem mscAlertBlock_writeFeatureBlock :
    (params.writeFeatureBlock id b).mscAlertBlock = params.mscAlertBlock :=
  writeFeatureBlock_field mscAlertBlock fun f => by cases f <;> rfl

theorem isFeatureActivated_writeFeatureBlock :
    isFeatureActivated (params.writeFeatureBlock id b) id' b' =
      if id = id' then (Feature.ofId id).isSome && b ≤ b'
      else isFeatureActivated params id' b' := by
  unfold isFeatureActivated
  cases h : Feature.ofId id' with
  | none =>
    by_cases hid : id = id'
    · simp [hid, h]
    · simp [hid]
  | some f =>
    have hf : f.id = id' := Feature.id_of_ofId h
    simp only [featureBlock_writeFeatureBlock, hf]
    by_cases hid : id = id'
    · simp [hid, h]
    · simp [hid]

end ConsensusParams

structure ActivationCall where
  txid : Nat
  block : Int
  featureId : Nat
  activationBlock : Int
  minClientVersion : Nat
  deriving DecidableEq, Repr

def ActivationCall.rank (c : ActivationCall) : Int ×ₗ Nat := toLex (c.block, c.txid)

namespace FeatureState

variable {s t : FeatureState} {c : ActivationCall} {id : Nat} {h : Int} {a : FeatureActivation}
variable {calls : List ActivationCall} {blocks : List (Int × List ActivationCall)}

def activate (s : FeatureState) (c : ActivationCall) : FeatureState :=
  (s.activateFeature c.featureId c.activationBlock c.minClientVersion c.block).2

def Activates (s : FeatureState) (c : ActivationCall) : Prop :=
  isFeatureActivated s.params c.featureId c.block = false ∧
    c.block + s.params.minActivationBlocks ≤ c.activationBlock ∧
    c.activationBlock ≤ c.block + s.params.maxActivationBlocks

instance : Decidable (s.Activates c) := inferInstanceAs (Decidable (_ ∧ _ ∧ _))

theorem activateFeature_eq (s : FeatureState) (c : ActivationCall) :
    s.activateFeature c.featureId c.activationBlock c.minClientVersion c.block =
      if s.Activates c then (true, { s with
        params := s.params.writeFeatureBlock c.featureId c.activationBlock
        pendingActivations := (s.pendingActivations.filter fun a => a.featureId ≠ c.featureId) ++
          [⟨c.featureId, c.activationBlock, c.minClientVersion, getFeatureName c.featureId⟩] })
      else (false, s) := by
  by_cases hc : s.Activates c
  · obtain ⟨hlive, hmin, hmax⟩ := hc
    rw [if_pos ⟨hlive, hmin, hmax⟩, activateFeature, if_neg (by omega), hlive]
    rfl
  · rw [if_neg hc]
    unfold activateFeature
    split_ifs with hnotice hlive
    · rfl
    · rfl
    · push Not at hnotice
      exact absurd ⟨by simpa using hlive, hnotice⟩ hc

theorem activate_of_activates (hc : s.Activates c) : s.activate c = { s with
    params := s.params.writeFeatureBlock c.featureId c.activationBlock
    pendingActivations := (s.pendingActivations.filter fun a => a.featureId ≠ c.featureId) ++
      [⟨c.featureId, c.activationBlock, c.minClientVersion, getFeatureName c.featureId⟩] } := by
  rw [activate, activateFeature_eq, if_pos hc]

theorem activate_of_not_activates (hc : ¬ s.Activates c) : s.activate c = s := by
  rw [activate, activateFeature_eq, if_neg hc]

structure SameFor (id : Nat) (s t : FeatureState) : Prop where
  minActivationBlocks : s.params.minActivationBlocks = t.params.minActivationBlocks
  maxActivationBlocks : s.params.maxActivationBlocks = t.params.maxActivationBlocks
  activated : ∀ b, isFeatureActivated s.params id b = isFeatureActivated t.params id b
  pending : ∀ a, a.featureId = id → (a ∈ s.pendingActivations ↔ a ∈ t.pendingActivations)

namespace SameFor

theorem refl (id : Nat) (s : FeatureState) : SameFor id s s :=
  ⟨rfl, rfl, fun _ => rfl, fun _ _ => Iff.rfl⟩

theorem symm (hs : SameFor id s t) : SameFor id t s :=
  ⟨hs.1.symm, hs.2.symm, fun b => (hs.3 b).symm, fun a ha => (hs.4 a ha).symm⟩

theorem activates_iff (hs : SameFor c.featureId s t) : s.Activates c ↔ t.Activates c := by
  rw [Activates, Activates, hs.activated, hs.minActivationBlocks, hs.maxActivationBlocks]

theorem activate_of_ne (hc : c.featureId ≠ id) (hs : SameFor id s t) :
    SameFor id (s.activate c) t := by
  by_cases hact : s.Activates c
  · rw [activate_of_activates hact]
    refine ⟨?_, ?_, fun b => ?_, fun a ha => ?_⟩
    · simp only [ConsensusParams.minActivationBlocks_writeFeatureBlock, hs.minActivationBlocks]
    · simp only [ConsensusParams.maxActivationBlocks_writeFeatureBlock, hs.maxActivationBlocks]
    · rw [ConsensusParams.isFeatureActivated_writeFeatureBlock, if_neg hc, hs.activated]
    · have hne : a.featureId ≠ c.featureId := fun he => hc (he ▸ ha)
      have hnew : a ≠ ⟨c.featureId, c.activationBlock, c.minClientVersion,
        getFeatureName c.featureId⟩ := fun he => hne (congrArg FeatureActivation.featureId he)
      simpa [hne, hnew] using hs.pending a ha
  · rwa [activate_of_not_activates hact]

theorem activate (c : ActivationCall) (hs : SameFor id s t) :
    SameFor id (s.activate c) (t.activate c) := by
  by_cases hc : c.featureId = id
  · subst hc
    by_cases hact : s.Activates c
    · rw [activate_of_activates hact, activate_of_activates (hs.activates_iff.mp hact)]
      refine ⟨?_, ?_, fun b => ?_, fun a ha => ?_⟩
      · simp only [ConsensusParams.minActivationBlocks_writeFeatureBlock, hs.minActivationBlocks]
      · simp only [ConsensusParams.maxActivationBlocks_writeFeatureBlock, hs.maxActivationBlocks]
      · simp only [ConsensusParams.isFeatureActivated_writeFeatureBlock, if_true]
      · simp [ha]
    · rwa [activate_of_not_activates hact,
        activate_of_not_activates fun h => hact (hs.activates_iff.mpr h)]
  · exact activate_of_ne hc (activate_of_ne hc hs.symm).symm

end SameFor

theorem localAction_activate : LocalAction ActivationCall.featureId activate SameFor :=
  ⟨fun c hs => hs.activate c, fun hc hs => hs.activate_of_ne hc⟩

theorem sameFor_foldl_of_filter_eq {l l' : List ActivationCall}
    (hl : ∀ id, l.filter (fun c => c.featureId = id) = l'.filter fun c => c.featureId = id) :
    SameFor id (l.foldl activate s) (l'.foldl activate s) := by
  have h₁ := localAction_activate.foldl_filter (l := l) (SameFor.refl id s)
  have h₂ := localAction_activate.foldl_filter (l := l') (SameFor.refl id s)
  rw [hl] at h₁
  have h₃ := h₂.symm
  exact ⟨h₁.1.trans h₃.1, h₁.2.trans h₃.2, fun b => (h₁.3 b).trans (h₃.3 b),
    fun a ha => (h₁.4 a ha).trans (h₃.4 a ha)⟩

def DistinctPending (s : FeatureState) : Prop :=
  (s.pendingActivations.map FeatureActivation.featureId).Nodup

theorem distinctPending_activate (hs : s.DistinctPending) : (s.activate c).DistinctPending := by
  by_cases hact : s.Activates c
  · rw [activate_of_activates hact, DistinctPending, List.map_append, List.nodup_append]
    refine ⟨hs.sublist (List.filter_sublist.map _), by simp, ?_⟩
    intro id hid id' hid'
    obtain ⟨a, ha, rfl⟩ := List.mem_map.mp hid
    have hne := (List.mem_filter.mp ha).2
    simp only [List.map_cons, List.map_nil, List.mem_singleton] at hid'
    subst hid'
    simpa using hne
  · rwa [activate_of_not_activates hact]

theorem distinctPending_foldl_activate (hs : s.DistinctPending) :
    (calls.foldl activate s).DistinctPending := by
  induction calls generalizing s with
  | nil => exact hs
  | cons c calls ih => exact ih (distinctPending_activate hs)

theorem mem_foldl_completed {l : List FeatureActivation} :
    a ∈ (l.foldl (fun s x => if h < x.activationBlock then s
      else s.pendingActivationCompleted x) s).pendingActivations ↔
      a ∈ s.pendingActivations ∧ ∀ x ∈ l, x.activationBlock ≤ h → a.featureId ≠ x.featureId := by
  induction l generalizing s with
  | nil => simp
  | cons x l ih =>
    rw [List.foldl_cons, ih, List.forall_mem_cons]
    split_ifs with hx
    · have hnot : ¬ x.activationBlock ≤ h := not_le.mpr hx
      simp [hnot]
    · have hle : x.activationBlock ≤ h := not_lt.mp hx
      simp [pendingActivationCompleted, deletePendingActivation, hle, and_assoc]

theorem mem_checkLiveActivations (hs : s.DistinctPending) :
    a ∈ (s.checkLiveActivations h).pendingActivations ↔
      a ∈ s.pendingActivations ∧ h < a.activationBlock := by
  rw [checkLiveActivations, mem_foldl_completed]
  constructor
  · rintro ⟨ha, hx⟩
    exact ⟨ha, not_le.mp fun hle => hx a ha hle rfl⟩
  · rintro ⟨ha, hlt⟩
    refine ⟨ha, fun x hx hle he => ?_⟩
    rw [List.inj_on_of_nodup_map hs hx ha he.symm] at hle
    omega

theorem distinctPending_foldl_completed {l : List FeatureActivation} (hs : s.DistinctPending) :
    (l.foldl (fun s x => if h < x.activationBlock then s
      else s.pendingActivationCompleted x) s).DistinctPending := by
  induction l generalizing s with
  | nil => exact hs
  | cons x l ih =>
    apply ih
    dsimp only
    split_ifs
    · exact hs
    · exact hs.sublist (List.filter_sublist.map _)

theorem distinctPending_checkLiveActivations (hs : s.DistinctPending) :
    (s.checkLiveActivations h).DistinctPending :=
  distinctPending_foldl_completed hs

def liveCalls (s : FeatureState) (blocks : List (Int × List ActivationCall)) : FeatureState :=
  blocks.foldl (fun s b =>
    b.2.foldl activate ((s.checkLiveActivations b.1).checkLiveActivations b.1)) s

theorem distinctPending_liveCalls (hs : s.DistinctPending) :
    (s.liveCalls blocks).DistinctPending := by
  induction blocks generalizing s with
  | nil => exact hs
  | cons b blocks ih =>
    have hbegin := distinctPending_checkLiveActivations (h := b.1)
      (distinctPending_checkLiveActivations (h := b.1) hs)
    exact ih (distinctPending_foldl_activate hbegin)

/-- A state that completes activations on the way, next to one that completes none: it holds
the pending activations that come after a height, and others of them. -/
structure Trails (h : Int) (s t : FeatureState) : Prop where
  params : s.params = t.params
  distinct : s.DistinctPending
  mem : ∀ a ∈ s.pendingActivations, a ∈ t.pendingActivations
  mem_later : ∀ a ∈ t.pendingActivations, h < a.activationBlock → a ∈ s.pendingActivations

namespace Trails

theorem refl (hs : s.DistinctPending) : Trails h s s :=
  ⟨rfl, hs, fun _ ha => ha, fun _ ha _ => ha⟩

theorem activate (c : ActivationCall) (hs : Trails h s t) :
    Trails h (s.activate c) (t.activate c) := by
  have hiff : s.Activates c ↔ t.Activates c := by rw [Activates, Activates, hs.params]
  by_cases hact : s.Activates c
  · have hdistinct := distinctPending_activate (c := c) hs.distinct
    rw [activate_of_activates hact] at hdistinct ⊢
    rw [activate_of_activates (hiff.mp hact)]
    refine ⟨by rw [hs.params], hdistinct, ?_, ?_⟩
    · intro a ha
      rcases List.mem_append.mp ha with ha | ha
      · obtain ⟨ha, hne⟩ := List.mem_filter.mp ha
        exact List.mem_append_left _ (List.mem_filter.mpr ⟨hs.mem a ha, hne⟩)
      · exact List.mem_append_right _ ha
    · intro a ha hlater
      rcases List.mem_append.mp ha with ha | ha
      · obtain ⟨ha, hne⟩ := List.mem_filter.mp ha
        exact List.mem_append_left _ (List.mem_filter.mpr ⟨hs.mem_later a ha hlater, hne⟩)
      · exact List.mem_append_right _ ha
  · rwa [activate_of_not_activates hact, activate_of_not_activates fun h => hact (hiff.mpr h)]

theorem foldl_activate (hs : Trails h s t) :
    Trails h (calls.foldl FeatureState.activate s) (calls.foldl FeatureState.activate t) := by
  induction calls generalizing s t with
  | nil => exact hs
  | cons c calls ih => exact ih (hs.activate c)

theorem checkLiveActivations {h' : Int} (hs : Trails h s t) (hle : h ≤ h') :
    Trails h' (s.checkLiveActivations h') t where
  params := by rw [params_checkLiveActivations, hs.params]
  distinct := distinctPending_checkLiveActivations hs.distinct
  mem a ha := hs.mem a ((mem_checkLiveActivations hs.distinct).mp ha).1
  mem_later a ha hlater := by
    rw [mem_checkLiveActivations hs.distinct]
    exact ⟨hs.mem_later a ha (by omega), hlater⟩

theorem liveCalls {tip : Int} (hs : Trails h s t) (hle : ∀ b ∈ blocks, h ≤ b.1)
    (hsorted : blocks.Pairwise fun b b' => b.1 < b'.1) (htip : ∀ b ∈ blocks, b.1 ≤ tip)
    (hh : h ≤ tip) :
    Trails tip (s.liveCalls blocks) ((blocks.flatMap Prod.snd).foldl FeatureState.activate t) := by
  induction blocks generalizing h s t with
  | nil => exact ⟨hs.1, hs.2, hs.3, fun a ha hlater => hs.4 a ha (by omega)⟩
  | cons b blocks ih =>
    obtain ⟨hb, hsorted⟩ := List.pairwise_cons.mp hsorted
    rw [List.flatMap_cons, List.foldl_append]
    have hbegin := (hs.checkLiveActivations (hle b List.mem_cons_self)).checkLiveActivations
      (le_refl b.1)
    exact ih hbegin.foldl_activate (fun b' hb' => (hb b' hb').le) hsorted
      (fun b' hb' => htip b' (List.mem_cons_of_mem _ hb')) (htip b List.mem_cons_self)

end Trails

theorem pending_later_foldl (hs : ∀ a ∈ s.pendingActivations, h < a.activationBlock)
    (hcalls : ∀ c ∈ calls, h < c.activationBlock) :
    ∀ a ∈ (calls.foldl activate s).pendingActivations, h < a.activationBlock := by
  induction calls generalizing s with
  | nil => exact hs
  | cons c calls ih =>
    obtain ⟨hc, hcalls⟩ := List.forall_mem_cons.mp hcalls
    refine ih (fun a ha => ?_) hcalls
    by_cases hact : s.Activates c
    · rw [activate_of_activates hact] at ha
      rcases List.mem_append.mp ha with ha | ha
      · exact hs a (List.mem_filter.mp ha).1
      · rw [List.mem_singleton.mp ha]
        exact hc
    · rw [activate_of_not_activates hact] at ha
      exact hs a ha

/-- Live processing up to a block agrees with the same calls in one go and one check at the
end, if no call of the last block is live in that block. -/
theorem liveCalls_agrees {tip : Int} (hs : s.DistinctPending)
    (hsorted : (blocks ++ [(tip, calls)]).Pairwise fun b b' => b.1 < b'.1)
    (hcalls : ∀ c ∈ calls, tip < c.activationBlock) :
    let live := s.liveCalls (blocks ++ [(tip, calls)])
    let plain := ((blocks ++ [(tip, calls)]).flatMap Prod.snd).foldl activate s
    live.params = plain.params ∧ ∀ a, a ∈ live.pendingActivations ↔
      a ∈ plain.pendingActivations ∧ tip < a.activationBlock := by
  intro live plain
  have hle : ∀ b ∈ blocks ++ [(tip, calls)], b.1 ≤ tip := by
    intro b hb
    rcases List.mem_append.mp hb with hb | hb
    · exact ((List.pairwise_append.mp hsorted).2.2 b hb _ List.mem_cons_self).le
    · rw [List.mem_singleton.mp hb]
  obtain ⟨b, rest, hcons⟩ := List.exists_cons_of_ne_nil
    (List.append_ne_nil_of_right_ne_nil blocks (List.cons_ne_nil (tip, calls) []))
  have hfirst : ∀ b' ∈ blocks ++ [(tip, calls)], b.1 ≤ b'.1 := by
    rw [hcons] at hsorted ⊢
    intro b' hb'
    rcases List.mem_cons.mp hb' with rfl | hb'
    · exact le_refl _
    · exact ((List.pairwise_cons.mp hsorted).1 b' hb').le
  have ht := (Trails.refl (h := b.1) hs).liveCalls hfirst hsorted hle
    (hle b (hcons ▸ List.mem_cons_self))
  have hlater : ∀ a ∈ live.pendingActivations, tip < a.activationBlock := by
    simp only [live, FeatureState.liveCalls, List.foldl_append, List.foldl_cons, List.foldl_nil]
    refine pending_later_foldl (fun a ha => ?_) hcalls
    refine ((mem_checkLiveActivations ?_).mp ha).2
    exact distinctPending_checkLiveActivations (distinctPending_liveCalls hs)
  refine ⟨ht.params, fun a => ⟨fun ha => ⟨ht.mem a ha, hlater a ha⟩, fun ha => ?_⟩⟩
  exact ht.mem_later a ha.1 ha.2

/-- The calls by block and transaction hash in one go, and one check at the end. -/
def replayCalls (s : FeatureState) (calls : List ActivationCall) (tip : Int) : FeatureState :=
  ((calls.insertionSort fun c c' => c.rank ≤ c'.rank).foldl activate s).checkLiveActivations tip

/-- Replay agrees with live processing if the calls on each feature are already in the order
of the replay and no call of the last block is live in that block. -/
theorem replayCalls_agrees {tip : Int} (hs : s.DistinctPending)
    (hsorted : (blocks ++ [(tip, calls)]).Pairwise fun b b' => b.1 < b'.1)
    (hcalls : ∀ c ∈ calls, tip < c.activationBlock)
    (hrank : ∀ id, (((blocks ++ [(tip, calls)]).flatMap Prod.snd).filter
      fun c => c.featureId = id).Pairwise fun c c' => c.rank < c'.rank) :
    let live := s.liveCalls (blocks ++ [(tip, calls)])
    let replay := s.replayCalls ((blocks ++ [(tip, calls)]).flatMap Prod.snd) tip
    (∀ id b, isFeatureActivated replay.params id b = isFeatureActivated live.params id b) ∧
      ∀ a, a ∈ replay.pendingActivations ↔ a ∈ live.pendingActivations := by
  intro live replay
  obtain ⟨hparams, hpending⟩ := liveCalls_agrees hs hsorted hcalls
  let all := (blocks ++ [(tip, calls)]).flatMap Prod.snd
  have hsame : ∀ id, SameFor id
      ((all.insertionSort fun c c' => c.rank ≤ c'.rank).foldl activate s) (all.foldl activate s) :=
    fun id => sameFor_foldl_of_filter_eq fun id' => filter_insertionSort (hrank id')
  constructor
  · intro id b
    have hactivated := (hsame id).activated b
    rw [← hparams] at hactivated
    have hreplay : replay.params = ((all.insertionSort fun c c' => c.rank ≤ c'.rank).foldl
      activate s).params := params_checkLiveActivations
    rw [hreplay]
    exact hactivated
  · intro a
    rw [hpending, ← (hsame a.featureId).pending a rfl]
    exact mem_checkLiveActivations (distinctPending_foldl_activate hs)

end FeatureState

end TradeLayer
