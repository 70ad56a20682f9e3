import TradeLayer.FeatureMessages

namespace TradeLayer
open Library

namespace FeatureState

variable {s : FeatureState} {c : ActivationCall}

@[simp] theorem mscAlertBlock_activate :
    (s.activate c).params.mscAlertBlock = s.params.mscAlertBlock := by
  by_cases hact : s.Activates c
  · rw [activate_of_activates hact]
    exact ConsensusParams.mscAlertBlock_writeFeatureBlock
  · rw [activate_of_not_activates hact]

theorem mscAlertBlock_foldl_activate {calls : List ActivationCall} :
    (calls.foldl activate s).params.mscAlertBlock = s.params.mscAlertBlock := by
  induction calls generalizing s with
  | nil => rfl
  | cons c calls ih => rw [List.foldl_cons, ih, mscAlertBlock_activate]

end FeatureState

def RawTransaction.IsFeatureMessage (raw : RawTransaction) : Prop :=
  raw.type = TransactionType.activation.code ∨ raw.type = TransactionType.deactivation.code

instance {raw : RawTransaction} : Decidable raw.IsFeatureMessage :=
  inferInstanceAs (Decidable (_ ∨ _))

def activationCalls (rs : List TxRecord) : List ActivationCall :=
  (rs.filter NodeState.isActivation).map TxRecord.activationCall

def NoDeactivation (rs : List TxRecord) : Prop :=
  ∀ r ∈ rs, r.valid = true → r.raw.type ≠ TransactionType.deactivation.code

namespace Node

variable {env : Environment} {others : OtherTypes} {n m n' : Node} {height : Int}
variable {x : Nat × RawTransaction} {txs : List (Nat × RawTransaction)} {rs rs' : List TxRecord}
variable {block : Block} {blocks : List Block}

theorem txList_subset_of_foldlM (h : txs.foldlM (handlerTx env others height) n = .ok n') :
    n.txList ⊆ n'.txList := by
  refine foldlM_invariant (P := fun m => n.txList ⊆ m.txList) h (List.Subset.refl _) ?_
  intro m m' x _ hm hx
  obtain ⟨rc, s', -, ⟨rfl, -⟩ | rfl⟩ := handlerTx_cases hx
  · exact hm
  · exact List.Subset.trans hm (List.subset_append_left _ _)

/-- What the transactions of a block do to the features, in terms of the records they leave. -/
structure Logged (env : Environment) (height : Int) (n n' : Node) (rs : List TxRecord) : Prop where
  txList : n'.txList = n.txList ++ rs
  state : n'.state = n.state.withFeatures ((activationCalls rs).foldl FeatureState.activate
    n.state.features)
  block : ∀ r ∈ rs, r.block = height
  admits : ∀ r ∈ rs, NodeState.isActivation r = true → n.state.AdmitsActivation env r.raw r.block

theorem Logged.nil : Logged env height n n [] :=
  ⟨(List.append_nil _).symm, rfl, by simp, by simp⟩

theorem Logged.append (h : Logged env height n m rs) (h' : Logged env height m n' rs') :
    Logged env height n n' (rs ++ rs') where
  txList := by rw [h'.txList, h.txList, List.append_assoc]
  state := by
    rw [h'.state, h.state, activationCalls, activationCalls, activationCalls, List.filter_append,
      List.map_append, List.foldl_append]
    rfl
  block r hr := by
    rcases List.mem_append.mp hr with hr | hr
    · exact h.block r hr
    · exact h'.block r hr
  admits r hr hact := by
    rcases List.mem_append.mp hr with hr | hr
    · exact h.admits r hr hact
    · have hm := h'.admits r hr hact
      rw [h.state] at hm
      exact hm.withFeatures (f := n.state.features) FeatureState.mscAlertBlock_foldl_activate.symm

theorem logged_of_rejected {r : TxRecord} (hr : NodeState.isActivation r = false)
    (hblock : r.block = height) : Logged env height n ⟨n.state, n.txList ++ [r]⟩ [r] where
  txList := rfl
  state := by
    rw [activationCalls, List.filter_cons_of_neg (by simp [hr])]
    rfl
  block := by simp [hblock]
  admits := by simp [hr]

theorem logged_of_handlerTx (hx : x.2.IsFeatureMessage)
    (h : handlerTx env others height n x = .ok n') (hnone : NoDeactivation n'.txList) :
    ∃ rs, Logged env height n n' rs ∧ (rs.map fun r => (r.position, r.raw)).Sublist [x] := by
  obtain ⟨rc, s', hs, hn'⟩ := handlerTx_cases h
  have hrejected : NodeState.Rejected rc n.state s' →
      ∃ rs, Logged env height n n' rs ∧ (rs.map fun r => (r.position, r.raw)).Sublist [x] := by
    rintro ⟨hrc, rfl⟩
    rcases hn' with ⟨rfl, -⟩ | rfl
    · exact ⟨[], .nil, List.nil_sublist _⟩
    · exact ⟨_, logged_of_rejected (by simp [NodeState.isActivation, hrc]) rfl, .refl _⟩
  rcases hx with htype | htype
  · rcases NodeState.interpretPacket_activation_cases htype hs with hr | ⟨rfl, hadmits, rfl⟩
    · exact hrejected hr
    · rcases hn' with ⟨-, hlt⟩ | rfl
      · exact absurd hlt (by decide)
      · refine ⟨_, ⟨rfl, ?_, by simp, by simp [hadmits]⟩, .refl _⟩
        rw [activationCalls, List.filter_cons_of_pos (by simp [NodeState.isActivation, htype])]
        rfl
  · rcases NodeState.interpretPacket_deactivation_cases htype hs with hr | rfl
    · exact hrejected hr
    · rcases hn' with ⟨-, hlt⟩ | rfl
      · exact absurd hlt (by decide)
      · have hne := hnone ⟨x.2, height, x.1, decide (0 ≤ (0 : Int))⟩
          (List.mem_append_right _ List.mem_cons_self) (decide_eq_true (le_refl 0))
        exact absurd htype hne

theorem logged_of_foldlM (htxs : ∀ x ∈ txs, x.2.IsFeatureMessage)
    (h : txs.foldlM (handlerTx env others height) n = .ok n') (hnone : NoDeactivation n'.txList) :
    ∃ rs, Logged env height n n' rs ∧ (rs.map fun r => (r.position, r.raw)).Sublist txs := by
  induction txs generalizing n with
  | nil =>
    cases h
    exact ⟨[], .nil, List.nil_sublist _⟩
  | cons x txs ih =>
    rw [List.foldlM_cons, bind_eq_ok] at h
    obtain ⟨m, hm, h⟩ := h
    obtain ⟨hx, htxs⟩ := List.forall_mem_cons.mp htxs
    have hnone' : NoDeactivation m.txList := fun r hr => hnone r (txList_subset_of_foldlM h hr)
    obtain ⟨rs, hlog, hsub⟩ := logged_of_handlerTx hx hm hnone'
    obtain ⟨rs', hlog', hsub'⟩ := ih htxs h
    refine ⟨rs ++ rs', hlog.append hlog', ?_⟩
    rw [List.map_append]
    exact hsub.append hsub'

/-- What a run of blocks does to the features, in terms of the records of each block. -/
structure LoggedBlocks (env : Environment) (blocks : List Block) (n n' : Node)
    (logs : List (Int × List TxRecord)) : Prop where
  heights : logs.map Prod.fst = blocks.map Block.height
  txList : n'.txList = n.txList ++ logs.flatMap Prod.snd
  state : n'.state = n.state.withFeatures
    (n.state.features.liveCalls (logs.map fun l => (l.1, activationCalls l.2)))
  block : ∀ l ∈ logs, ∀ r ∈ l.2, r.block = l.1
  admits : ∀ l ∈ logs, ∀ r ∈ l.2, NodeState.isActivation r = true →
    n.state.AdmitsActivation env r.raw r.block
  positions : ∀ l ∈ logs, l.2.Pairwise fun r r' => r.position < r'.position

theorem txList_subset_of_live (h : live env others n blocks = .ok n') :
    n.txList ⊆ n'.txList := by
  refine foldlM_invariant (P := fun m => n.txList ⊆ m.txList) h (List.Subset.refl _) ?_
  intro m m' b _ hm hb
  exact List.Subset.trans hm (txList_subset_of_foldlM (n := m.handlerBlockBegin b.height) hb)

theorem loggedBlocks_of_live (hpos : ∀ b ∈ blocks, b.txs.Pairwise fun x x' => x.1 < x'.1)
    (hmsgs : ∀ b ∈ blocks, ∀ x ∈ b.txs, x.2.IsFeatureMessage)
    (h : live env others n blocks = .ok n') (hnone : NoDeactivation n'.txList) :
    ∃ logs, LoggedBlocks env blocks n n' logs := by
  induction blocks generalizing n with
  | nil =>
    cases h
    exact ⟨[], rfl, by simp, rfl, by simp, by simp, by simp⟩
  | cons b blocks ih =>
    rw [live, List.foldlM_cons, bind_eq_ok] at h
    obtain ⟨m, hm, h⟩ := h
    obtain ⟨hposb, hpos⟩ := List.forall_mem_cons.mp hpos
    obtain ⟨hmsgb, hmsgs⟩ := List.forall_mem_cons.mp hmsgs
    have hnone' : NoDeactivation m.txList := fun r hr => hnone r (txList_subset_of_live h hr)
    obtain ⟨rs, hlog, hsub⟩ := logged_of_foldlM hmsgb hm hnone'
    obtain ⟨logs, hlogs⟩ := ih hpos hmsgs h
    have hbegin : ∀ raw block, (n.handlerBlockBegin b.height).state.AdmitsActivation env raw block →
        n.state.AdmitsActivation env raw block := by
      intro raw block hadmits
      exact hadmits.withFeatures (f := n.state.features)
        (by simp [handlerBlockBegin, NodeState.params])
    refine ⟨(b.height, rs) :: logs, ?_, ?_, ?_, ?_, ?_, ?_⟩
    · simp [hlogs.heights]
    · rw [hlogs.txList, hlog.txList, List.append_assoc]
      rfl
    · rw [hlogs.state, hlog.state]
      rfl
    · exact List.forall_mem_cons.mpr ⟨hlog.block, hlogs.block⟩
    · refine List.forall_mem_cons.mpr ⟨fun r hr hact => hbegin _ _ (hlog.admits r hr hact), ?_⟩
      intro l hl r hr hact
      have hadmits := hlogs.admits l hl r hr hact
      rw [hlog.state] at hadmits
      refine hbegin _ _
        (hadmits.withFeatures (f := (n.handlerBlockBegin b.height).state.features) ?_)
      exact FeatureState.mscAlertBlock_foldl_activate.symm
    · refine List.forall_mem_cons.mpr ⟨?_, hlogs.positions⟩
      exact (List.pairwise_map (f := fun r : TxRecord => (r.position, r.raw))).mp
        (hposb.sublist hsub)

end Node

/-- Histories that a restart can replay: nothing was deactivated, the activations of one
feature in one block come in the order of their hashes, and no activation of the last block is
live in that block. -/
structure ReplayableFeatures (txList : List TxRecord) (tip : Int) : Prop where
  noDeactivation : NoDeactivation txList
  ordered : ∀ r ∈ txList, ∀ r' ∈ txList, NodeState.isActivation r = true →
    NodeState.isActivation r' = true → r.block = r'.block →
    r.activationCall.featureId = r'.activationCall.featureId → r.position < r'.position →
    r.raw.txid < r'.raw.txid
  future : ∀ r ∈ txList, NodeState.isActivation r = true → r.block = tip →
    tip < r.activationCall.activationBlock

namespace NodeState

variable {s : NodeState} {env : Environment} {others : OtherTypes} {tip : Int}
variable {rs : List TxRecord} {logs : List (Int × List TxRecord)}

theorem foldlM_loadActivation (hact : ∀ r ∈ rs, isActivation r = true)
    (htip : ∀ r ∈ rs, r.block ≤ tip) (hadmits : ∀ r ∈ rs, s.AdmitsActivation env r.raw r.block) :
    rs.foldlM (loadActivation env others tip) s = .ok (s.withFeatures
      ((rs.map TxRecord.activationCall).foldl FeatureState.activate s.features)) := by
  induction rs generalizing s with
  | nil => rfl
  | cons r rs ih =>
    obtain ⟨hr, hact⟩ := List.forall_mem_cons.mp hact
    obtain ⟨hrt, htip⟩ := List.forall_mem_cons.mp htip
    obtain ⟨hra, hadmits⟩ := List.forall_mem_cons.mp hadmits
    have htype : r.raw.type = TransactionType.activation.code := by
      simp only [isActivation, Bool.and_eq_true, decide_eq_true_eq] at hr
      exact hr.1
    obtain ⟨rc, hrun⟩ : ∃ rc, s.interpretPacket env others (r.raw.parse r.block 0).unlockLogic =
        .ok (rc, s.withFeatures (s.features.activate r.activationCall)) :=
      interpretPacket_of_admitsActivation htype hra
    have hload : loadActivation env others tip s r =
        .ok (s.withFeatures (s.features.activate r.activationCall)) := by
      rw [loadActivation, if_neg (not_lt.mpr hrt), TxRecord.stored, hrun]
      rfl
    rw [List.foldlM_cons, hload, ok_bind, ih hact htip]
    · rfl
    · intro r' hr'
      exact (hadmits r' hr').withFeatures FeatureState.mscAlertBlock_activate

theorem loadActivations_eq (htip : ∀ r ∈ rs, r.block ≤ tip)
    (hadmits : ∀ r ∈ rs, isActivation r = true → s.AdmitsActivation env r.raw r.block) :
    s.loadActivations env others rs tip =
      .ok (s.withFeatures (s.features.replayCalls (activationCalls rs) tip)) := by
  have hmem : ∀ r ∈ activationLoadOrder rs, r ∈ rs ∧ isActivation r = true := fun r hr =>
    List.mem_filter.mp ((List.perm_insertionSort _ _).mem_iff.mp hr)
  have hcalls : (activationLoadOrder rs).map TxRecord.activationCall =
      (activationCalls rs).insertionSort fun c c' => c.rank ≤ c'.rank :=
    List.map_insertionSort _ _ _ _ fun _ _ _ _ => Iff.rfl
  rw [loadActivations, foldlM_loadActivation (fun r hr => (hmem r hr).2)
    (fun r hr => htip r (hmem r hr).1) fun r hr => hadmits r (hmem r hr).1 (hmem r hr).2, hcalls]
  rfl

theorem activationCalls_flatMap :
    (logs.map fun l => (l.1, activationCalls l.2)).flatMap Prod.snd =
      activationCalls (logs.flatMap Prod.snd) := by
  rw [activationCalls, List.flatMap_map, List.filter_flatMap, List.map_flatMap]
  rfl

theorem rank_pairwise (hlogs : logs.Pairwise fun l l' => l.1 < l'.1)
    (hblock : ∀ l ∈ logs, ∀ r ∈ l.2, r.block = l.1)
    (hpos : ∀ l ∈ logs, l.2.Pairwise fun r r' => r.position < r'.position)
    (hre : ReplayableFeatures (logs.flatMap Prod.snd) tip) (id : Nat) :
    ((activationCalls (logs.flatMap Prod.snd)).filter fun c => c.featureId = id).Pairwise
      fun c c' => c.rank < c'.rank := by
  have hlex : ∀ {r r' : TxRecord}, r.block < r'.block ∨
      r.block = r'.block ∧ r.raw.txid < r'.raw.txid →
        r.activationCall.rank < r'.activationCall.rank := fun h => Prod.Lex.toLex_lt_toLex.mpr h
  rw [activationCalls, List.pairwise_filter, List.pairwise_map, List.pairwise_filter,
    List.pairwise_flatMap]
  constructor
  · intro l hl
    refine (hpos l hl).imp_of_mem ?_
    intro r r' hr hr' hlt hact hact' hid hid'
    have hmem : ∀ {r}, r ∈ l.2 → r ∈ logs.flatMap Prod.snd := fun hr =>
      List.mem_flatMap.mpr ⟨l, hl, hr⟩
    have hsame : r.block = r'.block := (hblock l hl r hr).trans (hblock l hl r' hr').symm
    simp only [decide_eq_true_eq] at hid hid'
    exact hlex (.inr ⟨hsame, hre.ordered r (hmem hr) r' (hmem hr') hact hact' hsame
      (hid.trans hid'.symm) hlt⟩)
  · refine hlogs.imp_of_mem ?_
    intro l l' hl hl' hlt r hr r' hr' _ _ _ _
    exact hlex (.inl (by rw [hblock l hl r hr, hblock l' hl' r' hr']; exact hlt))

/-- A restart reproduces the features of a replayable history. -/
theorem loadActivations_agrees {network : Network} {n n' : Node} {blocks : List Block}
    {block : Block} (hchain : Node.WellFormedChain (blocks ++ [block]))
    (hstart : n.state.features = .initial network) (hempty : n.txList = [])
    (hmsgs : ∀ b ∈ blocks ++ [block], ∀ x ∈ b.txs, x.2.IsFeatureMessage)
    (hlive : Node.live env others n (blocks ++ [block]) = .ok n')
    (hre : ReplayableFeatures n'.txList block.height) :
    ∃ s, (n'.state.clearFeatures network).loadActivations env others n'.txList block.height =
        .ok s ∧
      (∀ featureId b, TradeLayer.isFeatureActivated s.params featureId b =
        TradeLayer.isFeatureActivated n'.state.params featureId b) ∧
      ∀ a, a ∈ s.features.pendingActivations ↔ a ∈ n'.state.features.pendingActivations := by
  obtain ⟨logs, hlogs⟩ := Node.loggedBlocks_of_live hchain.positions hmsgs hlive hre.noDeactivation
  have htxList : n'.txList = logs.flatMap Prod.snd := by rw [hlogs.txList, hempty, List.nil_append]
  rw [htxList] at hre ⊢
  -- the last block has the last log
  obtain ⟨logs₀, last, rfl, hheights, hlast⟩ : ∃ logs₀ last, logs = logs₀ ++ [last] ∧
      logs₀.map Prod.fst = blocks.map Block.height ∧ last.1 = block.height := by
    have hmap := hlogs.heights
    rw [List.map_append, List.map_eq_append_iff] at hmap
    obtain ⟨logs₀, l, rfl, h₀, h₁⟩ := hmap
    obtain ⟨last, rfl, hlast⟩ := List.map_eq_singleton_iff.mp h₁
    exact ⟨logs₀, last, rfl, h₀, hlast⟩
  have hsorted : (logs₀ ++ [last]).Pairwise fun l l' => l.1 < l'.1 := by
    have hmap : ((logs₀ ++ [last]).map Prod.fst).Pairwise (· < ·) := by
      rw [hlogs.heights]
      exact List.pairwise_map.mpr hchain.heights
    exact List.pairwise_map.mp hmap
  have hclear : n'.state.clearFeatures network = n.state := by
    rw [hlogs.state]
    change n.state.withFeatures (.initial network) = n.state
    rw [← hstart]
    rfl
  have hentries : ∀ r ∈ (logs₀ ++ [last]).flatMap Prod.snd, r.block ≤ block.height ∧
      (isActivation r = true → n.state.AdmitsActivation env r.raw r.block) := by
    intro r hr
    obtain ⟨l, hl, hr⟩ := List.mem_flatMap.mp hr
    refine ⟨?_, hlogs.admits l hl r hr⟩
    rw [hlogs.block l hl r hr, ← hlast]
    rcases List.mem_append.mp hl with hl | hl
    · exact ((List.pairwise_append.mp hsorted).2.2 l hl last List.mem_cons_self).le
    · rw [List.mem_singleton.mp hl]
  have hfuture : ∀ c ∈ activationCalls last.2, block.height < c.activationBlock := by
    intro c hc
    obtain ⟨r, hr, rfl⟩ := List.mem_map.mp hc
    obtain ⟨hr, hact⟩ := List.mem_filter.mp hr
    have hlastmem : last ∈ logs₀ ++ [last] := List.mem_append_right _ List.mem_cons_self
    exact hre.future r (List.mem_flatMap.mpr ⟨last, hlastmem, hr⟩) hact
      ((hlogs.block last hlastmem r hr).trans hlast)
  rw [hclear, loadActivations_eq (fun r hr => (hentries r hr).1) fun r hr => (hentries r hr).2]
  refine ⟨_, rfl, ?_⟩
  rw [hlogs.state]
  have hcalls : (logs₀ ++ [last]).map (fun l => (l.1, activationCalls l.2)) =
      logs₀.map (fun l => (l.1, activationCalls l.2)) ++
        [(block.height, activationCalls last.2)] := by
    rw [List.map_append, ← hlast]
    rfl
  have hrank := rank_pairwise hsorted hlogs.block hlogs.positions hre
  rw [← activationCalls_flatMap, hcalls] at hrank ⊢
  refine FeatureState.replayCalls_agrees ?_ ?_ hfuture hrank
  · rw [hstart]
    exact List.nodup_nil
  · rw [← hcalls]
    exact List.pairwise_map.mpr hsorted

def sampleActivation : RawTransaction where
  txid := 7
  sender := "3Fc5gWzEQh1YGeqVXH6E4GDEGgbZJREJQ3".toList
  receiver := []
  payload := [255, 255, 255, 254, 0, 3, 0, 0, 0, 200, 0, 0, 0, 1]
  fee := 0

def sampleDeactivation : RawTransaction where
  txid := 8
  sender := "34kwkVRSvFVEoUwcQSgpQ4ZUasuZ54DJLD".toList
  receiver := []
  payload := [255, 255, 255, 253, 0, 2]
  fee := 0

theorem loadActivations_agrees_of_sampleActivation :
    ∃ n' s, Node.live (.plain .test) .none ⟨.initial .test .zero, []⟩
        ([⟨100, [(1, sampleActivation)]⟩] ++ [⟨101, []⟩]) = .ok n' ∧
      (n'.state.clearFeatures .test).loadActivations (.plain .test) .none n'.txList 101 = .ok s ∧
      ∀ a, a ∈ s.features.pendingActivations ↔ a ∈ n'.state.features.pendingActivations := by
  obtain ⟨n', hlive, hlist⟩ := exists_ok_of_map (g := Node.txList)
    (x := Node.live (.plain .test) .none ⟨.initial .test .zero, []⟩
      ([⟨100, [(1, sampleActivation)]⟩] ++ [⟨101, []⟩]))
    (b := [⟨sampleActivation, 100, 1, true⟩]) (by decide +kernel)
  have hre : ReplayableFeatures n'.txList 101 := by
    rw [hlist]
    refine ⟨?_, ?_, ?_⟩
    · unfold NoDeactivation
      decide +kernel
    · decide +kernel
    · decide +kernel
  have hchain : Node.WellFormedChain ([⟨100, [(1, sampleActivation)]⟩] ++ [⟨101, []⟩]) :=
    ⟨by decide, by decide⟩
  have hstart : (NodeState.initial .test .zero).features = .initial .test := rfl
  obtain ⟨s, hs, -, hpending⟩ :=
    loadActivations_agrees hchain hstart rfl (by decide +kernel) hlive hre
  exact ⟨n', s, hlive, hs, hpending⟩

/-- A restart brings a deactivated feature back. -/
theorem deactivated_feature_after_restart :
    (do
      let n ← Node.live (.plain .test) .none ⟨.initial .test .zero, []⟩
        [⟨100, [(1, sampleDeactivation)]⟩]
      let s ← (n.state.clearFeatures .test).loadActivations (.plain .test) .none n.txList 100
      return (TradeLayer.isFeatureActivated n.state.params 2 100,
        TradeLayer.isFeatureActivated s.params 2 100)) = .ok (false, true) := by
  decide +kernel

end NodeState

end TradeLayer
