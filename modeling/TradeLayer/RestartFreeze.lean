import TradeLayer.FreezeHistory

namespace TradeLayer
open Library

def TxRecord.place (r : TxRecord) : Int × Nat := (r.block, r.position)

def Block.places (b : Block) : List (Int × Nat) := b.txs.map fun x => (b.height, x.1)

namespace Node

variable {env : Environment} {others : OtherTypes} {n m n' : Node} {height : Int}
variable {x : Nat × RawTransaction} {txs : List (Nat × RawTransaction)} {blocks : List Block}
variable {places places' : List (Int × Nat)}

def Leaves (env : Environment) (others : OtherTypes) (places : List (Int × Nat)) (n n' : Node) :
    Prop :=
  ∃ rs, n'.txList = n.txList ++ rs ∧ NodeState.History env others n.state rs n'.state ∧
    (rs.map TxRecord.place).Sublist places

theorem Leaves.nil : Leaves env others [] n n :=
  ⟨[], (List.append_nil _).symm, .nil, .refl _⟩

theorem Leaves.append (h : Leaves env others places n m) (h' : Leaves env others places' m n') :
    Leaves env others (places ++ places') n n' := by
  obtain ⟨rs, hlist, hist, hsub⟩ := h
  obtain ⟨rs', hlist', hist', hsub'⟩ := h'
  refine ⟨rs ++ rs', ?_, hist.append hist', ?_⟩
  · rw [hlist', hlist, List.append_assoc]
  · rw [List.map_append]
    exact hsub.append hsub'

theorem leaves_of_handlerTx (hx : x.2.IsFreezeMessage)
    (h : handlerTx env others height n x = .ok n') :
    Leaves env others [(height, x.1)] n n' := by
  obtain ⟨rc, s', hs, hn'⟩ := handlerTx_cases h
  rcases NodeState.rejected_or_of_freezeMessage hx hs with ⟨hrc, rfl⟩ | rfl
  · rcases hn' with ⟨rfl, -⟩ | rfl
    · exact ⟨[], (List.append_nil _).symm, .nil, List.nil_sublist _⟩
    · exact ⟨_, rfl, .cons (.refused (decide_eq_false (not_le.mpr hrc))) .nil, .refl _⟩
  · rcases hn' with ⟨-, hlt⟩ | rfl
    · exact absurd hlt (lt_irrefl _)
    · exact ⟨_, rfl, .cons (.done (decide_eq_true (le_refl 0)) hx hs) .nil, .refl _⟩

theorem leaves_of_foldlM (htxs : ∀ x ∈ txs, x.2.IsFreezeMessage)
    (h : txs.foldlM (handlerTx env others height) n = .ok n') :
    Leaves env others (txs.map fun x => (height, x.1)) n n' := by
  induction txs generalizing n with
  | nil =>
    cases h
    exact .nil
  | cons x txs ih =>
    rw [List.foldlM_cons, bind_eq_ok] at h
    obtain ⟨m, hm, h⟩ := h
    obtain ⟨hx, htxs⟩ := List.forall_mem_cons.mp htxs
    exact (leaves_of_handlerTx hx hm).append (ih htxs h)

theorem leaves_of_live (hmsgs : ∀ b ∈ blocks, ∀ x ∈ b.txs, x.2.IsFreezeMessage)
    (h : live env others n blocks = .ok n') :
    Leaves env others (blocks.flatMap Block.places) n n' := by
  induction blocks generalizing n with
  | nil =>
    cases h
    exact .nil
  | cons b blocks ih =>
    rw [live, List.foldlM_cons, bind_eq_ok] at h
    obtain ⟨m, hm, h⟩ := h
    obtain ⟨hb, hmsgs⟩ := List.forall_mem_cons.mp hmsgs
    obtain ⟨rs, hlist, hist, hsub⟩ := leaves_of_foldlM hb hm
    have hblock : Leaves env others b.places n m :=
      ⟨rs, hlist, .newBlock (by simp [NodeState.params]) hist, hsub⟩
    exact hblock.append (ih hmsgs h)

/-- Blocks at heights and positions that machine integers hold. -/
structure SortableChain (blocks : List Block) : Prop extends WellFormedChain blocks where
  height_nonneg : ∀ b ∈ blocks, 0 ≤ b.height
  position_lt : ∀ b ∈ blocks, ∀ x ∈ b.txs, x.1 < 2 ^ 31

theorem WellFormedChain.places_pairwise (h : WellFormedChain blocks) :
    (blocks.flatMap Block.places).Pairwise fun x x' => x.1 < x'.1 ∨ x.1 = x'.1 ∧ x.2 < x'.2 := by
  rw [List.pairwise_flatMap]
  constructor
  · intro b hb
    exact List.pairwise_map.mpr ((h.positions b hb).imp fun hlt => .inr ⟨rfl, hlt⟩)
  · refine h.heights.imp ?_
    intro b b' hlt x hx x' hx'
    obtain ⟨_, -, rfl⟩ := List.mem_map.mp hx
    obtain ⟨_, -, rfl⟩ := List.mem_map.mp hx'
    exact .inl hlt

end Node

/-- Histories that a restart can replay: every change of an issuer leaves the issuer of the
freezing messages before it on record, the heights of the freezing messages are written with
equally many digits, and the main network has two of them once its height is past the limit. -/
structure ReplayableFreezes (network : Network) (db : SPInfo) (txList : List TxRecord)
    (tip : Int) : Prop where
  issuerKept : NodeState.IssuerKept db txList
  sameDigits : ∀ r ∈ txList, ∀ r' ∈ txList, NodeState.isFreezing r = true →
    NodeState.isFreezing r' = true →
    (paddedDigits 6 r.block.toNat).length = (paddedDigits 6 r'.block.toNat).length
  enough : 497000 < tip → network = .main → 2 ≤ (txList.filter NodeState.isFreezing).length

namespace NodeState

variable {env : Environment} {others : OtherTypes} {r r' : TxRecord} {rs : List TxRecord}
variable {tip : Int}

theorem freezeSortKey_lt (h : ChainOrder r r') (hblock : 0 ≤ r.block) (hpos : r.position < 2 ^ 31)
    (hpos' : r'.position < 2 ^ 31)
    (hdigits : (paddedDigits 6 r.block.toNat).length = (paddedDigits 6 r'.block.toNat).length) :
    freezeSortKey r < freezeSortKey r' := by
  rcases h with hlt | ⟨heq, hlt⟩
  · have hnat : r.block.toNat < r'.block.toNat := by omega
    exact append_lt_append hdigits (paddedDigits_lt_paddedDigits hdigits hnat)
  · rw [freezeSortKey, freezeSortKey, heq]
    refine append_lt_append_left (paddedDigits_lt_paddedDigits ?_ hlt)
    rw [length_paddedDigits (by decide) (by omega), length_paddedDigits (by decide) (by omega)]

theorem freezeLoadOrder_eq (hord : rs.Pairwise ChainOrder) (hblock : ∀ r ∈ rs, 0 ≤ r.block)
    (hpos : ∀ r ∈ rs, r.position < 2 ^ 31)
    (hdigits : ∀ r ∈ rs, ∀ r' ∈ rs, isFreezing r = true → isFreezing r' = true →
      (paddedDigits 6 r.block.toNat).length = (paddedDigits 6 r'.block.toNat).length) :
    freezeLoadOrder rs = rs.filter isFreezing := by
  refine List.Pairwise.insertionSort_eq ((List.pairwise_filter.mpr ?_))
  refine hord.imp_of_mem ?_
  intro r r' hr hr' hlt hf hf'
  exact Prod.Lex.toLex_le_toLex.mpr (.inl (freezeSortKey_lt hlt (hblock r hr) (hpos r hr)
    (hpos r' hr') (hdigits r hr r' hr' hf hf')))

/-- A restart reproduces the freeze sets of a replayable history. -/
theorem loadFreezeState_agrees {n n' : Node} {blocks : List Block}
    (hchain : Node.SortableChain blocks) (htip : ∀ b ∈ blocks, b.height ≤ tip)
    (hstart : n.state.ledger.freeze = .clear) (hempty : n.txList = [])
    (hmsgs : ∀ b ∈ blocks, ∀ x ∈ b.txs, x.2.IsFreezeMessage)
    (hlive : Node.live env others n blocks = .ok n')
    (hre : ReplayableFreezes env.network n.state.spInfo n'.txList tip) :
    ∃ s, n'.state.clearFreezeState.loadFreezeState env others n'.txList tip = .ok (some s) ∧
      s.ledger.freeze = n'.state.ledger.freeze := by
  obtain ⟨rs, hlist, hist, hsub⟩ := Node.leaves_of_live hmsgs hlive
  rw [hempty, List.nil_append] at hlist
  rw [hlist] at hre ⊢
  have hplace : ∀ r ∈ rs, ∃ b ∈ blocks, b.height = r.block ∧ ∃ x ∈ b.txs, x.1 = r.position := by
    intro r hr
    obtain ⟨b, hb, hp⟩ := List.mem_flatMap.mp (hsub.subset (List.mem_map.mpr ⟨r, hr, rfl⟩))
    obtain ⟨x, hx, heq⟩ := List.mem_map.mp hp
    exact ⟨b, hb, congrArg Prod.fst heq, x, hx, congrArg Prod.snd heq⟩
  have hord : rs.Pairwise ChainOrder :=
    (List.pairwise_map (f := TxRecord.place)).mp (hchain.places_pairwise.sublist hsub)
  have hblock : ∀ r ∈ rs, 0 ≤ r.block := by
    intro r hr
    obtain ⟨b, hb, heq, -⟩ := hplace r hr
    exact heq ▸ hchain.height_nonneg b hb
  have hpos : ∀ r ∈ rs, r.position < 2 ^ 31 := by
    intro r hr
    obtain ⟨b, hb, -, x, hx, heq⟩ := hplace r hr
    exact heq ▸ hchain.position_lt b hb x hx
  have htip' : ∀ r ∈ rs, r.block ≤ tip := by
    intro r hr
    obtain ⟨b, hb, heq, -⟩ := hplace r hr
    exact heq ▸ htip b hb
  have hloop := loadFreezeLoop_of_history hist htip' hord hre.issuerKept 0
  have hclear : n'.state.clearFreezeState = n'.state.withFreeze n.state.ledger.freeze := by
    rw [hstart]
    rfl
  refine ⟨n'.state, ?_, rfl⟩
  rw [loadFreezeState, freezeLoadOrder_eq hord hblock hpos hre.sameDigits, hclear, hloop, ok_bind]
  dsimp only
  rw [if_neg]
  · rfl
  · rintro ⟨hlimit, hmain, hfew⟩
    have := hre.enough hlimit hmain
    omega

def sampleIssuerMessage (txid : Nat) (type : UInt8) (sender receiver : Address) :
    RawTransaction where
  txid := txid
  sender := sender
  receiver := receiver
  payload := [0, 0, 0, type, 0, 0, 0, 3]
  fee := 0

def sampleHandover : List Block :=
  [⟨100, [(1, sampleIssuerMessage 7 71 ['i'] [])]⟩,
    ⟨101, [(1, sampleIssuerMessage 8 70 ['i'] ['j'])]⟩]

theorem loadFreezeState_agrees_of_sampleHandover :
    ∃ n' s, Node.live (.plain .regtest) .none ⟨.oneManaged .regtest ['i'], []⟩ sampleHandover =
        .ok n' ∧
      n'.state.ledger.freeze.isFreezingEnabled 3 101 = true ∧
      n'.state.clearFreezeState.loadFreezeState (.plain .regtest) .none n'.txList 101 =
        .ok (some s) ∧ s.ledger.freeze = n'.state.ledger.freeze := by
  obtain ⟨n', hlive, hn'⟩ := exists_ok_of_map
    (g := fun n => (n.txList, n.state.ledger.freeze.isFreezingEnabled 3 101))
    (x := Node.live (.plain .regtest) .none ⟨.oneManaged .regtest ['i'], []⟩ sampleHandover)
    (b := ([⟨sampleIssuerMessage 7 71 ['i'] [], 100, 1, true⟩,
      ⟨sampleIssuerMessage 8 70 ['i'] ['j'], 101, 1, true⟩], true)) (by decide +kernel)
  obtain ⟨hlist, henabled⟩ := Prod.mk.inj hn'
  have hre : ReplayableFreezes .regtest (SPInfo.oneManaged ['i']) n'.txList 101 := by
    rw [hlist]
    refine ⟨?_, by decide +kernel, nofun⟩
    intro r hr r' hr' hf hc _ _
    simp only [List.mem_cons, List.not_mem_nil, or_false] at hr hr'
    rcases hr with rfl | rfl
    · rcases hr' with rfl | rfl
      · exact absurd hc (by decide +kernel)
      · exact ⟨by decide, .inl ⟨_, rfl, _, Keyed.mem_assign.mpr (.inl rfl), by decide⟩⟩
    · exact absurd hf (by decide +kernel)
  have hchain : Node.SortableChain sampleHandover :=
    ⟨⟨by decide, by decide⟩, by decide, by decide⟩
  have henable : (sampleIssuerMessage 7 71 ['i'] []).IsFreezeMessage :=
    ⟨.enableFreezing, by decide +kernel, .inl rfl⟩
  have hchange : (sampleIssuerMessage 8 70 ['i'] ['j']).IsFreezeMessage :=
    ⟨.changeIssuerAddress, by decide +kernel, .inr rfl⟩
  obtain ⟨s, hs, hfreeze⟩ := loadFreezeState_agrees hchain (by decide) rfl rfl
    (by simp [sampleHandover, henable, hchange]) hlive hre
  exact ⟨n', s, hlive, henabled, hs, hfreeze⟩

/-- An issuer enables freezing and hands the property over in one block: the restart takes the
new issuer for the sender and gives up. -/
theorem freezeState_lost_after_restart :
    (do
      let n ← Node.live (.plain .regtest) .none ⟨.oneManaged .regtest ['i'], []⟩
        [⟨100, [(1, sampleIssuerMessage 7 71 ['i'] []), (2, sampleIssuerMessage 8 70 ['i'] ['j'])]⟩]
      let s ← n.state.clearFreezeState.loadFreezeState (.plain .regtest) .none n.txList 100
      return (n.txList.map TxRecord.valid, n.state.ledger.freeze.isFreezingEnabled 3 100,
        s.isSome)) = .ok ([true, true], true, false) := by
  decide +kernel

end NodeState

end TradeLayer
