import TradeLayer.ManagedMoves

namespace TradeLayer
open Library

namespace FreezeState

variable {s s' : FreezeState} {p : PropertyId} {a : Address} {b : Int}

theorem foldl_liveBlock {l : List (PropertyId × Int)} {init : Int}
    (hs : l.Pairwise fun e e' => toLex e < toLex e') :
    (∀ e ∈ l, e.1 = p → e.2 ≤ l.foldl (fun live e => if p = e.1 then e.2 else live) init) ∧
      ((∃ e ∈ l, e.1 = p) →
        (p, l.foldl (fun live e => if p = e.1 then e.2 else live) init) ∈ l) := by
  induction l using List.reverseRecOn with
  | nil => simp
  | append_singleton l x ih =>
    obtain ⟨hl, -, hx⟩ := List.pairwise_append.mp hs
    obtain ⟨hle, hmem⟩ := ih hl
    rw [List.foldl_append, List.foldl_cons, List.foldl_nil]
    by_cases hp : p = x.1
    · rw [if_pos hp]
      refine ⟨?_, fun _ => List.mem_append_right _ (by simp [hp])⟩
      intro e he hep
      rcases List.mem_append.mp he with he | he
      · rcases Prod.Lex.toLex_lt_toLex.mp (hx e he x List.mem_cons_self) with h | h
        · exact absurd (hep.trans hp) h.ne
        · exact h.2.le
      · rw [List.mem_singleton.mp he]
    · rw [if_neg hp]
      constructor
      · intro e he hep
        rcases List.mem_append.mp he with he | he
        · exact hle e he hep
        · exact absurd (List.mem_singleton.mp he ▸ hep.symm) hp
      · rintro ⟨e, he, hep⟩
        rcases List.mem_append.mp he with he | he
        · exact List.mem_append_left _ (hmem ⟨e, he, hep⟩)
        · exact absurd (List.mem_singleton.mp he ▸ hep.symm) hp

theorem le_lastLiveBlock {e : PropertyId × Int} (he : e ∈ s.setFreezingEnabledProperties)
    (hp : e.1 = p) : e.2 ≤ s.lastLiveBlock p :=
  (foldl_liveBlock s.setFreezingEnabledProperties.sorted).1 e he hp

theorem lastLiveBlock_mem (h : ∃ e ∈ s.setFreezingEnabledProperties, e.1 = p) :
    (p, s.lastLiveBlock p) ∈ s.setFreezingEnabledProperties :=
  (foldl_liveBlock s.setFreezingEnabledProperties.sorted).2 h

/-- The loop gets through only where it has nothing to erase. After an erasure it asserts that
the next element, which is in the set, is not in the set. -/
theorem unfreezeLoop_eq_ok {l : List (Address × PropertyId)} (hn : l.Nodup)
    (hl : ∀ e ∈ l, e ∈ s.setFrozenAddresses) :
    unfreezeLoop p s l = .ok s' ↔ s' = s ∧ ∀ e ∈ l, e.2 ≠ p := by
  induction l with
  | nil => simp [unfreezeLoop, eq_comm]
  | cons e rest ih =>
    obtain ⟨he, hn⟩ := List.nodup_cons.mp hn
    have ih := ih hn fun e he => hl e (List.mem_cons_of_mem _ he)
    by_cases hp : e.2 = p
    · have herror : ∃ err, unfreezeLoop p s (e :: rest) = .error err := by
        cases rest with
        | nil => exact ⟨.undefined, by simp [unfreezeLoop, hp]⟩
        | cons next rest =>
          refine ⟨.assertion, ?_⟩
          rw [unfreezeLoop, if_pos hp]
          have hnext : isAddressFrozen { s with
              setFrozenAddresses := s.setFrozenAddresses.erase (toLex e) } next.1 next.2 =
            true := by
            rw [isAddressFrozen_iff, Keyed.mem_erase]
            refine ⟨hl next (by simp), fun h => he ?_⟩
            rw [← toLex.injective h]
            exact List.mem_cons_self
          simp only [hnext, if_true]
      obtain ⟨err, herr⟩ := herror
      simp [herr, hp]
    · rw [unfreezeLoop, if_neg hp, ih]
      simp [hp]

def OneLiveBlock (s : FreezeState) (p : PropertyId) : Prop :=
  ∀ e ∈ s.setFreezingEnabledProperties, ∀ e' ∈ s.setFreezingEnabledProperties,
    e.1 = p → e'.1 = p → e.2 = e'.2

def NoneFrozen (s : FreezeState) (p : PropertyId) : Prop := ∀ a, s.isAddressFrozen a p = false

/-- What disabling freezing is for: the property loses its entries in both sets and no other
property does. -/
structure DisabledExactly (p : PropertyId) (s s' : FreezeState) : Prop where
  disabled : ∀ b, s'.isFreezingEnabled p b = false
  noneFrozen : s'.NoneFrozen p
  enabled_others : ∀ e, e.1 ≠ p →
    (e ∈ s'.setFreezingEnabledProperties ↔ e ∈ s.setFreezingEnabledProperties)
  frozen_others : ∀ e, e.2 ≠ p → (e ∈ s'.setFrozenAddresses ↔ e ∈ s.setFrozenAddresses)

def eraseLast (s : FreezeState) (p : PropertyId) : FreezeState :=
  { s with setFreezingEnabledProperties :=
      s.setFreezingEnabledProperties.erase (toLex (p, s.lastLiveBlock p)) }

theorem noneFrozen_iff : s.NoneFrozen p ↔ ∀ e ∈ s.setFrozenAddresses, e.2 ≠ p := by
  constructor
  · rintro h ⟨a, q⟩ he rfl
    have hf := h a
    rw [← Bool.not_eq_true, isAddressFrozen_iff] at hf
    exact hf he
  · intro h a
    rw [← Bool.not_eq_true, isAddressFrozen_iff]
    intro he
    exact h _ he rfl

theorem isFreezingEnabled_eraseLast (h : s.OneLiveBlock p) (b : Int) :
    (s.eraseLast p).isFreezingEnabled p b = false := by
  rw [← Bool.not_eq_true, isFreezingEnabled_iff]
  rintro ⟨e, he, hp, -⟩
  rw [eraseLast, Keyed.mem_erase] at he
  have hlast := lastLiveBlock_mem ⟨e, he.1, hp⟩
  refine he.2 (congrArg toLex (Prod.ext hp ?_))
  exact h e he.1 _ hlast hp rfl

theorem oneLiveBlock_of_not_enabled
    (h : (s.eraseLast p).isFreezingEnabled p (s.lastLiveBlock p) = false) : s.OneLiveBlock p := by
  have heq : ∀ e ∈ s.setFreezingEnabledProperties, e.1 = p → e.2 = s.lastLiveBlock p := by
    intro e he hp
    by_contra hne
    rw [← Bool.not_eq_true, isFreezingEnabled_iff] at h
    refine h ⟨e, ?_, hp, le_lastLiveBlock he hp⟩
    rw [eraseLast, Keyed.mem_erase]
    exact ⟨he, fun hk => hne (congrArg Prod.snd (toLex.injective hk))⟩
  intro e he e' he' hp hp'
  rw [heq e he hp, heq e' he' hp']

theorem disableFreezing_eq_ok (hpos : 0 < s.lastLiveBlock p) :
    s.disableFreezing p = .ok s' ↔ s.NoneFrozen p ∧ s.OneLiveBlock p ∧ s' = s.eraseLast p := by
  have hloop : ∀ m, unfreezeLoop p (s.eraseLast p) s.setFrozenAddresses.toList = .ok m ↔
      m = s.eraseLast p ∧ ∀ e ∈ s.setFrozenAddresses.toList, e.2 ≠ p := fun m =>
    unfreezeLoop_eq_ok s.setFrozenAddresses.nodup fun e he => he
  have hrun : s.disableFreezing p = (do
      let m ← unfreezeLoop p (s.eraseLast p) s.setFrozenAddresses.toList
      if m.isFreezingEnabled p (s.lastLiveBlock p) then .error .assertion else .ok m) := by
    rw [disableFreezing, if_pos hpos]
    rfl
  rw [hrun, bind_eq_ok, noneFrozen_iff]
  constructor
  · rintro ⟨m, hm, h⟩
    obtain ⟨rfl, hfrozen⟩ := (hloop m).mp hm
    split_ifs at h with hen
    cases h
    exact ⟨hfrozen, oneLiveBlock_of_not_enabled (by simpa using hen), rfl⟩
  · rintro ⟨hfrozen, hone, rfl⟩
    refine ⟨_, (hloop _).mpr ⟨rfl, hfrozen⟩, ?_⟩
    rw [isFreezingEnabled_eraseLast hone]
    simp

theorem disabledExactly_eraseLast (hone : s.OneLiveBlock p) (hfrozen : s.NoneFrozen p) :
    DisabledExactly p s (s.eraseLast p) where
  disabled := isFreezingEnabled_eraseLast hone
  noneFrozen := hfrozen
  enabled_others e he := by
    rw [eraseLast, Keyed.mem_erase]
    refine ⟨And.left, fun h => ⟨h, fun hk => he ?_⟩⟩
    exact congrArg Prod.fst (toLex.injective hk)
  frozen_others _ _ := Iff.rfl

end FreezeState

namespace NodeState

/-- A step of a run in which freezing messages are processed. Anything else the node does
leaves the freeze sets and the waiting period alone. -/
inductive FreezeStep (env : Environment) : NodeState → NodeState → Prop
  | enableFreezing {s s' : NodeState} {allowed : PropertyId → Bool} {tx : CMPTransaction}
      {rc : Int} (hblock : 0 < tx.block)
      (h : s.logicMathEnableFreezing env allowed tx = .ok (rc, s')) : FreezeStep env s s'
  | disableFreezing {s s' : NodeState} {allowed : PropertyId → Bool} {tx : CMPTransaction}
      {rc : Int} (h : s.logicMathDisableFreezing env allowed tx = .ok (rc, s')) :
      FreezeStep env s s'
  | freezeTokens {s s' : NodeState} {allowed : PropertyId → Bool} {tx : CMPTransaction}
      {rc : Int} (h : s.logicMathFreezeTokens env allowed tx = .ok (rc, s')) :
      FreezeStep env s s'
  | unfreezeTokens {s s' : NodeState} {allowed : PropertyId → Bool} {tx : CMPTransaction}
      {rc : Int} (h : s.logicMathUnfreezeTokens env allowed tx = .ok (rc, s')) :
      FreezeStep env s s'
  | other {s s' : NodeState} (hfreeze : s'.ledger.freeze = s.ledger.freeze)
      (hwait : s'.params.tlFreezeWaitPeriod = s.params.tlFreezeWaitPeriod) : FreezeStep env s s'

abbrev FreezeRun (env : Environment) : NodeState → NodeState → Prop :=
  Relation.ReflTransGen (FreezeStep env)

variable {s s' : NodeState} {env : Environment} {allowed : PropertyId → Bool}
variable {tx : CMPTransaction} {rc : Int}

structure LiveBlocksPositive (s : NodeState) : Prop where
  waitPeriod : 0 ≤ s.params.tlFreezeWaitPeriod
  liveBlock : ∀ e ∈ s.ledger.freeze.setFreezingEnabledProperties, 0 < e.2

theorem LiveBlocksPositive.initial (network : Network) (garbage : SPEntry) :
    LiveBlocksPositive (.initial network garbage) where
  waitPeriod := tlFreezeWaitPeriod_nonneg network
  liveBlock _ he := absurd he Keyed.not_mem_empty

theorem LiveBlocksPositive.withFreeze {f : FreezeState} (hs : LiveBlocksPositive s)
    (hf : ∀ e ∈ f.setFreezingEnabledProperties,
      e ∈ s.ledger.freeze.setFreezingEnabledProperties ∨ 0 < e.2) :
    LiveBlocksPositive (s.withFreeze f) where
  waitPeriod := hs.waitPeriod
  liveBlock e he := by
    rcases hf e he with h | h
    · exact hs.liveBlock e h
    · exact h

theorem LiveBlocksPositive.setFreeze {freeze : Except Abort FreezeState}
    (hs : LiveBlocksPositive s) (h : s.setFreeze freeze = .ok (rc, s'))
    (hf : ∀ f, freeze = .ok f → ∀ e ∈ f.setFreezingEnabledProperties,
      e ∈ s.ledger.freeze.setFreezingEnabledProperties ∨ 0 < e.2) : LiveBlocksPositive s' := by
  obtain ⟨f, hfreeze, -, rfl⟩ := setFreeze_eq_ok.mp h
  exact hs.withFreeze (hf f hfreeze)

theorem LiveBlocksPositive.rejected (hs : LiveBlocksPositive s) (h : Rejected rc s s') :
    LiveBlocksPositive s' := by
  rw [h.2]
  exact hs

theorem liveBlock_pos (hs : LiveBlocksPositive s) (hblock : 0 < tx.block) :
    0 < s.liveBlock tx := by
  have hwait := hs.waitPeriod
  unfold liveBlock
  split_ifs <;> omega

theorem LiveBlocksPositive.step (h : FreezeStep env s s') (hs : LiveBlocksPositive s) :
    LiveBlocksPositive s' := by
  cases h with
  | enableFreezing hblock h =>
    rcases managedByIssuer_cases h with h | ⟨-, h⟩
    · exact hs.rejected h
    split_ifs at h
    · exact hs.rejected (.of_ok (by decide) h)
    · refine hs.setFreeze h fun f hf e he => ?_
      rw [FreezeState.enableFreezing_eq] at hf
      cases hf
      rcases Keyed.mem_insert.mp he with he | ⟨rfl, -⟩
      · exact .inl he
      · exact .inr (liveBlock_pos hs hblock)
  | disableFreezing h =>
    rcases managedByIssuer_cases h with h | ⟨-, h⟩
    · exact hs.rejected h
    split_ifs at h with hen
    · obtain ⟨e, he, hp, -⟩ := FreezeState.isFreezingEnabled_iff.mp hen
      have hlast := hs.liveBlock _ (FreezeState.lastLiveBlock_mem ⟨e, he, hp⟩)
      refine hs.setFreeze h fun f hf e he => ?_
      obtain ⟨-, -, rfl⟩ := (FreezeState.disableFreezing_eq_ok hlast).mp hf
      exact .inl (Keyed.mem_erase.mp he).1
    · exact hs.rejected (.of_ok (by decide) h)
  | freezeTokens h =>
    rcases managedByIssuer_cases h with h | ⟨-, h⟩
    · exact hs.rejected h
    split_ifs at h
    any_goals exact hs.rejected (.of_ok (by decide) h)
    refine hs.setFreeze h fun f hf e he => ?_
    rw [FreezeState.freezeAddress_eq] at hf
    cases hf
    exact .inl he
  | unfreezeTokens h =>
    rcases managedByIssuer_cases h with h | ⟨-, h⟩
    · exact hs.rejected h
    split_ifs at h
    any_goals exact hs.rejected (.of_ok (by decide) h)
    refine hs.setFreeze h fun f hf e he => ?_
    rw [FreezeState.unfreezeAddress_eq] at hf
    cases hf
    exact .inl he
  | other hfreeze hwait =>
    exact ⟨hwait ▸ hs.waitPeriod, fun e he => hs.liveBlock e (hfreeze ▸ he)⟩

theorem LiveBlocksPositive.run (h : FreezeRun env s s') (hs : LiveBlocksPositive s) :
    LiveBlocksPositive s' := by
  induction h with
  | refl => exact hs
  | tail _ h ih => exact ih.step h

/-- Disabling freezing does what it is for exactly where one height is recorded for the property
and no address is frozen for it. Everywhere else it does not return. -/
theorem logicMathDisableFreezing_exact_iff {network : Network} {garbage : SPEntry}
    (hrun : FreezeRun env (.initial network garbage) s) (hchecks : s.IssuerManages env allowed tx)
    (henabled : s.ledger.freeze.isFreezingEnabled tx.property tx.block = true) :
    (∃ s', s.logicMathDisableFreezing env allowed tx = .ok (0, s') ∧
      FreezeState.DisabledExactly tx.property s.ledger.freeze s'.ledger.freeze) ↔
    s.ledger.freeze.OneLiveBlock tx.property ∧ s.ledger.freeze.NoneFrozen tx.property := by
  have hs := (LiveBlocksPositive.initial network garbage).run hrun
  obtain ⟨e, he, hp, -⟩ := FreezeState.isFreezingEnabled_iff.mp henabled
  have hlast := hs.liveBlock _ (FreezeState.lastLiveBlock_mem ⟨e, he, hp⟩)
  rw [logicMathDisableFreezing, managedByIssuer_eq hchecks, henabled]
  simp only [not_true_eq_false, if_false]
  constructor
  · rintro ⟨s', h, -⟩
    obtain ⟨f, hf, -, -⟩ := setFreeze_eq_ok.mp h
    obtain ⟨hfrozen, hone, -⟩ := (FreezeState.disableFreezing_eq_ok hlast).mp hf
    exact ⟨hone, hfrozen⟩
  · rintro ⟨hone, hfrozen⟩
    have hf := (FreezeState.disableFreezing_eq_ok hlast).mpr ⟨hfrozen, hone, rfl⟩
    refine ⟨_, setFreeze_eq_ok.mpr ⟨_, hf, rfl, rfl⟩, ?_⟩
    exact FreezeState.disabledExactly_eraseLast hone hfrozen

def sampleFreezing (type : Nat) (block : Int) : CMPTransaction :=
  { CMPTransaction.setNull with
    type, block, property := 3, sender := ['i'], receiver := ['a'], rpcOnly := false }

def sampleManaged : NodeState := .oneManaged .regtest ['i']

def sampleEnabled : NodeState :=
  let tx := sampleFreezing 71 100
  sampleManaged.after
    (sampleManaged.logicMathEnableFreezing (.plain .regtest) (sampleManaged.typeAllowed tx) tx)

def sampleFrozen : NodeState :=
  let tx := sampleFreezing 185 101
  sampleEnabled.after
    (sampleEnabled.logicMathFreezeTokens (.plain .regtest) (sampleEnabled.typeAllowed tx) tx)

theorem sampleEnabled_run :
    FreezeRun (.plain .regtest) (.initial .regtest .zero) sampleEnabled := by
  have hmanaged : FreezeStep (.plain .regtest) (.initial .regtest .zero) sampleManaged :=
    .other rfl rfl
  obtain ⟨rc, henable⟩ := eq_ok_after (s := sampleManaged)
    (by decide +kernel : (sampleManaged.logicMathEnableFreezing (.plain .regtest)
      (sampleManaged.typeAllowed (sampleFreezing 71 100)) (sampleFreezing 71 100)).toBool = true)
  exact (Relation.ReflTransGen.single hmanaged).tail (.enableFreezing (by decide) henable)

theorem logicMathDisableFreezing_exact_of_sampleEnabled :
    ∃ s', sampleEnabled.logicMathDisableFreezing (.plain .regtest)
        (sampleEnabled.typeAllowed (sampleFreezing 72 102)) (sampleFreezing 72 102) = .ok (0, s') ∧
      FreezeState.DisabledExactly 3 sampleEnabled.ledger.freeze s'.ledger.freeze := by
  refine (logicMathDisableFreezing_exact_iff sampleEnabled_run (by decide +kernel)
    (by decide +kernel)).mpr ⟨?_, ?_⟩
  · unfold FreezeState.OneLiveBlock
    decide +kernel
  · rw [FreezeState.noneFrozen_iff]
    decide +kernel

/-- With a frozen address the loop reads past the end of the set that it has just emptied. -/
theorem logicMathDisableFreezing_of_sampleFrozen :
    FreezeRun (.plain .regtest) (.initial .regtest .zero) sampleFrozen ∧
      sampleFrozen.IssuerManages (.plain .regtest)
        (sampleFrozen.typeAllowed (sampleFreezing 72 102)) (sampleFreezing 72 102) ∧
      sampleFrozen.ledger.freeze.isFreezingEnabled 3 102 = true ∧
      sampleFrozen.logicMathDisableFreezing (.plain .regtest)
        (sampleFrozen.typeAllowed (sampleFreezing 72 102)) (sampleFreezing 72 102) =
          .error .undefined := by
  obtain ⟨rc, hfreeze⟩ := eq_ok_after (s := sampleEnabled)
    (by decide +kernel : (sampleEnabled.logicMathFreezeTokens (.plain .regtest)
      (sampleEnabled.typeAllowed (sampleFreezing 185 101)) (sampleFreezing 185 101)).toBool = true)
  refine ⟨sampleEnabled_run.tail (.freezeTokens hfreeze), by decide +kernel, by decide +kernel, ?_⟩
  apply eq_error_of_failure
  decide +kernel

end NodeState

end TradeLayer
