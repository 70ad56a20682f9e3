import TradeLayer.Activation

namespace TradeLayer

inductive FeatureCall
  | activate (featureId : Nat) (activationBlock : Int) (minClientVersion : Nat)
      (transactionBlock : Int)
  | deactivate (featureId : Nat) (transactionBlock : Int)
  deriving DecidableEq, Repr

namespace FeatureCall

def featureId : FeatureCall → Nat
  | activate id _ _ _ => id
  | deactivate id _ => id

def transactionBlock : FeatureCall → Int
  | activate _ _ _ tb => tb
  | deactivate _ tb => tb

def run (s : FeatureState) : FeatureCall → Bool × FeatureState
  | activate id ab v tb => s.activateFeature id ab v tb
  | deactivate id tb => s.deactivateFeature id tb

def writes : FeatureCall → Int
  | activate _ ab _ _ => ab
  | deactivate _ _ => deactivatedBlock

def IsDeactivation : FeatureCall → Prop
  | activate _ _ _ _ => False
  | deactivate _ _ => True

theorem featureBlock_run (s : FeatureState) (c : FeatureCall) (f : Feature) :
    (c.run s).2.params.featureBlock f =
      if c.featureId = f.id ∧ (c.run s).1 = true then c.writes else s.params.featureBlock f := by
  cases c with
  | activate id ab v tb =>
    simp only [run, FeatureState.activateFeature, FeatureState.addPendingActivation,
      FeatureState.deletePendingActivation, featureId, writes]
    split_ifs <;> simp_all [ConsensusParams.featureBlock_writeFeatureBlock]
  | deactivate id tb =>
    rcases s.deactivateFeature_cases id tb with h | ⟨-, h⟩
    · simp [run, h]
    · simp [run, h, featureId, writes, ConsensusParams.featureBlock_writeFeatureBlock]

end FeatureCall

namespace FeatureState

variable {s : FeatureState} {c : FeatureCall} {calls : List FeatureCall} {f : Feature} {b : Int}

def runCalls (s : FeatureState) : List FeatureCall → FeatureState
  | [] => s
  | c :: calls => (c.run s).2.runCalls calls

def lastSuccessful (s : FeatureState) (f : Feature) : List FeatureCall → Option FeatureCall
  | [] => none
  | c :: calls => ((c.run s).2.lastSuccessful f calls).or
      (if c.featureId = f.id ∧ (c.run s).1 = true then some c else none)

/-- What the history of calls says about a feature at a height: the last successful call
decides, and before the first one the height the parameters started with does. -/
def ActiveByHistory (s : FeatureState) (calls : List FeatureCall) (f : Feature) (b : Int) :
    Prop :=
  match s.lastSuccessful f calls with
  | none => s.params.featureBlock f ≤ b
  | some (.activate _ activationBlock _ _) => activationBlock ≤ b
  | some (.deactivate _ _) => False

theorem featureBlock_runCalls (s : FeatureState) (calls : List FeatureCall) (f : Feature) :
    (s.runCalls calls).params.featureBlock f =
      ((s.lastSuccessful f calls).map FeatureCall.writes).getD (s.params.featureBlock f) := by
  induction calls generalizing s with
  | nil => rfl
  | cons c calls ih =>
    rw [runCalls, ih, lastSuccessful, FeatureCall.featureBlock_run]
    cases (c.run s).2.lastSuccessful f calls with
    | some d => simp
    | none => split_ifs <;> simp

theorem isFeatureActivated_runCalls : isFeatureActivated (s.runCalls calls).params f.id b = true ↔
    ((s.lastSuccessful f calls).map FeatureCall.writes).getD (s.params.featureBlock f) ≤ b := by
  rw [isFeatureActivated_id, decide_eq_true_eq, featureBlock_runCalls]

/-- The parameters agree with the history except where the height that stands for a
deactivation has been reached; there a deactivated feature is live again. -/
theorem isFeatureActivated_iff_activeByHistory (s : FeatureState) (calls : List FeatureCall)
    (f : Feature) (b : Int) :
    ((isFeatureActivated (s.runCalls calls).params f.id b = true ↔ s.ActiveByHistory calls f b) ↔
      (b < deactivatedBlock ∨ ∀ c, s.lastSuccessful f calls = some c → ¬ c.IsDeactivation)) ∧
    ∀ c, s.lastSuccessful f calls = some c → c.IsDeactivation →
      (isFeatureActivated (s.runCalls calls).params f.id b = false ↔ b < deactivatedBlock) := by
  rw [← Bool.not_eq_true, isFeatureActivated_runCalls, ActiveByHistory]
  cases h : s.lastSuccessful f calls with
  | none => simp
  | some c =>
    cases c with
    | activate => simp [FeatureCall.writes, FeatureCall.IsDeactivation]
    | deactivate => simp [FeatureCall.writes, FeatureCall.IsDeactivation]

/-- On the main network the exchange feature is live from height 400000 on. Deactivated at
height 500000 it is live again at height 999999. -/
theorem metadex_live_after_deactivation :
    ((FeatureCall.deactivate Feature.metadex.id 500000).run (initial .main)).1 = true ∧
      (FeatureCall.deactivate Feature.metadex.id 500000).transactionBlock ≤ 999999 ∧
      ¬ (isFeatureActivated ((initial .main).runCalls
            [.deactivate Feature.metadex.id 500000]).params Feature.metadex.id 999999 = true ↔
          (initial .main).ActiveByHistory
            [.deactivate Feature.metadex.id 500000] .metadex 999999) := by
  refine ⟨rfl, by decide, ?_⟩
  intro h
  exact h.mp rfl

end FeatureState

end TradeLayer
