import TradeLayer.Basic

namespace TradeLayer

inductive TransactionType
  | simpleSend
  | sendToOwners
  | sendAll
  | sendVesting
  | tradeOffer
  | acceptOfferBtc
  | metadexTrade
  | metadexCancelPrice
  | metadexCancelPair
  | metadexCancelEcosystem
  | contractdexTrade
  | contractdexCancelEcosystem
  | offerAcceptABet
  | createContract
  | createPropertyFixed
  | createPropertyVariable
  | closeCrowdsale
  | createPropertyManual
  | grantPropertyTokens
  | revokePropertyTokens
  | changeIssuerAddress
  | enableFreezing
  | disableFreezing
  | sendPeggedCurrency
  | createOracleContract
  | commitChannel
  | transfer
  | dexPayment
  | freezePropertyTokens
  | unfreezePropertyTokens
  | deactivation
  | activation
  | alert
  deriving DecidableEq, Repr

def TransactionType.code : TransactionType → Nat
  | simpleSend => 0
  | sendToOwners => 3
  | sendAll => 4
  | sendVesting => 5
  | tradeOffer => 20
  | acceptOfferBtc => 22
  | metadexTrade => 25
  | metadexCancelPrice => 26
  | metadexCancelPair => 27
  | metadexCancelEcosystem => 28
  | contractdexTrade => 29
  | contractdexCancelEcosystem => 32
  | offerAcceptABet => 40
  | createContract => 41
  | createPropertyFixed => 50
  | createPropertyVariable => 51
  | closeCrowdsale => 53
  | createPropertyManual => 54
  | grantPropertyTokens => 55
  | revokePropertyTokens => 56
  | changeIssuerAddress => 70
  | enableFreezing => 71
  | disableFreezing => 72
  | sendPeggedCurrency => 102
  | createOracleContract => 103
  | commitChannel => 108
  | transfer => 112
  | dexPayment => 117
  | freezePropertyTokens => 185
  | unfreezePropertyTokens => 186
  | deactivation => 65533
  | activation => 65534
  | alert => 65535

def mpTxPktV0 : Nat := 0
def mpTxPktV1 : Nat := 1

inductive Feature
  | classC
  | metadex
  | betting
  | grantEffects
  | dexMath
  | sendAll
  | spCrowdCrossover
  | tradeAllPairs
  | fees
  | stov1
  | freezeNotice
  | freeDex
  deriving DecidableEq, Repr

def Feature.id : Feature → Nat
  | classC => 1
  | metadex => 2
  | betting => 3
  | grantEffects => 4
  | dexMath => 5
  | sendAll => 6
  | spCrowdCrossover => 7
  | tradeAllPairs => 8
  | fees => 9
  | stov1 => 10
  | freezeNotice => 14
  | freeDex => 15

/-- The features the switches of the source name; every other identifier falls to their
default branches. -/
def Feature.ofId : Nat → Option Feature
  | 1 => some classC
  | 2 => some metadex
  | 3 => some betting
  | 4 => some grantEffects
  | 5 => some dexMath
  | 6 => some sendAll
  | 7 => some spCrowdCrossover
  | 8 => some tradeAllPairs
  | 9 => some fees
  | 10 => some stov1
  | 14 => some freezeNotice
  | 15 => some freeDex
  | _ => none

@[simp] theorem Feature.ofId_id (f : Feature) : Feature.ofId f.id = some f := by
  cases f <;> rfl

theorem Feature.id_of_ofId {n : Nat} {f : Feature} (h : Feature.ofId n = some f) : f.id = n := by
  unfold Feature.ofId at h
  split at h <;> simp_all [Feature.id]
  all_goals (subst h; rfl)

structure ConsensusParams where
  minActivationBlocks : Int
  maxActivationBlocks : Int
  tlFreezeWaitPeriod : Int
  nulldataBlock : Int
  mscAlertBlock : Int
  mscSendBlock : Int
  mscDexBlock : Int
  mscSpBlock : Int
  mscManualspBlock : Int
  mscStoBlock : Int
  mscMetadexBlock : Int
  mscSendAllBlock : Int
  mscBetBlock : Int
  mscContractdexBlock : Int
  mscStov1Block : Int
  grantEffectsFeatureBlock : Int
  dexMathFeatureBlock : Int
  spCrowdCrossoverFeatureBlock : Int
  tradeAllPairsFeatureBlock : Int
  feesFeatureBlock : Int
  freezeNoticeFeatureBlock : Int
  freeDexFeatureBlock : Int
  deriving DecidableEq, Repr

def mainConsensusParams : ConsensusParams where
  minActivationBlocks := 2048
  maxActivationBlocks := 12288
  tlFreezeWaitPeriod := 4096
  nulldataBlock := 395000
  mscAlertBlock := 0
  mscSendBlock := 249498
  mscDexBlock := 290630
  mscSpBlock := 297110
  mscManualspBlock := 323230
  mscStoBlock := 342650
  mscMetadexBlock := 400000
  mscSendAllBlock := 395000
  mscBetBlock := 999999
  mscContractdexBlock := 0
  mscStov1Block := 999999
  grantEffectsFeatureBlock := 394500
  dexMathFeatureBlock := 395000
  spCrowdCrossoverFeatureBlock := 395000
  tradeAllPairsFeatureBlock := 438500
  feesFeatureBlock := 999999
  freezeNoticeFeatureBlock := 999999
  freeDexFeatureBlock := 999999

def testNetConsensusParams : ConsensusParams where
  minActivationBlocks := 0
  maxActivationBlocks := 999999
  tlFreezeWaitPeriod := 0
  nulldataBlock := 0
  mscAlertBlock := 0
  mscSendBlock := 0
  mscDexBlock := 0
  mscSpBlock := 0
  mscManualspBlock := 0
  mscStoBlock := 0
  mscMetadexBlock := 0
  mscSendAllBlock := 0
  mscBetBlock := 999999
  mscContractdexBlock := 0
  mscStov1Block := 0
  grantEffectsFeatureBlock := 0
  dexMathFeatureBlock := 0
  spCrowdCrossoverFeatureBlock := 0
  tradeAllPairsFeatureBlock := 0
  feesFeatureBlock := 0
  freezeNoticeFeatureBlock := 0
  freeDexFeatureBlock := 0

def regTestConsensusParams : ConsensusParams :=
  { testNetConsensusParams with
    minActivationBlocks := 5
    maxActivationBlocks := 10
    tlFreezeWaitPeriod := 10
    mscStov1Block := 999999
    grantEffectsFeatureBlock := 999999
    dexMathFeatureBlock := 999999
    spCrowdCrossoverFeatureBlock := 999999
    tradeAllPairsFeatureBlock := 999999
    feesFeatureBlock := 999999
    freezeNoticeFeatureBlock := 999999
    freeDexFeatureBlock := 999999 }

inductive Network
  | main
  | test
  | regtest
  deriving DecidableEq, Repr

/-- The parameters a network starts with, and goes back to when they are reset. -/
def consensusParams : Network → ConsensusParams
  | .main => mainConsensusParams
  | .test => testNetConsensusParams
  | .regtest => regTestConsensusParams

theorem tlFreezeWaitPeriod_nonneg (network : Network) :
    0 ≤ (consensusParams network).tlFreezeWaitPeriod := by
  cases network <;> decide

namespace ConsensusParams

def featureBlock (params : ConsensusParams) : Feature → Int
  | .classC => params.nulldataBlock
  | .metadex => params.mscMetadexBlock
  | .betting => params.mscBetBlock
  | .grantEffects => params.grantEffectsFeatureBlock
  | .dexMath => params.dexMathFeatureBlock
  | .sendAll => params.mscSendAllBlock
  | .spCrowdCrossover => params.spCrowdCrossoverFeatureBlock
  | .tradeAllPairs => params.tradeAllPairsFeatureBlock
  | .fees => params.feesFeatureBlock
  | .stov1 => params.mscStov1Block
  | .freezeNotice => params.freezeNoticeFeatureBlock
  | .freeDex => params.freeDexFeatureBlock

def setFeatureBlock (params : ConsensusParams) (b : Int) : Feature → ConsensusParams
  | .classC => { params with nulldataBlock := b }
  | .metadex => { params with mscMetadexBlock := b }
  | .betting => { params with mscBetBlock := b }
  | .grantEffects => { params with grantEffectsFeatureBlock := b }
  | .dexMath => { params with dexMathFeatureBlock := b }
  | .sendAll => { params with mscSendAllBlock := b }
  | .spCrowdCrossover => { params with spCrowdCrossoverFeatureBlock := b }
  | .tradeAllPairs => { params with tradeAllPairsFeatureBlock := b }
  | .fees => { params with feesFeatureBlock := b }
  | .stov1 => { params with mscStov1Block := b }
  | .freezeNotice => { params with freezeNoticeFeatureBlock := b }
  | .freeDex => { params with freeDexFeatureBlock := b }

theorem featureBlock_setFeatureBlock (params : ConsensusParams) (b : Int) (f g : Feature) :
    (params.setFeatureBlock b f).featureBlock g = if g = f then b else params.featureBlock g := by
  cases f <;> cases g <;> rfl

@[simp] theorem minActivationBlocks_setFeatureBlock (params : ConsensusParams) (b : Int)
    (f : Feature) : (params.setFeatureBlock b f).minActivationBlocks
      = params.minActivationBlocks := by
  cases f <;> rfl

@[simp] theorem maxActivationBlocks_setFeatureBlock (params : ConsensusParams) (b : Int)
    (f : Feature) : (params.setFeatureBlock b f).maxActivationBlocks
      = params.maxActivationBlocks := by
  cases f <;> rfl

end ConsensusParams

structure TransactionRestriction where
  txType : TransactionType
  txVersion : Nat
  allowWildcard : Bool
  activationBlock : Int

def ConsensusParams.getRestrictions (params : ConsensusParams) : List TransactionRestriction :=
  [⟨.alert, 0xFFFF, true, params.mscAlertBlock⟩,
   ⟨.activation, 0xFFFF, true, params.mscAlertBlock⟩,
   ⟨.deactivation, 0xFFFF, true, params.mscAlertBlock⟩,
   ⟨.simpleSend, mpTxPktV0, false, params.mscSendBlock⟩,
   ⟨.tradeOffer, mpTxPktV0, false, params.mscDexBlock⟩,
   ⟨.tradeOffer, mpTxPktV1, false, params.mscDexBlock⟩,
   ⟨.acceptOfferBtc, mpTxPktV0, false, params.mscDexBlock⟩,
   ⟨.createPropertyFixed, mpTxPktV0, false, params.mscSpBlock⟩,
   ⟨.createPropertyVariable, mpTxPktV0, false, params.mscSpBlock⟩,
   ⟨.createPropertyVariable, mpTxPktV1, false, params.mscSpBlock⟩,
   ⟨.closeCrowdsale, mpTxPktV0, false, params.mscSpBlock⟩,
   ⟨.createPropertyManual, mpTxPktV0, false, params.mscManualspBlock⟩,
   ⟨.grantPropertyTokens, mpTxPktV0, false, params.mscManualspBlock⟩,
   ⟨.revokePropertyTokens, mpTxPktV0, false, params.mscManualspBlock⟩,
   ⟨.changeIssuerAddress, mpTxPktV0, false, params.mscManualspBlock⟩,
   ⟨.enableFreezing, mpTxPktV0, false, params.mscManualspBlock⟩,
   ⟨.disableFreezing, mpTxPktV0, false, params.mscManualspBlock⟩,
   ⟨.freezePropertyTokens, mpTxPktV0, false, params.mscManualspBlock⟩,
   ⟨.unfreezePropertyTokens, mpTxPktV0, false, params.mscManualspBlock⟩,
   ⟨.sendToOwners, mpTxPktV0, false, params.mscStoBlock⟩,
   ⟨.sendToOwners, mpTxPktV1, false, params.mscStov1Block⟩,
   ⟨.metadexTrade, mpTxPktV0, false, params.mscMetadexBlock⟩,
   ⟨.metadexCancelPrice, mpTxPktV0, false, params.mscMetadexBlock⟩,
   ⟨.metadexCancelPair, mpTxPktV0, false, params.mscMetadexBlock⟩,
   ⟨.metadexCancelEcosystem, mpTxPktV0, false, params.mscMetadexBlock⟩,
   ⟨.sendAll, mpTxPktV0, false, params.mscSendAllBlock⟩,
   ⟨.offerAcceptABet, mpTxPktV0, false, params.mscBetBlock⟩,
   ⟨.dexPayment, mpTxPktV0, true, params.mscContractdexBlock⟩,
   ⟨.createContract, mpTxPktV0, true, params.mscContractdexBlock⟩,
   ⟨.createOracleContract, mpTxPktV0, true, params.mscContractdexBlock⟩,
   ⟨.contractdexCancelEcosystem, mpTxPktV0, true, params.mscContractdexBlock⟩]

def TransactionRestriction.allows (entry : TransactionRestriction) (txBlock : Int)
    (txProperty : PropertyId) (txType version : Nat) : Bool :=
  entry.txType.code = txType && entry.txVersion = version &&
    (txProperty ≠ tlPropertyBtc || entry.allowWildcard) &&
      (isTestEcosystemProperty txProperty || entry.activationBlock ≤ txBlock)

def isTransactionTypeAllowed (params : ConsensusParams) (txBlock : Int)
    (txProperty : PropertyId) (txType version : Nat) : Bool :=
  params.getRestrictions.any fun entry => entry.allows txBlock txProperty txType version

def isFeatureActivated (params : ConsensusParams) (featureId : Nat) (transactionBlock : Int) :
    Bool :=
  match Feature.ofId featureId with
  | none => false
  | some f => params.featureBlock f ≤ transactionBlock

@[simp] theorem isFeatureActivated_id (params : ConsensusParams) (f : Feature) (b : Int) :
    isFeatureActivated params f.id b = decide (params.featureBlock f ≤ b) := by
  simp [isFeatureActivated]

structure FeatureActivation where
  featureId : Nat
  activationBlock : Int
  minClientVersion : Nat
  featureName : String
  deriving DecidableEq, Repr

/-- The consensus parameters, which activations overwrite, and the two activation vectors. -/
structure FeatureState where
  params : ConsensusParams
  pendingActivations : List FeatureActivation
  completedActivations : List FeatureActivation
  deriving DecidableEq, Repr

def getFeatureName (featureId : Nat) : String :=
  match Feature.ofId featureId with
  | some .classC => "Class C transaction encoding"
  | some .metadex => "Distributed Meta Token Exchange"
  | some .betting => "Bet transactions"
  | some .grantEffects => "Remove grant side effects"
  | some .dexMath => "DEx integer math update"
  | some .sendAll => "Send All transactions"
  | some .spCrowdCrossover => "Disable crowdsale ecosystem crossovers"
  | some .tradeAllPairs => "Allow trading all pairs on the Distributed Exchange"
  | some .fees => "Fee system (inc 0.05% fee from trades of non-Trade Layer pairs)"
  | some .stov1 => "Cross-property Send To Owners"
  | some .freezeNotice => "Activate the waiting period for enabling freezing"
  | some .freeDex => "Activate trading of any token on the distributed exchange"
  | none => "Unknown feature"

/-- The height that a deactivation writes in place of an activation height. -/
def deactivatedBlock : Int := 999999

/-- The switch that stores an activation height, with nothing to store for an identifier that
no feature has. -/
def ConsensusParams.writeFeatureBlock (params : ConsensusParams) (featureId : Nat) (b : Int) :
    ConsensusParams :=
  match Feature.ofId featureId with
  | some f => params.setFeatureBlock b f
  | none => params

theorem ConsensusParams.featureBlock_writeFeatureBlock (params : ConsensusParams) (id : Nat)
    (b : Int) (f : Feature) : (params.writeFeatureBlock id b).featureBlock f =
      if id = f.id then b else params.featureBlock f := by
  unfold writeFeatureBlock
  cases hg : Feature.ofId id with
  | none =>
    have hid : id ≠ f.id := by
      rintro rfl
      simp at hg
    simp [hid]
  | some g =>
    have hid : id = f.id ↔ f = g := by
      constructor
      · rintro rfl
        simpa using hg
      · rintro rfl
        exact (Feature.id_of_ofId hg).symm
    simp [featureBlock_setFeatureBlock, hid]

namespace FeatureState

def initial (network : Network) : FeatureState :=
  ⟨consensusParams network, [], []⟩

def deletePendingActivation (s : FeatureState) (featureId : Nat) : FeatureState :=
  { s with pendingActivations := s.pendingActivations.filter fun a => a.featureId ≠ featureId }

def addPendingActivation (s : FeatureState) (featureId : Nat) (activationBlock : Int)
    (minClientVersion : Nat) (featureName : String) : FeatureState :=
  let s := s.deletePendingActivation featureId
  { s with pendingActivations := s.pendingActivations ++
      [⟨featureId, activationBlock, minClientVersion, featureName⟩] }

def pendingActivationCompleted (s : FeatureState) (activation : FeatureActivation) :
    FeatureState :=
  let s := s.deletePendingActivation activation.featureId
  { s with completedActivations := s.completedActivations ++ [activation] }

/-- Walks a copy of the pending activations taken before the first one completes. -/
def checkLiveActivations (s : FeatureState) (blockHeight : Int) : FeatureState :=
  s.pendingActivations.foldl
    (fun s a => if blockHeight < a.activationBlock then s else s.pendingActivationCompleted a) s

theorem params_foldl_completed {s : FeatureState} {h : Int} {l : List FeatureActivation} :
    (l.foldl (fun s x => if h < x.activationBlock then s
      else s.pendingActivationCompleted x) s).params = s.params := by
  induction l generalizing s with
  | nil => rfl
  | cons x l ih =>
    rw [List.foldl_cons, ih]
    split_ifs <;> rfl

@[simp] theorem params_checkLiveActivations {s : FeatureState} {h : Int} :
    (s.checkLiveActivations h).params = s.params :=
  params_foldl_completed

def clearActivations (s : FeatureState) : FeatureState :=
  { s with pendingActivations := [], completedActivations := [] }

def resetConsensusParams (s : FeatureState) (network : Network) : FeatureState :=
  { s with params := consensusParams network }

/-- An identifier that no feature has is accepted too: it is recorded as pending and writes no
parameter. -/
def activateFeature (s : FeatureState) (featureId : Nat) (activationBlock : Int)
    (minClientVersion : Nat) (transactionBlock : Int) : Bool × FeatureState :=
  if activationBlock < transactionBlock + s.params.minActivationBlocks ∨
      transactionBlock + s.params.maxActivationBlocks < activationBlock then (false, s)
  else if isFeatureActivated s.params featureId transactionBlock then (false, s)
  else
    let s := { s with params := s.params.writeFeatureBlock featureId activationBlock }
    (true, s.addPendingActivation featureId activationBlock minClientVersion
      (getFeatureName featureId))

def deactivateFeature (s : FeatureState) (featureId : Nat) (transactionBlock : Int) :
    Bool × FeatureState :=
  if isFeatureActivated s.params featureId transactionBlock then
    match Feature.ofId featureId with
    | some _ =>
      (true, { s with params := s.params.writeFeatureBlock featureId deactivatedBlock })
    | none => (false, s)
  else (false, s)

theorem deactivateFeature_cases (s : FeatureState) (id : Nat) (tb : Int) :
    s.deactivateFeature id tb = (false, s) ∨
      isFeatureActivated s.params id tb = true ∧ s.deactivateFeature id tb =
        (true, { s with params := s.params.writeFeatureBlock id deactivatedBlock }) := by
  unfold deactivateFeature ConsensusParams.writeFeatureBlock
  split_ifs with hlive
  · cases h : Feature.ofId id with
    | none => exact .inl rfl
    | some f => exact .inr ⟨hlive, rfl⟩
  · exact .inl rfl

end FeatureState

end TradeLayer
