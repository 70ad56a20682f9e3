import TradeLayer.Exchange
import TradeLayer.Managed

namespace TradeLayer
open Library

variable {kind : TransactionType}
variable (tx : CMPTransaction) (env : Environment) (sender : Address) (others : OtherTypes)

def TransactionType.ofCode : Nat → Option TransactionType
  | 0 => some .simpleSend
  | 3 => some .sendToOwners
  | 4 => some .sendAll
  | 5 => some .sendVesting
  | 20 => some .tradeOffer
  | 22 => some .acceptOfferBtc
  | 25 => some .metadexTrade
  | 26 => some .metadexCancelPrice
  | 27 => some .metadexCancelPair
  | 28 => some .metadexCancelEcosystem
  | 29 => some .contractdexTrade
  | 32 => some .contractdexCancelEcosystem
  | 40 => some .offerAcceptABet
  | 41 => some .createContract
  | 50 => some .createPropertyFixed
  | 51 => some .createPropertyVariable
  | 53 => some .closeCrowdsale
  | 54 => some .createPropertyManual
  | 55 => some .grantPropertyTokens
  | 56 => some .revokePropertyTokens
  | 70 => some .changeIssuerAddress
  | 71 => some .enableFreezing
  | 72 => some .disableFreezing
  | 102 => some .sendPeggedCurrency
  | 103 => some .createOracleContract
  | 108 => some .commitChannel
  | 112 => some .transfer
  | 117 => some .dexPayment
  | 185 => some .freezePropertyTokens
  | 186 => some .unfreezePropertyTokens
  | 65533 => some .deactivation
  | 65534 => some .activation
  | 65535 => some .alert
  | _ => none

@[simp] theorem TransactionType.ofCode_code (kind : TransactionType) :
    TransactionType.ofCode kind.code = some kind := by
  cases kind <;> rfl

theorem TransactionType.ofCode_eq_some {n : Nat} :
    TransactionType.ofCode n = some kind ↔ n = kind.code := by
  constructor
  · intro h
    unfold ofCode at h
    split at h
    all_goals
      cases h
      try rfl
  · rintro rfl
    exact ofCode_code kind

/-- Whether a list of sources, changed by the options of the node, has the sender or admits
anybody. -/
def checkAuthorization (whitelisted : List Address) (sender : Address) : Bool :=
  let whitelisted := (whitelisted ++ env.tlActivationAllowSender).filter fun source =>
    !env.tlActivationIgnoreSender.contains source
  whitelisted.contains sender || whitelisted.contains "any".toList

def checkActivationAuthorization : Bool :=
  checkAuthorization env ["3Fc5gWzEQh1YGeqVXH6E4GDEGgbZJREJQ3".toList,
    "33jx18123xJS59hnHwCgsr6zvYPfiCussh".toList] sender

def checkDeactivationAuthorization : Bool :=
  checkAuthorization env ["34kwkVRSvFVEoUwcQSgpQ4ZUasuZ54DJLD".toList] sender

namespace NodeState

variable (s : NodeState) (env : Environment) (allowed : PropertyId → Bool) (tx : CMPTransaction)

def shutdownIf (f : Feature) (featureId : Nat)
    (shutdown : NodeState → Except Abort (Int × NodeState)) : Except Abort NodeState :=
  if featureId = f.id then (shutdown s).map Prod.snd else .ok s

/-- The trades that a deactivated feature made possible are closed. -/
def closeTrades (featureId : Nat) : Except Abort (Int × NodeState) := do
  let s ← s.shutdownIf .metadex featureId metaDExShutdown
  let s ← s.shutdownIf .tradeAllPairs featureId metaDExShutdownAllPair
  return (0, s)

def logicMathDeactivation : Except Abort (Int × NodeState) :=
  if ¬ allowed tx.property then .ok (pktError - 22, s)
  else if ¬ checkDeactivationAuthorization env tx.sender then .ok (pktError - 51, s)
  else
    match s.features.deactivateFeature tx.featureId tx.block with
    | (false, _) => .ok (pktError - 54, s)
    | (true, features) => closeTrades { s with features } tx.featureId

def logicMathActivation : Except Abort (Int × NodeState) :=
  if ¬ allowed tx.property then .ok (pktError - 22, s)
  else if ¬ checkActivationAuthorization env tx.sender then .ok (pktError - 51, s)
  else
    match s.features.activateFeature tx.featureId (asInt32 tx.activationBlock)
      tx.minClientVersion tx.block with
    | (false, _) => .ok (pktError - 54, s)
    | (true, features) => .ok (0, { s with features })

end NodeState

/-- The parsers and the logic of the message types that have no definition here. -/
structure OtherTypes where
  interpret : CMPTransaction → Option CMPTransaction
  logicMath : NodeState → Environment → CMPTransaction → Except Abort (Int × NodeState)

def CMPTransaction.interpretPayload : Option CMPTransaction :=
  match TransactionType.ofCode tx.type with
  | some .simpleSend => tx.interpretSimpleSend
  | some .sendToOwners => tx.interpretSendToOwners
  | some .sendAll => tx.interpretSendAll
  | some .sendVesting => tx.interpretSendVestingTokens
  | some .tradeOffer => tx.interpretTradeOffer
  | some .acceptOfferBtc => tx.interpretAcceptOfferBtc
  | some .metadexTrade => tx.interpretMetaDExTrade
  | some .metadexCancelPrice => tx.interpretMetaDExCancelPrice
  | some .metadexCancelPair => tx.interpretMetaDExCancelPair
  | some .metadexCancelEcosystem => tx.interpretMetaDExCancelEcosystem
  | some .contractdexTrade => tx.interpretContractDexTrade
  | some .grantPropertyTokens => tx.interpretGrantTokens
  | some .revokePropertyTokens => tx.interpretRevokeTokens
  | some .changeIssuerAddress => tx.interpretChangeIssuer
  | some .enableFreezing => tx.interpretEnableFreezing
  | some .disableFreezing => tx.interpretDisableFreezing
  | some .sendPeggedCurrency => tx.interpretSendPeggedCurrency
  | some .commitChannel => tx.interpretCommitChannel
  | some .transfer => tx.interpretTransfer
  | some .freezePropertyTokens => tx.interpretFreezeTokens env
  | some .unfreezePropertyTokens => tx.interpretUnfreezeTokens env
  | some .deactivation => tx.interpretDeactivation
  | some .activation => tx.interpretActivation
  | _ => others.interpret tx

def CMPTransaction.interpretTransaction : Option CMPTransaction := do
  let tx ← tx.interpretTransactionType
  tx.interpretPayload env others

def CMPTransaction.withHeader : CMPTransaction :=
  { tx with version := readNat tx.pkt 0 2, type := readNat tx.pkt 2 2 }

theorem CMPTransaction.interpretTransaction_eq {tx : CMPTransaction} {env : Environment}
    {others : OtherTypes} : tx.interpretTransaction env others =
      if tx.pkt.length < 4 then none else tx.withHeader.interpretPayload env others := by
  unfold interpretTransaction interpretTransactionType
  split_ifs <;> rfl

def TransactionType.Modelled : TransactionType → Bool
  | .contractdexCancelEcosystem | .offerAcceptABet | .createContract | .createPropertyFixed
  | .createPropertyVariable | .closeCrowdsale | .createPropertyManual | .createOracleContract
  | .dexPayment | .alert => false
  | _ => true

structure CMPTransaction.SameHeader (tx tx' : CMPTransaction) : Prop where
  type : tx'.type = tx.type
  version : tx'.version = tx.version
  sender : tx'.sender = tx.sender
  block : tx'.block = tx.block
  txid : tx'.txid = tx.txid
  txIdx : tx'.txIdx = tx.txIdx

theorem CMPTransaction.sameHeader_of_interpretPayload {tx tx' : CMPTransaction}
    {env : Environment} {others : OtherTypes}
    (hkind : TransactionType.ofCode tx.type = some kind) (hmodelled : kind.Modelled = true)
    (h : tx.interpretPayload env others = some tx') : tx.SameHeader tx' := by
  unfold interpretPayload at h
  rw [hkind] at h
  -- every parser reads fields of its own and, at most, replaces an empty receiver
  cases kind <;> cases hmodelled
  all_goals
    simp only [interpretSimpleSend, interpretSendToOwners, interpretSendAll,
      interpretSendVestingTokens, interpretTradeOffer, interpretAcceptOfferBtc,
      interpretMetaDExTrade, interpretMetaDExCancelPrice, interpretMetaDExCancelPair,
      interpretMetaDExCancelEcosystem, interpretContractDexTrade, interpretGrantTokens,
      interpretRevokeTokens, interpretChangeIssuer, interpretEnableFreezing,
      interpretDisableFreezing, interpretProperty, interpretFreezeTokens, interpretUnfreezeTokens,
      interpretAddress, interpretSendPeggedCurrency, interpretCommitChannel, interpretTransfer,
      interpretDeactivation, interpretActivation, receiverOrSender] at h
    split_ifs at h
    all_goals
      cases h
      exact ⟨rfl, rfl, rfl, rfl, rfl, rfl⟩

theorem CMPTransaction.sameHeader_of_interpretTransaction {tx tx' : CMPTransaction}
    {env : Environment} {others : OtherTypes}
    (hkind : TransactionType.ofCode (readNat tx.pkt 2 2) = some kind)
    (hmodelled : kind.Modelled = true) (h : tx.interpretTransaction env others = some tx') :
    tx.withHeader.SameHeader tx' := by
  rw [interpretTransaction_eq] at h
  split_ifs at h
  exact sameHeader_of_interpretPayload hkind hmodelled h

namespace NodeState

def logicMath (s : NodeState) (env : Environment) (others : OtherTypes) (tx : CMPTransaction) :
    Except Abort (Int × NodeState) :=
  match TransactionType.ofCode tx.type with
  | some .simpleSend => s.logicMathSimpleSend (s.typeAllowed tx) tx
  | some .sendToOwners => s.logicMathSendToOwners env (s.typeAllowed tx) tx
  | some .sendAll => s.logicMathSendAll (s.typeAllowed tx) tx
  | some .sendVesting => s.logicMathSendVestingTokens tx
  | some .tradeOffer => s.logicMathTradeOffer (s.typeAllowed tx) tx
  | some .acceptOfferBtc => s.logicMathAcceptOfferBtc (s.typeAllowed tx) tx
  | some .metadexTrade => s.logicMathMetaDExTrade env (s.typeAllowed tx) tx
  | some .metadexCancelPrice => s.logicMathMetaDExCancelPrice (s.typeAllowed tx) tx
  | some .metadexCancelPair => s.logicMathMetaDExCancelPair (s.typeAllowed tx) tx
  | some .metadexCancelEcosystem => s.logicMathMetaDExCancelEcosystem (s.typeAllowed tx) tx
  | some .contractdexTrade => s.logicMathContractDexTrade env tx
  | some .grantPropertyTokens => s.logicMathGrantTokens env (s.typeAllowed tx) tx
  | some .revokePropertyTokens => s.logicMathRevokeTokens env (s.typeAllowed tx) tx
  | some .changeIssuerAddress => s.logicMathChangeIssuer env (s.typeAllowed tx) tx
  | some .enableFreezing => s.logicMathEnableFreezing env (s.typeAllowed tx) tx
  | some .disableFreezing => s.logicMathDisableFreezing env (s.typeAllowed tx) tx
  | some .sendPeggedCurrency => s.logicMathSendPeggedCurrency (s.typeAllowed tx) tx
  | some .commitChannel => s.logicMathCommitChannel env (s.typeAllowed tx) tx
  | some .transfer => s.logicMathTransfer env (s.typeAllowed tx) tx
  | some .freezePropertyTokens => s.logicMathFreezeTokens env (s.typeAllowed tx) tx
  | some .unfreezePropertyTokens => s.logicMathUnfreezeTokens env (s.typeAllowed tx) tx
  | some .deactivation => s.logicMathDeactivation env (s.typeAllowed tx) tx
  | some .activation => s.logicMathActivation env (s.typeAllowed tx) tx
  | _ => others.logicMath s env tx

def interpretPacket (s : NodeState) (env : Environment) (others : OtherTypes)
    (tx : CMPTransaction) : Except Abort (Int × NodeState) :=
  if tx.rpcOnly then .ok (pktError - 1, s)
  else
    match tx.interpretTransaction env others with
    | none => .ok (pktError - 2, s)
    | some tx =>
      if s.ledger.freeze.isAddressFrozen tx.sender tx.property then .ok (pktError - 3, s)
      else s.logicMath env others tx

variable {s s' : NodeState} {env : Environment} {others : OtherTypes} {tx tx' : CMPTransaction}
variable {rc : Int}

theorem interpretPacket_of_interpret (hrpc : tx.rpcOnly = false)
    (h : tx.interpretTransaction env others = some tx') :
    s.interpretPacket env others tx =
      if s.ledger.freeze.isAddressFrozen tx'.sender tx'.property then .ok (pktError - 3, s)
      else s.logicMath env others tx' := by
  rw [interpretPacket, hrpc, h]
  rfl

theorem interpretPacket_of_interpret_none (hrpc : tx.rpcOnly = false)
    (h : tx.interpretTransaction env others = none) :
    s.interpretPacket env others tx = .ok (pktError - 2, s) := by
  rw [interpretPacket, hrpc, h]
  rfl

theorem interpretPacket_cases {kind : TransactionType}
    (hkind : TransactionType.ofCode (CMPTransaction.readNat tx.pkt 2 2) = some kind)
    (hmodelled : kind.Modelled = true) (h : s.interpretPacket env others tx = .ok (rc, s')) :
    Rejected rc s s' ∨ ∃ tx', ¬ tx.pkt.length < 4 ∧
      tx.withHeader.interpretPayload env others = some tx' ∧ tx.withHeader.SameHeader tx' ∧
      s.ledger.freeze.isAddressFrozen tx'.sender tx'.property = false ∧
      s.logicMath env others tx' = .ok (rc, s') := by
  unfold interpretPacket at h
  rw [CMPTransaction.interpretTransaction_eq] at h
  split_ifs at h with hrpc hlen
  · exact .inl (.of_ok (by decide) h)
  · exact .inl (.of_ok (by decide) h)
  · cases hparse : tx.withHeader.interpretPayload env others with
    | none =>
      rw [hparse] at h
      exact .inl (.of_ok (by decide) h)
    | some tx' =>
      rw [hparse] at h
      dsimp only at h
      split_ifs at h with hfrozen
      · exact .inl (.of_ok (by decide) h)
      · have hheader := CMPTransaction.sameHeader_of_interpretPayload hkind hmodelled hparse
        exact .inr ⟨tx', hlen, rfl, hheader, by simpa using hfrozen, h⟩

def process (s : NodeState) (env : Environment) (others : OtherTypes)
    (txs : List CMPTransaction) : Except Abort NodeState :=
  txs.foldlM (fun s tx => (s.interpretPacket env others tx).map Prod.snd) s

end NodeState

def OtherTypes.none : OtherTypes := ⟨fun _ => .none, fun s _ _ => .ok (pktError - 100, s)⟩

end TradeLayer
