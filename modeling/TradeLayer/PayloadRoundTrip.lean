import TradeLayer.CreatePayload
import TradeLayer.PacketParsers

namespace TradeLayer
open Library Reading

@[simp] theorem ofNat_leNat_singleton (b : UInt8) : UInt8.ofNat (leNat [b]) = b := by
  rw [leNat, leNat, Nat.mul_zero, Nat.add_zero, UInt8.ofNat_toNat]

section Apply

variable (offset : Nat) (memory : List UInt8) (reach : Nat)

@[simp] theorem memcpy8_apply : memcpy8 offset memory reach =
    if ((memory.drop offset).take 1).length = 1 then
      some (.ofNat (leNat ((memory.drop offset).take 1)), max reach (offset + 1))
    else none := by
  rw [memcpy8]
  simp only [bind_apply, bytes_apply (Nat.succ_pos 0), pure_apply]
  split <;> rfl

@[simp] theorem swapped16_apply : swapped16 offset memory reach =
    if ((memory.drop offset).take 2).length = 2 then
      some (swapByteOrder16 (.ofNat (leNat ((memory.drop offset).take 2))),
        max reach (offset + 2))
    else none := by
  rw [swapped16, memcpy16]
  simp only [bind_apply, bytes_apply (Nat.succ_pos 1), pure_apply]
  split <;> rfl

@[simp] theorem swapped32_apply : swapped32 offset memory reach =
    if ((memory.drop offset).take 4).length = 4 then
      some (swapByteOrder32 (.ofNat (leNat ((memory.drop offset).take 4))),
        max reach (offset + 4))
    else none := by
  rw [swapped32, memcpy32]
  simp only [bind_apply, bytes_apply (Nat.succ_pos 3), pure_apply]
  split <;> rfl

@[simp] theorem swapped64_apply : swapped64 offset memory reach =
    if ((memory.drop offset).take 8).length = 8 then
      some (swapByteOrder64 (.ofNat (leNat ((memory.drop offset).take 8))),
        max reach (offset + 8))
    else none := by
  rw [swapped64, memcpy64]
  simp only [bind_apply, bytes_apply (Nat.succ_pos 7), pure_apply]
  split <;> rfl

variable {offset memory reach} {rest : List UInt8}

theorem memcpy8_of_drop {value : UInt8} (h : memory.drop offset = value :: rest) :
    memcpy8 offset memory reach = some (value, max reach (offset + 1)) := by
  rw [memcpy8_apply, h]
  simp

theorem swapped32_of_drop {value : UInt32}
    (h : memory.drop offset = push32 (swapByteOrder32 value) ++ rest) :
    swapped32 offset memory reach = some (value, max reach (offset + 4)) := by
  rw [swapped32_apply, h]
  simp

theorem swapped64_of_drop {value : UInt64}
    (h : memory.drop offset = push64 (swapByteOrder64 value) ++ rest) :
    swapped64 offset memory reach = some (value, max reach (offset + 8)) := by
  rw [swapped64_apply, h]
  simp

end Apply

@[simp] theorem length_header (version type : UInt16) : (header version type).length = 4 := by
  rw [header, List.length_append, length_push16, length_push16]

@[simp] theorem length_pushAmount (propertyId : UInt32) (amount : UInt64) :
    (pushAmount propertyId amount).length = 12 := by
  rw [pushAmount, List.length_append, length_push32, length_push64]

namespace PacketFields

@[simp] theorem receiverOrSender_type (tx : PacketFields) : tx.receiverOrSender.type = tx.type := by
  rw [receiverOrSender]
  split <;> rfl

@[simp] theorem receiverOrSender_version (tx : PacketFields) :
    tx.receiverOrSender.version = tx.version := by
  rw [receiverOrSender]
  split <;> rfl

@[simp] theorem receiverOrSender_property (tx : PacketFields) :
    tx.receiverOrSender.property = tx.property := by
  rw [receiverOrSender]
  split <;> rfl

@[simp] theorem receiverOrSender_nValue (tx : PacketFields) :
    tx.receiverOrSender.nValue = tx.nValue := by
  rw [receiverOrSender]
  split <;> rfl

@[simp] theorem receiverOrSender_ecosystem (tx : PacketFields) :
    tx.receiverOrSender.ecosystem = tx.ecosystem := by
  rw [receiverOrSender]
  split <;> rfl

theorem interpret_header (tx : PacketFields) (env : Environment) (version : UInt16)
    (kind : PacketType) (body behind : List UInt8) :
    ∃ tail, tx.interpret env (header version kind.code ++ body) behind =
      (tx.setHeader version kind.code).interpretPayload env (4 + body.length) kind
        (header version kind.code ++ (body ++ tail)) 4 := by
  refine ⟨List.replicate (CMPTransaction.maxPacketSize -
    (header version kind.code ++ body).length) 0 ++ behind, ?_⟩
  simp only [interpret, packetBuffer, interpretTransaction, interpretTransactionType, atLeast,
    header, List.length_append, length_push16]
  simp [List.drop_append]

theorem readPropertyAndValue_pushAmount (tx : PacketFields) (version type : UInt16)
    (propertyId : UInt32) (amount : UInt64) (rest : List UInt8) :
    tx.readPropertyAndValue (header version type ++ (pushAmount propertyId amount ++ rest)) 4 =
      some ({ tx with property := propertyId, nValue := amount, nNewValue := amount }, 16) := by
  simp [readPropertyAndValue, pushAmount, List.drop_append, List.drop_of_length_le]

end PacketFields

/-- The messages about tokens, their exchange and the administration of features, by the
parameters of their builders. -/
inductive TokenMessage where
  | simpleSend (propertyId : UInt32) (amount : UInt64)
  | sendAll (ecosystem : UInt8)
  | sendToOwners (propertyId : UInt32) (amount : UInt64) (distributionProperty : UInt32)
  | dexSell (propertyId : UInt32) (amountForSale amountDesired : UInt64) (timeLimit : UInt8)
    (minFee : UInt64) (subAction : UInt8)
  | dexAccept (propertyId : UInt32) (amount : UInt64)
  | grant (propertyId : UInt32) (amount : UInt64) (memo : List UInt8)
  | revoke (propertyId : UInt32) (amount : UInt64) (memo : List UInt8)
  | changeIssuer (propertyId : UInt32)
  | enableFreezing (propertyId : UInt32)
  | disableFreezing (propertyId : UInt32)
  | metaDExTrade (propertyIdForSale : UInt32) (amountForSale : UInt64)
    (propertyIdDesired : UInt32) (amountDesired : UInt64)
  | metaDExCancelPrice (propertyIdForSale : UInt32) (amountForSale : UInt64)
    (propertyIdDesired : UInt32) (amountDesired : UInt64)
  | metaDExCancelPair (propertyIdForSale propertyIdDesired : UInt32)
  | metaDExCancelEcosystem (ecosystem : UInt8)
  | deactivateFeature (featureId : UInt16)
  | activateFeature (featureId : UInt16) (activationBlock minClientVersion : UInt32)

namespace TokenMessage

def payload : TokenMessage → List UInt8
  | simpleSend propertyId amount => createPayloadSimpleSend propertyId amount
  | sendAll ecosystem => createPayloadSendAll ecosystem
  | sendToOwners propertyId amount distributionProperty =>
    createPayloadSendToOwners propertyId amount distributionProperty
  | dexSell propertyId amountForSale amountDesired timeLimit minFee subAction =>
    createPayloadDExSell propertyId amountForSale amountDesired timeLimit minFee subAction
  | dexAccept propertyId amount => createPayloadDExAccept propertyId amount
  | grant propertyId amount memo => createPayloadGrant propertyId amount memo
  | revoke propertyId amount memo => createPayloadRevoke propertyId amount memo
  | changeIssuer propertyId => createPayloadChangeIssuer propertyId
  | enableFreezing propertyId => createPayloadEnableFreezing propertyId
  | disableFreezing propertyId => createPayloadDisableFreezing propertyId
  | metaDExTrade propertyIdForSale amountForSale propertyIdDesired amountDesired =>
    createPayloadMetaDExTrade propertyIdForSale amountForSale propertyIdDesired amountDesired
  | metaDExCancelPrice propertyIdForSale amountForSale propertyIdDesired amountDesired =>
    createPayloadMetaDExCancelPrice propertyIdForSale amountForSale propertyIdDesired amountDesired
  | metaDExCancelPair propertyIdForSale propertyIdDesired =>
    createPayloadMetaDExCancelPair propertyIdForSale propertyIdDesired
  | metaDExCancelEcosystem ecosystem => createPayloadMetaDExCancelEcosystem ecosystem
  | deactivateFeature featureId => createPayloadDeactivateFeature featureId
  | activateFeature featureId activationBlock minClientVersion =>
    createPayloadActivateFeature featureId activationBlock minClientVersion

def kind : TokenMessage → PacketType
  | simpleSend .. => .simpleSend
  | sendAll .. => .sendAll
  | sendToOwners .. => .sendToOwners
  | dexSell .. => .tradeOffer
  | dexAccept .. => .acceptOfferBtc
  | grant .. => .grantPropertyTokens
  | revoke .. => .revokePropertyTokens
  | changeIssuer .. => .changeIssuerAddress
  | enableFreezing .. => .enableFreezing
  | disableFreezing .. => .disableFreezing
  | metaDExTrade .. => .metadexTrade
  | metaDExCancelPrice .. => .metadexCancelPrice
  | metaDExCancelPair .. => .metadexCancelPair
  | metaDExCancelEcosystem .. => .metadexCancelEcosystem
  | deactivateFeature .. => .deactivation
  | activateFeature .. => .activation

def version : TokenMessage → UInt16
  | sendToOwners propertyId _ distributionProperty =>
    if propertyId = distributionProperty then 0 else 1
  | dexSell .. => 1
  | deactivateFeature .. | activateFeature .. => 65535
  | _ => 0

/-- The members hold the values that the message was built from. Send To Owners has no other
property in its payload where it is the property itself, and the memo of Grant and Revoke is
stored nowhere. -/
def StoredIn : TokenMessage → PacketFields → Prop
  | simpleSend propertyId amount, tx | dexAccept propertyId amount, tx
  | grant propertyId amount _, tx | revoke propertyId amount _, tx =>
    tx.property = propertyId ∧ tx.nValue = amount
  | sendAll ecosystem, tx | metaDExCancelEcosystem ecosystem, tx => tx.ecosystem = ecosystem
  | sendToOwners propertyId amount distributionProperty, tx =>
    tx.property = propertyId ∧ tx.nValue = amount ∧
      (propertyId ≠ distributionProperty → tx.distributionProperty = distributionProperty)
  | dexSell propertyId amountForSale amountDesired timeLimit minFee subAction, tx =>
    tx.property = propertyId ∧ tx.nValue = amountForSale ∧ tx.amountDesired = amountDesired ∧
      tx.blocktimelimit = timeLimit ∧ tx.minFee = minFee ∧ tx.subaction = subAction
  | changeIssuer propertyId, tx | enableFreezing propertyId, tx
  | disableFreezing propertyId, tx => tx.property = propertyId
  | metaDExTrade propertyIdForSale amountForSale propertyIdDesired amountDesired, tx
  | metaDExCancelPrice propertyIdForSale amountForSale propertyIdDesired amountDesired, tx =>
    tx.property = propertyIdForSale ∧ tx.nValue = amountForSale ∧
      tx.desiredProperty = propertyIdDesired ∧ tx.desiredValue = amountDesired
  | metaDExCancelPair propertyIdForSale propertyIdDesired, tx =>
    tx.property = propertyIdForSale ∧ tx.desiredProperty = propertyIdDesired
  | deactivateFeature featureId, tx => tx.featureId = featureId
  | activateFeature featureId activationBlock minClientVersion, tx =>
    tx.featureId = featureId ∧ tx.activationBlock = activationBlock ∧
      tx.minClientVersion = minClientVersion

def body (m : TokenMessage) : List UInt8 := m.payload.drop 4

theorem payload_eq (m : TokenMessage) : m.payload = header m.version m.kind.code ++ m.body := by
  cases m with
  | sendToOwners propertyId amount distributionProperty =>
    rw [body, payload, createPayloadSendToOwners, version]
    split <;> rfl
  | _ => rfl

open PacketFields

/-- Every message is parsed to the values it was built from. -/
theorem interpret_tokenMessage (m : TokenMessage) (tx : PacketFields) (env : Environment)
    (behind : List UInt8) :
    ∃ tx' reach, tx.interpret env m.payload behind = some (some tx', reach) ∧
      tx'.type = m.kind.code ∧ tx'.version = m.version ∧ m.StoredIn tx' := by
  obtain ⟨tail, h⟩ := tx.interpret_header env m.version m.kind m.body behind
  rw [m.payload_eq, h]
  clear h
  cases m with
  | simpleSend propertyId amount =>
    simp [kind, interpretPayload, interpretSimpleSend, atLeast, StoredIn, body, payload,
      createPayloadSimpleSend, readPropertyAndValue_pushAmount]
  | sendAll ecosystem =>
    simp [kind, interpretPayload, interpretSendAll, atLeast, StoredIn, body, payload,
      createPayloadSendAll, readEcosystem]
  | sendToOwners propertyId amount distributionProperty =>
    by_cases hv : propertyId = distributionProperty
    · simp [kind, interpretPayload, interpretSendToOwners, atLeast, StoredIn, body, payload,
        createPayloadSendToOwners, readPropertyAndValue_pushAmount, version, mpTxPktV0, hv]
    · simp [kind, interpretPayload, interpretSendToOwners, atLeast, StoredIn, body, payload,
        createPayloadSendToOwners, readPropertyAndValue_pushAmount, version, mpTxPktV0, hv,
        List.drop_append, List.drop_of_length_le]
  | dexSell propertyId amountForSale amountDesired timeLimit minFee subAction =>
    simp [kind, interpretPayload, interpretTradeOffer, atLeast, StoredIn, body, payload,
      createPayloadDExSell, readPropertyAndValue_pushAmount, version, mpTxPktV0,
      List.drop_append, List.drop_of_length_le]
  | dexAccept propertyId amount =>
    simp [kind, interpretPayload, interpretAcceptOfferBtc, atLeast, StoredIn, body, payload,
      createPayloadDExAccept, readPropertyAndValue_pushAmount]
  | grant propertyId amount memo =>
    have hsize : ¬ 4 + (12 + (pushText memo).length) < 16 := by omega
    simp [kind, interpretPayload, interpretGrantTokens, atLeast, StoredIn, body, payload,
      createPayloadGrant, readPropertyAndValue_pushAmount, hsize]
  | revoke propertyId amount memo =>
    have hsize : ¬ 4 + (12 + (pushText memo).length) < 16 := by omega
    simp [kind, interpretPayload, interpretRevokeTokens, atLeast, StoredIn, body, payload,
      createPayloadRevoke, readPropertyAndValue_pushAmount, hsize]
  | changeIssuer propertyId =>
    simp [kind, interpretPayload, interpretChangeIssuer, interpretProperty, atLeast, StoredIn,
      body, payload, createPayloadChangeIssuer]
  | enableFreezing propertyId =>
    simp [kind, interpretPayload, interpretEnableFreezing, interpretProperty, atLeast, StoredIn,
      body, payload, createPayloadEnableFreezing]
  | disableFreezing propertyId =>
    simp [kind, interpretPayload, interpretDisableFreezing, interpretProperty, atLeast, StoredIn,
      body, payload, createPayloadDisableFreezing]
  | metaDExTrade propertyIdForSale amountForSale propertyIdDesired amountDesired =>
    simp [kind, interpretPayload, interpretMetaDExTrade, interpretTradeSides, atLeast, StoredIn,
      body, payload, createPayloadMetaDExTrade, readPropertyAndValue_pushAmount,
      List.drop_append, List.drop_of_length_le]
  | metaDExCancelPrice propertyIdForSale amountForSale propertyIdDesired amountDesired =>
    simp [kind, interpretPayload, interpretMetaDExCancelPrice, interpretTradeSides, atLeast,
      StoredIn, body, payload, createPayloadMetaDExCancelPrice, readPropertyAndValue_pushAmount,
      List.drop_append, List.drop_of_length_le]
  | metaDExCancelPair propertyIdForSale propertyIdDesired =>
    simp [kind, interpretPayload, interpretMetaDExCancelPair, atLeast, StoredIn, body, payload,
      createPayloadMetaDExCancelPair, List.drop_append, List.drop_of_length_le]
  | metaDExCancelEcosystem ecosystem =>
    simp [kind, interpretPayload, interpretMetaDExCancelEcosystem, atLeast, StoredIn, body,
      payload, createPayloadMetaDExCancelEcosystem, readEcosystem]
  | deactivateFeature featureId =>
    simp [kind, interpretPayload, interpretDeactivation, atLeast, StoredIn, body, payload,
      createPayloadDeactivateFeature]
  | activateFeature featureId activationBlock minClientVersion =>
    simp [kind, interpretPayload, interpretActivation, atLeast, StoredIn, body, payload,
      createPayloadActivateFeature, List.drop_append, List.drop_of_length_le]

end TokenMessage

end TradeLayer
