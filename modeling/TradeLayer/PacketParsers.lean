import TradeLayer.PacketFields

namespace TradeLayer
open Library

inductive PacketType where
  | simpleSend | sendToOwners | sendAll | sendVesting
  | tradeOffer | dexBuyOffer | acceptOfferBtc
  | metadexTrade | metadexCancelPrice | metadexCancelPair | metadexCancelEcosystem
  | contractdexTrade | contractdexCancelEcosystem | contractdexClosePosition
  | contractdexCancelOrdersByBlock | createContract
  | createPropertyFixed | createPropertyVariable | createPropertyManual
  | grantPropertyTokens | revokePropertyTokens
  | changeIssuerAddress | enableFreezing | disableFreezing
  | peggedCurrency | redemptionPegged | sendPeggedCurrency
  | createOracleContract | changeOracleRef | setOracle | oracleBackup | closeOracle
  | commitChannel | withdrawalFromChannel | instantTrade | transfer | createChannel
  | contractInstant | newIdRegistration | updateIdRegistration | dexPayment
  | freezePropertyTokens | unfreezePropertyTokens
  | deactivation | activation | alert
  deriving DecidableEq, Repr

namespace PacketType

def code : PacketType → UInt16
  | simpleSend => 0
  | sendToOwners => 3
  | sendAll => 4
  | sendVesting => 5
  | tradeOffer => 20
  | dexBuyOffer => 21
  | acceptOfferBtc => 22
  | metadexTrade => 25
  | metadexCancelPrice => 26
  | metadexCancelPair => 27
  | metadexCancelEcosystem => 28
  | contractdexTrade => 29
  | contractdexCancelEcosystem => 32
  | contractdexClosePosition => 33
  | contractdexCancelOrdersByBlock => 34
  | createContract => 41
  | createPropertyFixed => 50
  | createPropertyVariable => 51
  | createPropertyManual => 54
  | grantPropertyTokens => 55
  | revokePropertyTokens => 56
  | changeIssuerAddress => 70
  | enableFreezing => 71
  | disableFreezing => 72
  | peggedCurrency => 100
  | redemptionPegged => 101
  | sendPeggedCurrency => 102
  | createOracleContract => 103
  | changeOracleRef => 104
  | setOracle => 105
  | oracleBackup => 106
  | closeOracle => 107
  | commitChannel => 108
  | withdrawalFromChannel => 109
  | instantTrade => 110
  | transfer => 112
  | createChannel => 113
  | contractInstant => 114
  | newIdRegistration => 115
  | updateIdRegistration => 116
  | dexPayment => 117
  | freezePropertyTokens => 185
  | unfreezePropertyTokens => 186
  | deactivation => 65533
  | activation => 65534
  | alert => 65535

def all : List PacketType :=
  [simpleSend, sendToOwners, sendAll, sendVesting, tradeOffer, dexBuyOffer, acceptOfferBtc,
    metadexTrade, metadexCancelPrice, metadexCancelPair, metadexCancelEcosystem,
    contractdexTrade, contractdexCancelEcosystem, contractdexClosePosition,
    contractdexCancelOrdersByBlock, createContract, createPropertyFixed, createPropertyVariable,
    createPropertyManual, grantPropertyTokens, revokePropertyTokens, changeIssuerAddress,
    enableFreezing, disableFreezing, peggedCurrency, redemptionPegged, sendPeggedCurrency,
    createOracleContract, changeOracleRef, setOracle, oracleBackup, closeOracle, commitChannel,
    withdrawalFromChannel, instantTrade, transfer, createChannel, contractInstant,
    newIdRegistration, updateIdRegistration, dexPayment, freezePropertyTokens,
    unfreezePropertyTokens, deactivation, activation, alert]

def ofCode (code : UInt16) : Option PacketType := all.find? fun kind => kind.code == code

@[simp] theorem ofCode_code (kind : PacketType) : ofCode kind.code = some kind := by
  cases kind <;> rfl

end PacketType

namespace PacketFields

variable {parse : Reading (Option PacketFields)}
open Reading

variable (tx : PacketFields) (env : Environment) (size : Nat)

/-- A parser that refuses payloads below a size. -/
def atLeast (least : Nat) (parse : Reading (Option PacketFields)) : Reading (Option PacketFields) :=
  if size < least then pure none else parse

theorem atLeast_of_lt {size least : Nat} {memory : List UInt8} {reach : Nat} (h : size < least) :
    atLeast size least parse memory reach = some (none, reach) := by
  rw [atLeast, if_pos h, pure_apply]

theorem atLeast_of_le {size least : Nat}
    (h : least ≤ size) : atLeast size least parse = parse := if_neg (not_lt.mpr h)

def readPropertyAndValue : Reading PacketFields := do
  let property ← swapped32 4
  let nValue ← swapped64 8
  return { tx with property, nValue, nNewValue := nValue }

def interpretSimpleSend : Reading (Option PacketFields) :=
  atLeast size 16 do
    return some (← tx.readPropertyAndValue).receiverOrSender

def interpretSendToOwners : Reading (Option PacketFields) :=
  atLeast size (if tx.version.toNat = mpTxPktV0 then 16 else 20) do
    let read ← tx.readPropertyAndValue
    if mpTxPktV0 < tx.version.toNat then
      let distributionProperty ← swapped32 16
      return some { read with distributionProperty }
    else return some read

/-- The property is set to the ecosystem, as a hint for what shows the message. -/
def readEcosystem : Reading PacketFields := do
  let ecosystem ← memcpy8 4
  return { tx with ecosystem, property := ecosystem.toUInt32 }

def interpretSendAll : Reading (Option PacketFields) :=
  atLeast size 5 do
    return some (← tx.readEcosystem).receiverOrSender

def interpretSendVestingTokens : Reading (Option PacketFields) :=
  atLeast size 16 do
    return some (← tx.readPropertyAndValue)

def interpretTradeOffer : Reading (Option PacketFields) :=
  atLeast size (if tx.version.toNat = mpTxPktV0 then 33 else 34) do
    let read ← tx.readPropertyAndValue
    let amountDesired ← swapped64 16
    let blocktimelimit ← memcpy8 24
    let minFee ← swapped64 25
    let read := { read with amountDesired, blocktimelimit, minFee }
    if mpTxPktV0 < tx.version.toNat then
      let subaction ← memcpy8 33
      return some { read with subaction }
    else return some read

def interpretAcceptOfferBtc : Reading (Option PacketFields) :=
  atLeast size 16 do
    return some (← tx.readPropertyAndValue)

def interpretTradeSides (action : UInt8) : Reading (Option PacketFields) :=
  atLeast size 28 do
    let tx ← tx.readPropertyAndValue
    let desiredProperty ← swapped32 16
    let desiredValue ← swapped64 20
    return some { tx with desiredProperty, desiredValue, action }

def interpretMetaDExTrade : Reading (Option PacketFields) :=
  tx.interpretTradeSides size 1

def interpretMetaDExCancelPrice : Reading (Option PacketFields) :=
  tx.interpretTradeSides size 2

def interpretMetaDExCancelPair : Reading (Option PacketFields) :=
  atLeast size 12 do
    let property ← swapped32 4
    let desiredProperty ← swapped32 8
    return some { tx with
      property, desiredProperty, nValue := 0, nNewValue := 0, desiredValue := 0, action := 3 }

def interpretMetaDExCancelEcosystem : Reading (Option PacketFields) :=
  atLeast size 5 do
    let tx ← tx.readEcosystem
    return some { tx with
      desiredProperty := tx.property, nValue := 0, nNewValue := 0, desiredValue := 0
      action := 4 }

/-- What the three messages that create a property begin with, and where their texts end. -/
def readIssuance : Reading (PacketFields × Nat) := do
  let ecosystem ← memcpy8 4
  let propType ← swapped16 5
  let prevPropId ← swapped32 7
  let (spstr, p) ← texts 5 11
  return ({ tx with
    ecosystem, propType, prevPropId
    category := copyText tx.category (spstr.getD 0 [])
    subcategory := copyText tx.subcategory (spstr.getD 1 [])
    name := copyText tx.name (spstr.getD 2 [])
    url := copyText tx.url (spstr.getD 3 [])
    data := copyText tx.data (spstr.getD 4 []) }, p)

/-- Refused where the position behind the last field is past the payload. -/
def unlessOverrun (p : Nat) : Option PacketFields :=
  if size < p then none else some tx

def interpretCreatePropertyFixed : Reading (Option PacketFields) :=
  atLeast size 25 do
    let (tx, p) ← tx.readIssuance
    let nValue ← swapped64 p
    let tx := { tx with nValue, nNewValue := nValue }
    return tx.unlessOverrun size (p + 8)

def interpretCreatePropertyVariable : Reading (Option PacketFields) :=
  atLeast size 39 do
    let (tx, p) ← tx.readIssuance
    let property ← swapped32 p
    let nValue ← swapped64 (p + 4)
    let deadline ← swapped64 (p + 12)
    let earlyBird ← memcpy8 (p + 20)
    let percentage ← memcpy8 (p + 21)
    let tx := { tx with property, nValue, nNewValue := nValue, deadline, earlyBird, percentage }
    return tx.unlessOverrun size (p + 22)

def interpretCreatePropertyManaged : Reading (Option PacketFields) :=
  atLeast size 17 do
    let (tx, p) ← tx.readIssuance
    return tx.unlessOverrun size p

def interpretGrantTokens : Reading (Option PacketFields) :=
  atLeast size 16 do
    return some (← tx.readPropertyAndValue).receiverOrSender

def interpretRevokeTokens : Reading (Option PacketFields) :=
  atLeast size 16 do
    return some (← tx.readPropertyAndValue)

def interpretProperty : Reading (Option PacketFields) :=
  atLeast size 8 do
    let property ← swapped32 4
    return some { tx with property }

def interpretChangeIssuer : Reading (Option PacketFields) :=
  tx.interpretProperty size

def interpretEnableFreezing : Reading (Option PacketFields) :=
  tx.interpretProperty size

def interpretDisableFreezing : Reading (Option PacketFields) :=
  tx.interpretProperty size

/-- The messages that name an address by the version and the hash in the payload. -/
def interpretAddress : Reading (Option PacketFields) :=
  atLeast size 37 do
    let tx ← tx.readPropertyAndValue
    let addressVersion ← memcpy8 16
    let receiver := env.hashToAddress addressVersion (← bytes 17 20)
    if receiver = [] then return none
    else if env.isValidDestination receiver then return some { tx with receiver }
    else return none

def interpretFreezeTokens : Reading (Option PacketFields) :=
  tx.interpretAddress env size

def interpretUnfreezeTokens : Reading (Option PacketFields) :=
  tx.interpretAddress env size

def interpretDeactivation : Reading (Option PacketFields) :=
  atLeast size 6 do
    let featureId ← swapped16 4
    return some { tx with featureId }

def interpretActivation : Reading (Option PacketFields) :=
  atLeast size 14 do
    let featureId ← swapped16 4
    let activationBlock ← swapped32 6
    let minClientVersion ← swapped32 10
    return some { tx with featureId, activationBlock, minClientVersion }

/-- The position that is tested is the one where the text begins. -/
def interpretAlert : Reading (Option PacketFields) :=
  atLeast size 11 do
    let alertType ← swapped16 4
    let alertExpiry ← swapped32 6
    let p := 10
    let spstr ← text p
    let tx := { tx with alertType, alertExpiry, alertText := copyText tx.alertText spstr }
    return tx.unlessOverrun size p

def interpretDExPayment : Reading (Option PacketFields) :=
  atLeast size 4 do
    return some tx

/-- The numbers end four bytes behind the least size, and the name follows them. -/
def readContract (propType : UInt16) : Reading PacketFields := do
  let ecosystem ← memcpy8 4
  let blocksUntilExpiration ← swapped32 5
  let notionalSize ← swapped32 9
  let collateralCurrency ← swapped32 13
  let marginRequirement ← swapped32 17
  let spstr ← text 21
  return { tx with
    ecosystem, blocksUntilExpiration, notionalSize, collateralCurrency, marginRequirement
    name := copyText tx.name spstr, propType }

def interpretCreateContractDex : Reading (Option PacketFields) :=
  atLeast size 17 do
    return some (← tx.readContract 3)

def interpretCreateOracleContract : Reading (Option PacketFields) :=
  atLeast size 17 do
    return some (← tx.readContract 6)

/-- The name of the contract is stored in `name`. -/
def interpretContractDexTrade : Reading (Option PacketFields) :=
  atLeast size 17 do
    let amount ← swapped64 4
    let effectivePrice ← swapped64 12
    let leverage ← swapped64 20
    let tradingAction ← memcpy8 28
    let spstr ← text 29
    return some { tx with
      amount, effectivePrice, leverage, tradingAction, name := copyText tx.name spstr }

def interpretContractDexCancelEcosystem : Reading (Option PacketFields) :=
  atLeast size 5 do
    let ecosystem ← memcpy8 4
    return some { tx with ecosystem }

def interpretContractDexClosePosition : Reading (Option PacketFields) :=
  atLeast size 9 do
    let ecosystem ← memcpy8 4
    let contractId ← swapped32 5
    return some { tx with ecosystem, contractId }

def interpretContractDexCancelOrdersByBlock : Reading (Option PacketFields) :=
  atLeast size 6 do
    let block ← memcpy8 4
    let idx ← memcpy8 5
    return some { tx with block := setLowByte tx.block block, txIdx := setLowByte tx.txIdx idx }

def interpretSetOracle : Reading (Option PacketFields) :=
  atLeast size 24 do
    let oracleHigh ← swapped64 4
    let oracleLow ← swapped64 12
    let propertyId ← swapped32 20
    return some { tx with oracleHigh, oracleLow, propertyId }

def interpretContractId : Reading (Option PacketFields) :=
  atLeast size 8 do
    let contractId ← swapped32 4
    return some { tx with contractId }

def interpretOracleBackup : Reading (Option PacketFields) :=
  tx.interpretContractId size

def interpretCloseOracle : Reading (Option PacketFields) :=
  tx.interpretContractId size

def interpretChangeOracleRef : Reading (Option PacketFields) :=
  tx.interpretContractId size

def interpretCreateChannel : Reading (Option PacketFields) :=
  atLeast size 5 do
    let block ← memcpy8 4
    let spstr ← text 5
    return some { tx with
      blockForexpiry := setLowByte tx.blockForexpiry block
      channelAddress := copyText tx.channelAddress spstr }

def interpretCommitChannel : Reading (Option PacketFields) :=
  atLeast size 16 do
    let propertyId ← swapped32 4
    let amountCommited ← swapped64 8
    return some { tx with propertyId, amountCommited }

/-- The amount is copied into one member and another one is swapped. -/
def interpretWithdrawalFromChannel : Reading (Option PacketFields) :=
  atLeast size 16 do
    let propertyId ← swapped32 4
    let amountCommited ← memcpy64 8
    return some { tx with
      propertyId, amountCommited, amountToWithdraw := swapByteOrder64 tx.amountToWithdraw }

/-- What the two messages for a trade in a channel begin with, where the members that are swapped
are not those that were copied. -/
def readInstant : Reading PacketFields := do
  let property ← memcpy32 4
  let amountForsale ← memcpy64 8
  let block ← memcpy8 16
  return { tx with
    property, amountForsale
    propertyId := swapByteOrder32 tx.propertyId
    amountToWithdraw := swapByteOrder64 tx.amountToWithdraw
    blockForexpiry := setLowByte tx.blockForexpiry block }

def interpretInstantTrade : Reading (Option PacketFields) :=
  atLeast size 29 do
    let tx ← tx.readInstant
    let desiredProperty ← swapped32 17
    let desiredValue ← memcpy64 21
    return some { tx with desiredProperty, desiredValue }

def interpretContractInstant : Reading (Option PacketFields) :=
  atLeast size 41 do
    let tx ← tx.readInstant
    let price ← swapped64 17
    let itradingAction ← swapped64 25
    let ileverage ← swapped64 33
    return some { tx with price, itradingAction, ileverage }

def interpretNewIdRegistration : Reading (Option PacketFields) :=
  atLeast size 7 do
    let tokens ← memcpy8 4
    let ltc ← memcpy8 5
    let natives ← memcpy8 6
    let oracles ← memcpy8 7
    let (spstr, _) ← texts 2 8
    return some { tx with
      tokens, ltc, natives, oracles
      website := copyText tx.website (spstr.getD 0 [])
      companyName := copyText tx.companyName (spstr.getD 1 []) }

def interpretUpdateIdRegistration : Reading (Option PacketFields) :=
  atLeast size 4 do
    return some tx

def interpretTransfer : Reading (Option PacketFields) :=
  atLeast size 16 do
    let property ← swapped32 4
    let amount ← swapped64 8
    return some { tx with property, amount }

def interpretDExBuy : Reading (Option PacketFields) :=
  atLeast size 34 do
    let propertyId ← swapped32 4
    let nValue ← swapped64 8
    let effectivePrice ← swapped64 16
    let minFee ← swapped64 24
    let timeLimit ← memcpy8 32
    let subAction ← memcpy8 33
    return some { tx with propertyId, nValue, effectivePrice, minFee, timeLimit, subAction }

def interpretCreatePeggedCurrency : Reading (Option PacketFields) :=
  atLeast size 25 do
    let ecosystem ← memcpy8 4
    let prevPropId ← swapped32 5
    let contractId ← swapped32 9
    let propertyId ← swapped32 13
    let amount ← swapped64 17
    let spstr ← text 25
    return some { tx with
      ecosystem, prevPropId, contractId, propertyId, amount
      name := copyText tx.name spstr, propType := 5 }

def interpretSendPeggedCurrency : Reading (Option PacketFields) :=
  atLeast size 16 do
    let propertyId ← swapped32 4
    let amount ← swapped64 8
    return some { tx with propertyId, amount }

def interpretRedemptionPegged : Reading (Option PacketFields) :=
  atLeast size 20 do
    let propertyId ← swapped32 4
    let contractId ← swapped32 8
    let amount ← swapped64 12
    return some { tx with propertyId, contractId, amount }

def interpretPayload : PacketType → Reading (Option PacketFields)
  | .simpleSend => tx.interpretSimpleSend size
  | .sendToOwners => tx.interpretSendToOwners size
  | .sendAll => tx.interpretSendAll size
  | .tradeOffer => tx.interpretTradeOffer size
  | .acceptOfferBtc => tx.interpretAcceptOfferBtc size
  | .metadexTrade => tx.interpretMetaDExTrade size
  | .metadexCancelPrice => tx.interpretMetaDExCancelPrice size
  | .metadexCancelPair => tx.interpretMetaDExCancelPair size
  | .metadexCancelEcosystem => tx.interpretMetaDExCancelEcosystem size
  | .createPropertyFixed => tx.interpretCreatePropertyFixed size
  | .createPropertyVariable => tx.interpretCreatePropertyVariable size
  | .createPropertyManual => tx.interpretCreatePropertyManaged size
  | .grantPropertyTokens => tx.interpretGrantTokens size
  | .revokePropertyTokens => tx.interpretRevokeTokens size
  | .changeIssuerAddress => tx.interpretChangeIssuer size
  | .enableFreezing => tx.interpretEnableFreezing size
  | .disableFreezing => tx.interpretDisableFreezing size
  | .freezePropertyTokens => tx.interpretFreezeTokens env size
  | .unfreezePropertyTokens => tx.interpretUnfreezeTokens env size
  | .deactivation => tx.interpretDeactivation size
  | .activation => tx.interpretActivation size
  | .alert => tx.interpretAlert size
  | .dexPayment => tx.interpretDExPayment size
  | .sendVesting => tx.interpretSendVestingTokens size
  | .createContract => tx.interpretCreateContractDex size
  | .createOracleContract => tx.interpretCreateOracleContract size
  | .contractdexTrade => tx.interpretContractDexTrade size
  | .contractdexCancelEcosystem => tx.interpretContractDexCancelEcosystem size
  | .peggedCurrency => tx.interpretCreatePeggedCurrency size
  | .sendPeggedCurrency => tx.interpretSendPeggedCurrency size
  | .redemptionPegged => tx.interpretRedemptionPegged size
  | .contractdexClosePosition => tx.interpretContractDexClosePosition size
  | .contractdexCancelOrdersByBlock => tx.interpretContractDexCancelOrdersByBlock size
  | .dexBuyOffer => tx.interpretDExBuy size
  | .changeOracleRef => tx.interpretChangeOracleRef size
  | .setOracle => tx.interpretSetOracle size
  | .oracleBackup => tx.interpretOracleBackup size
  | .closeOracle => tx.interpretCloseOracle size
  | .commitChannel => tx.interpretCommitChannel size
  | .withdrawalFromChannel => tx.interpretWithdrawalFromChannel size
  | .instantTrade => tx.interpretInstantTrade size
  | .transfer => tx.interpretTransfer size
  | .createChannel => tx.interpretCreateChannel size
  | .contractInstant => tx.interpretContractInstant size
  | .newIdRegistration => tx.interpretNewIdRegistration size
  | .updateIdRegistration => tx.interpretUpdateIdRegistration size

def interpretTransactionType : Reading (Option PacketFields) :=
  atLeast size 4 do
    let version ← swapped16 0
    let type ← swapped16 2
    return some (tx.setHeader version type)

def interpretTransaction : Reading (Option PacketFields) := do
  match ← tx.interpretTransactionType size with
  | none => return none
  | some tx =>
    match PacketType.ofCode tx.type with
    | some kind => tx.interpretPayload env size kind
    | none => return none

/-- A transaction that carries a payload, parsed with some memory behind its buffer. Beside the
answer stands the end of the furthest byte that was read, and nothing is returned where the parser
leaves the memory. -/
def interpret (payload behind : List UInt8) : Option (Option PacketFields × Nat) :=
  tx.interpretTransaction env payload.length (packetBuffer payload ++ behind) 0

end PacketFields

end TradeLayer
