import TradeLayer.PacketReads
import TradeLayer.PayloadRoundTrip

namespace TradeLayer
open Library Reading

structure ShortText where
  bytes : List UInt8
  short : bytes.length ≤ 255
  clean : 0 ∉ bytes
  nonempty : bytes ≠ []

/-- The messages about contracts, channels and pegged currencies, by the parameters of their
builders. -/
inductive DerivativeMessage where
  | contractDexTrade (nameTraded : ShortText) (amountForSale effectivePrice : UInt64)
    (tradingAction : UInt8) (leverage : UInt64)
  | closePosition (ecosystem : UInt8) (contractId : UInt32)
  | setOracle (contractId : UInt32) (high low : UInt64)
  | commitChannel (propertyId : UInt32) (amount : UInt64)
  | withdrawalFromChannel (propertyId : UInt32) (amount : UInt64)
  | instantTrade (propertyId : UInt32) (amount : UInt64)
    (blockheightExpiry propertyDesired : UInt32) (amountDesired : UInt64)
  | transfer (propertyId : UInt32) (amount : UInt64)
  | createChannel (channelAddress : ShortText) (blocks : UInt32)
  | newIdRegistration (website name : ShortText) (tokens ltc natives oracles : UInt8)
  | dexBuy (propertyId : UInt32) (amount price : UInt64) (timeLimit : UInt8) (minFee : UInt64)
    (subAction : UInt8)
  | issuancePegged (ecosystem : UInt8) (previousPropertyId : UInt32) (name : ShortText)
    (propertyId contractId : UInt32) (amount : UInt64)
  | sendPeggedCurrency (propertyId : UInt32) (amount : UInt64)
  | redemptionPegged (propertyId contractId : UInt32) (amount : UInt64)

namespace DerivativeMessage

def payload : DerivativeMessage → List UInt8
  | contractDexTrade nameTraded amountForSale effectivePrice tradingAction leverage =>
    createPayloadContractDexTrade nameTraded.bytes amountForSale effectivePrice tradingAction
      leverage
  | closePosition ecosystem contractId =>
    createPayloadContractDexClosePosition ecosystem contractId
  | setOracle contractId high low => createPayloadSetOracle contractId high low
  | commitChannel propertyId amount => createPayloadCommitChannel propertyId amount
  | withdrawalFromChannel propertyId amount =>
    createPayloadWithdrawalFromChannel propertyId amount
  | instantTrade propertyId amount blockheightExpiry propertyDesired amountDesired =>
    createPayloadInstantTrade propertyId amount blockheightExpiry propertyDesired amountDesired
  | transfer propertyId amount => createPayloadTransfer propertyId amount
  | createChannel channelAddress blocks => createPayloadCreateChannel channelAddress.bytes blocks
  | newIdRegistration website name tokens ltc natives oracles =>
    createPayloadNewIdRegistration website.bytes name.bytes tokens ltc natives oracles
  | dexBuy propertyId amount price timeLimit minFee subAction =>
    createPayloadDEx propertyId amount price timeLimit minFee subAction
  | issuancePegged ecosystem previousPropertyId name propertyId contractId amount =>
    createPayloadIssuancePegged ecosystem previousPropertyId name.bytes propertyId contractId amount
  | sendPeggedCurrency propertyId amount => createPayloadSendPeggedCurrency propertyId amount
  | redemptionPegged propertyId contractId amount =>
    createPayloadRedemptionPegged propertyId contractId amount

def kind : DerivativeMessage → PacketType
  | contractDexTrade .. => .contractdexTrade
  | closePosition .. => .contractdexClosePosition
  | setOracle .. => .setOracle
  | commitChannel .. => .commitChannel
  | withdrawalFromChannel .. => .withdrawalFromChannel
  | instantTrade .. => .instantTrade
  | transfer .. => .transfer
  | createChannel .. => .createChannel
  | newIdRegistration .. => .newIdRegistration
  | dexBuy .. => .dexBuyOffer
  | issuancePegged .. => .peggedCurrency
  | sendPeggedCurrency .. => .sendPeggedCurrency
  | redemptionPegged .. => .redemptionPegged

/-- The encoded values stand in the members that the logic of the message reads, or, where the
logic reads none, in the member that its parser has for them. -/
def StoredIn : DerivativeMessage → PacketFields → Prop
  | contractDexTrade nameTraded amountForSale effectivePrice tradingAction leverage, tx =>
    tx.nameTraded = nameTraded.bytes ∧ tx.amount = amountForSale ∧
      tx.effectivePrice = effectivePrice ∧ tx.tradingAction = tradingAction ∧
      tx.leverage = leverage
  | closePosition ecosystem contractId, tx =>
    tx.ecosystem = ecosystem ∧ tx.contractId = contractId
  | setOracle contractId high low, tx =>
    tx.contractId = contractId ∧ tx.oracleHigh = high ∧ tx.oracleLow = low
  | commitChannel propertyId amount, tx =>
    tx.propertyId = propertyId ∧ tx.amountCommited = amount
  | withdrawalFromChannel propertyId amount, tx =>
    tx.propertyId = propertyId ∧ tx.amountToWithdraw = amount
  | instantTrade propertyId amount blockheightExpiry propertyDesired amountDesired, tx =>
    tx.property = propertyId ∧ tx.amountForsale = amount ∧
      tx.blockForexpiry = blockheightExpiry ∧ tx.desiredProperty = propertyDesired ∧
      tx.desiredValue = amountDesired
  | transfer propertyId amount, tx | sendPeggedCurrency propertyId amount, tx =>
    tx.propertyId = propertyId ∧ tx.amount = amount
  | createChannel channelAddress blocks, tx =>
    tx.channelAddress = channelAddress.bytes ∧ tx.blockForexpiry = blocks
  | newIdRegistration website name tokens ltc natives oracles, tx =>
    tx.website = website.bytes ∧ tx.companyName = name.bytes ∧ tx.tokens = tokens ∧
      tx.ltc = ltc ∧ tx.natives = natives ∧ tx.oracles = oracles
  | dexBuy propertyId amount _ timeLimit minFee subAction, tx =>
    tx.propertyId = propertyId ∧ tx.nValue = amount ∧ tx.timeLimit = timeLimit ∧
      tx.minFee = minFee ∧ tx.subAction = subAction
  | issuancePegged ecosystem previousPropertyId name propertyId contractId amount, tx =>
    tx.ecosystem = ecosystem ∧ tx.prevPropId = previousPropertyId ∧ tx.name = name.bytes ∧
      tx.propertyId = propertyId ∧ tx.contractId = contractId ∧ tx.amount = amount
  | redemptionPegged propertyId contractId amount, tx =>
    tx.propertyId = propertyId ∧ tx.contractId = contractId ∧ tx.amount = amount

/-- A transaction that was set up with the payload of the message is parsed to the type and to
the values of the message. -/
def RoundTrips (m : DerivativeMessage) : Prop :=
  ∀ (left : PacketFields) (sender receiver : Address) (nValue : UInt64) (block idx : UInt32)
    (env : Environment) (behind : List UInt8), ∃ tx reach,
    (left.setNull.set sender receiver nValue block idx).interpret env m.payload behind =
      some (some tx, reach) ∧ tx.type = m.kind.code ∧ m.StoredIn tx

def IsClosePosition : DerivativeMessage → Prop
  | closePosition .. => True
  | _ => False

open PacketFields

theorem payloadType_plainHeader (version type : UInt16) (body : List UInt8) :
    payloadType (plainHeader version type ++ body) = PacketType.ofCode (swapByteOrder16 type) := by
  have hsize : ¬ (plainHeader version type ++ body).length < 4 := by
    rw [plainHeader, List.length_append, List.length_append, length_push16, length_push16]
    omega
  rw [payloadType, if_neg hsize, wordAt]
  simp [plainHeader]

theorem not_roundTrips_of_plainHeader {m : DerivativeMessage} {version type : UInt16}
    {body : List UInt8} (hpayload : m.payload = plainHeader version type ++ body)
    (htype : PacketType.ofCode (swapByteOrder16 type) = none) : ¬ m.RoundTrips := by
  intro h
  obtain ⟨tx, reach, hparse, -⟩ := h default [] [] 0 0 0 (.plain .main) []
  have hnone : payloadType m.payload = none := by
    rw [hpayload, payloadType_plainHeader, htype]
  obtain ⟨reach', hrefused⟩ := interpret_of_payloadType_none hnone
    ((default : PacketFields).setNull.set [] [] 0 0 0) (.plain .main) []
  cases hparse.symm.trans hrefused

theorem closePosition_roundTrips (ecosystem : UInt8) (contractId : UInt32) :
    (closePosition ecosystem contractId).RoundTrips := by
  intro left sender receiver nValue block idx env behind
  obtain ⟨tail, h⟩ := (left.setNull.set sender receiver nValue block idx).interpret_header env 0
    .contractdexClosePosition (ecosystem :: push32 (swapByteOrder32 contractId)) behind
  have hpayload : (closePosition ecosystem contractId).payload = header 0
      PacketType.contractdexClosePosition.code ++
        ecosystem :: push32 (swapByteOrder32 contractId) := rfl
  rw [hpayload, h]
  simp [interpretPayload, interpretContractDexClosePosition, atLeast, StoredIn, kind,
    List.drop_append, List.drop_of_length_le]

theorem nameTraded_of_interpretContractDexTrade {tx tx' : PacketFields} {size reach reach' : Nat}
    {memory : List UInt8}
    (h : tx.interpretContractDexTrade size memory reach = some (some tx', reach')) :
    tx'.nameTraded = tx.nameTraded := by
  by_cases hsize : size < 17
  · cases (atLeast_of_lt hsize).symm.trans h
  · simp only [interpretContractDexTrade, atLeast_of_le (not_lt.mp hsize), bind_apply,
      Option.bind_eq_some_iff, Prod.exists, pure_apply, Option.some.injEq, Prod.mk.injEq] at h
    obtain ⟨_, _, -, _, _, -, _, _, -, _, _, -, _, _, -, rfl, -⟩ := h
    rfl

theorem not_contractDexTrade_roundTrips (nameTraded : ShortText)
    (amountForSale effectivePrice : UInt64) (tradingAction : UInt8) (leverage : UInt64) :
    ¬ (contractDexTrade nameTraded amountForSale effectivePrice tradingAction
      leverage).RoundTrips := by
  intro h
  obtain ⟨tx, reach, hparse, -, hname, -⟩ := h default [] [] 0 0 0 (.plain .main) []
  obtain ⟨tail, hinterpret⟩ := ((default : PacketFields).setNull.set [] [] 0 0
    0).interpret_header (.plain .main) 0 .contractdexTrade
      (push64 (swapByteOrder64 amountForSale) ++
      (push64 (swapByteOrder64 effectivePrice) ++ (push64 (swapByteOrder64 leverage) ++
        tradingAction :: pushText nameTraded.bytes))) []
  have hempty : tx.nameTraded = [] :=
    nameTraded_of_interpretContractDexTrade (hinterpret.symm.trans hparse)
  exact nameTraded.nonempty (hname.symm.trans hempty)

/-- A commit to a channel, built with its type in the byte order of the machine. -/
theorem not_roundTrips_of_sampleCommit :
    (commitChannel 1 5).payload = [0, 0, 108, 0, 0, 0, 0, 1, 0, 0, 0, 0, 0, 0, 0, 5] ∧
      ¬ (commitChannel 1 5).RoundTrips :=
  ⟨by decide, not_roundTrips_of_plainHeader rfl (by decide)⟩

/-- Of these messages only the one to close a position is parsed to what it was built from. -/
theorem roundTrips_iff_isClosePosition (m : DerivativeMessage) :
    m.RoundTrips ↔ m.IsClosePosition := by
  cases m with
  | closePosition ecosystem contractId =>
    exact iff_of_true (closePosition_roundTrips ecosystem contractId) trivial
  | contractDexTrade nameTraded amountForSale effectivePrice tradingAction leverage =>
    exact iff_of_false (not_contractDexTrade_roundTrips nameTraded amountForSale effectivePrice
      tradingAction leverage) id
  | _ => exact iff_of_false (not_roundTrips_of_plainHeader rfl (by decide)) id

end DerivativeMessage

end TradeLayer
