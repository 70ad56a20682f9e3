import TradeLayer.FeeCache
import TradeLayer.Transaction

namespace TradeLayer
open Library

def transferFeePerOwner : Int := 1
def transferFeePerOwnerV1 : Int := 1000

/-- Zero or more than a signed variable can hold. -/
def valueOutOfRange (nValue : UInt64) : Bool := nValue = 0 || 2 ^ 63 ≤ nValue.toNat

/-- A wire amount taken from one account and given to another. It is negated before it is read
as a signed number. -/
def wireTransfer (k k' : Account) (amount : UInt64) : List (Posting Account) :=
  [⟨k, asInt64 (-amount)⟩, ⟨k', asInt64 amount⟩]

namespace NodeState

variable (s : NodeState) (env : Environment) (allowed : PropertyId → Bool) (tx : CMPTransaction)
variable (receivers : OwnerAddrType)

def typeAllowed (propertyId : PropertyId) : Bool :=
  isTransactionTypeAllowed s.params tx.block propertyId tx.type tx.version

/-- The logic functions ask whether their type is allowed. `allowed` stands for the answer. -/
def logicMathSimpleSend : Except Abort (Int × NodeState) :=
  if ¬ allowed tx.property then .ok (pktErrorSend - 22, s)
  else if valueOutOfRange tx.nValue then .ok (pktErrorSend - 23, s)
  else if ¬ s.spInfo.isPropertyIdValid tx.property then .ok (pktErrorSend - 24, s)
  else if s.ledger.getTokenBalance tx.sender tx.property .balance < asInt64 tx.nValue then
    .ok (pktErrorSend - 25, s)
  else do
    let s ← s.assertTallies (wireTransfer ⟨tx.sender, tx.property, .balance⟩
      ⟨tx.receiver, tx.property, .balance⟩ tx.nValue)
    return (0, s)

def stoFeeProperty : PropertyId :=
  if isTestEcosystemProperty tx.property then tlPropertyTmsc else tlPropertyMsc

def stoTransferFee : Int :=
  (if tx.version = mpTxPktV0 then transferFeePerOwner else transferFeePerOwnerV1) *
    receivers.toList.length

/-- What a distribution books: the sender pays every receiver, the largest amount first. -/
def stoPostings : List (Posting Account) :=
  receivers.toList.reverse.flatMap fun r => Posting.transfer ⟨tx.sender, tx.property, .balance⟩
    ⟨r.2, tx.property, .balance⟩ r.1

/-- The fee of the first version is credited to nobody. -/
def stoCreditFee (fee : Int) : Except Abort NodeState :=
  if tx.version = mpTxPktV0 then .ok s else s.addFee env (stoFeeProperty tx) tx.block fee

/-- After the first version the number of tokens has changed. -/
def stoNotify : Except Abort NodeState :=
  if tx.version = mpTxPktV0 then s.notifyTotalTokensChanged env tlPropertyMsc tx.block else .ok s

/-- The execution of a distribution once everything has been checked. -/
def stoExecute : Except Abort (Int × NodeState) := do
  let fee := stoTransferFee tx receivers
  let s ← s.assertTally tx.sender (stoFeeProperty tx) (-fee) .balance
  let s ← s.stoCreditFee env tx fee
  let s ← s.assertTallies (stoPostings tx receivers)
  if receivers.total ≠ asInt64 tx.nValue then .error .assertion
  else do
    let s ← s.stoNotify env tx
    return (0, s)

def stoPayFee : Except Abort (Int × NodeState) :=
  let fee := stoTransferFee tx receivers
  let nBalanceFee := s.ledger.getTokenBalance tx.sender (stoFeeProperty tx) .balance
  if receivers.toList.length = 0 then .ok (pktErrorSto - 26, s)
  else if stoFeeProperty tx ≠ tx.property then
    if nBalanceFee < fee then .ok (pktErrorSto - 27, s) else s.stoExecute env tx receivers
  else do
    let needed ← checked64 (asInt64 tx.nValue + fee)
    if nBalanceFee < needed then return (pktErrorSto - 28, s)
    else s.stoExecute env tx receivers

def stoDistributeTo : PropertyId :=
  if tx.version = mpTxPktV0 then tx.property else tx.distributionProperty

def logicMathSendToOwners : Except Abort (Int × NodeState) :=
  if ¬ allowed tx.property then .ok (pktErrorSto - 22, s)
  else if valueOutOfRange tx.nValue then .ok (pktErrorSto - 23, s)
  else if ¬ s.spInfo.isPropertyIdValid tx.property then .ok (pktErrorSto - 24, s)
  else if mpTxPktV0 < tx.version ∧ ¬ s.spInfo.isPropertyIdValid tx.distributionProperty then
    .ok (pktErrorSto - 24, s)
  else if s.ledger.getTokenBalance tx.sender tx.property .balance < asInt64 tx.nValue then
    .ok (pktErrorSto - 25, s)
  else do
    let receivers ← stoGetReceivers s.ledger tx.sender (stoDistributeTo tx) (asInt64 tx.nValue)
    s.stoPayFee env tx receivers

def sendAllSkips (propertyId : PropertyId) : Bool :=
  (tx.ecosystem = tlPropertyMsc && isTestEcosystemProperty propertyId) ||
    (tx.ecosystem = tlPropertyTmsc && isMainEcosystemProperty propertyId) ||
    s.ledger.freeze.isAddressFrozen tx.sender propertyId

/-- The loop of `SendAll` over the properties from the iterator on. Identifier zero ends it, as
the end of the tally does. -/
def sendAllLoop (tx : CMPTransaction) : List PropertyId → Nat → NodeState →
    Except Abort (Nat × NodeState)
  | [], sent, s => .ok (sent, s)
  | propertyId :: rest, sent, s =>
    if propertyId = 0 then .ok (sent, s)
    else if s.sendAllSkips tx propertyId then sendAllLoop tx rest sent s
    else
      let moneyAvailable := s.ledger.money tx.sender propertyId .balance
      if 0 < moneyAvailable then do
        let s ← s.assertTallies (Posting.transfer ⟨tx.sender, propertyId, .balance⟩
          ⟨tx.receiver, propertyId, .balance⟩ moneyAvailable)
        sendAllLoop tx rest (sent + 1) s
      else sendAllLoop tx rest sent s

def logicMathSendAll : Except Abort (Int × NodeState) :=
  if ¬ allowed tx.ecosystem then .ok (pktErrorSendAll - 22, s)
  else
    match s.ledger.mpTallyMap.get? tx.sender with
    | none => .ok (pktErrorSendAll - 54, s)
    | some tally => do
      let (numberOfPropertiesSent, s) ← sendAllLoop tx (tally.toList.map Prod.fst) 0 s
      if numberOfPropertiesSent = 0 then return (pktErrorSendAll - 55, s) else return (0, s)

def logicMathSendVestingTokens : Except Abort (Int × NodeState) := do
  let s ← s.assertTallies (wireTransfer ⟨tx.sender, tx.property, .balance⟩
      ⟨tx.receiver, tx.property, .balance⟩ tx.nValue ++
    [⟨⟨tx.receiver, tlPropertyMsc, .unvested⟩, asInt64 tx.nValue⟩])
  return (0, { s with vestingAddresses := s.vestingAddresses ++ [tx.receiver] })

def logicMathSendPeggedCurrency : Except Abort (Int × NodeState) :=
  if ¬ allowed tx.propertyId then .ok (pktErrorSend - 22, s)
  else if ¬ s.spInfo.isPropertyIdValid tx.propertyId then .ok (pktErrorSend - 24, s)
  -- the amount is read as a signed number here
  else if s.ledger.getTokenBalance tx.sender tx.propertyId .balance < asInt64 tx.amount then
    .ok (pktErrorSend - 25, s)
  else do
    let tx := tx.receiverOrSender
    let s ← s.assertTallies (wireTransfer ⟨tx.sender, tx.propertyId, .balance⟩
      ⟨tx.receiver, tx.propertyId, .balance⟩ tx.amount)
    -- an insertion into a map keeps the entry that is there
    return (0, if (s.peggedIssuers.get? tx.receiver).isSome then s
      else { s with peggedIssuers := s.peggedIssuers.set tx.receiver tx.propertyId })

/-- The gate is asked about `property`, which the payload does not set. -/
def logicMathCommitChannel : Except Abort (Int × NodeState) :=
  if (env.chainActive tx.block).isNone then .ok (pktErrorTokens - 20, s)
  else if ¬ allowed tx.property then .ok (pktErrorTokens - 22, s)
  else if ¬ s.channelAddress tx.receiver then .ok (pktErrorChannels - 10, s)
  else if ¬ s.spInfo.isPropertyIdValid tx.propertyId then .ok (pktErrorTokens - 24, s)
  else do
    let s ← s.assertTallies (wireTransfer ⟨tx.sender, tx.propertyId, .balance⟩
      ⟨tx.receiver, tx.propertyId, .channelReserve⟩ tx.amountCommited)
    return (0, s)

def logicMathTransfer : Except Abort (Int × NodeState) :=
  if (env.chainActive tx.block).isNone then .ok (pktErrorTokens - 20, s)
  else if ¬ allowed tx.property then .ok (pktErrorTokens - 22, s)
  else if ¬ s.spInfo.isPropertyIdValid tx.propertyId then .ok (pktErrorChannels - 13, s)
  else do
    let s ← s.assertTallies (wireTransfer ⟨tx.sender, tx.propertyId, .channelReserve⟩
      ⟨tx.receiver, tx.propertyId, .channelReserve⟩ tx.amount)
    return (0, s)

end NodeState

end TradeLayer
