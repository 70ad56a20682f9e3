import TradeLayer.ContractDex
import TradeLayer.Dex
import TradeLayer.MetaDEx
import TradeLayer.Sends

namespace TradeLayer
open Library

def subactionNew : Nat := 1
def subactionUpdate : Nat := 2
def subactionCancel : Nat := 3

namespace NodeState

variable (s : NodeState) (env : Environment) (pfuture : FutureContractObject)
variable (allowed : PropertyId → Bool) (tx : CMPTransaction)

def tradeOfferCreate : Except Abort (Int × NodeState) :=
  s.offerCreate tx.sender tx.property (asInt64 tx.nValue) tx.block (asInt64 tx.amountDesired)
    (asInt64 tx.minFee) tx.blocktimelimit tx.txid

def tradeOfferUpdate : Except Abort (Int × NodeState) :=
  s.offerUpdate tx.sender tx.property (asInt64 tx.nValue) tx.block (asInt64 tx.amountDesired)
    (asInt64 tx.minFee) tx.blocktimelimit tx.txid

/-- The first version tells the action from the amount. -/
def tradeOfferV0 : Except Abort (Int × NodeState) :=
  if tx.nValue ≠ 0 then
    if s.offerExists tx.sender tx.property then s.tradeOfferUpdate tx else s.tradeOfferCreate tx
  else if s.offerExists tx.sender tx.property then s.offerDestroy tx.sender tx.property
  else .ok (pktErrorTradeOffer - 49, s)

def tradeOfferV1 : Except Abort (Int × NodeState) :=
  if s.offerExists tx.sender tx.property then
    if tx.subaction = subactionCancel then s.offerDestroy tx.sender tx.property
    else if tx.subaction = subactionUpdate then s.tradeOfferUpdate tx
    else .ok (pktErrorTradeOffer - 48, s)
  else if tx.subaction = subactionNew then s.tradeOfferCreate tx
  else .ok (pktErrorTradeOffer - 49, s)

def logicMathTradeOffer : Except Abort (Int × NodeState) :=
  if ¬ allowed tx.property then .ok (pktErrorTradeOffer - 22, s)
  else if 2 ^ 63 ≤ tx.nValue.toNat then .ok (pktErrorTradeOffer - 23, s)
  else if ¬ s.isFeatureActivated .freeDex tx.block ∧ tx.property ≠ tlPropertyTmsc ∧
      tx.property ≠ tlPropertyMsc then .ok (pktErrorTradeOffer - 47, s)
  else if tx.version = mpTxPktV0 then s.tradeOfferV0 tx
  else if tx.version = mpTxPktV1 then s.tradeOfferV1 tx
  else .ok (pktError - 500, s)

def logicMathAcceptOfferBtc : Except Abort (Int × NodeState) :=
  if ¬ allowed tx.property then .ok (dexErrorAccept - 22, s)
  else if valueOutOfRange tx.nValue then .ok (dexErrorAccept - 23, s)
  else s.acceptCreate tx.sender tx.receiver tx.property (asInt64 tx.nValue) tx.block
    (asInt64 tx.txFeePaid)

def checkPair : Option Int :=
  if ¬ allowed tx.property then some (pktErrorMetaDEx - 22)
  else if tx.property = tx.desiredProperty then some (pktErrorMetaDEx - 29)
  else if isTestEcosystemProperty tx.property ≠ isTestEcosystemProperty tx.desiredProperty then
    some (pktErrorMetaDEx - 30)
  else if ¬ s.spInfo.isPropertyIdValid tx.property then some (pktErrorMetaDEx - 31)
  else if ¬ s.spInfo.isPropertyIdValid tx.desiredProperty then some (pktErrorMetaDEx - 32)
  else none

/-- The checks of the amounts, which a trade and a cancellation at a price go on with. -/
def checkPairAmounts : Option Int :=
  (s.checkPair allowed tx).or
    (if valueOutOfRange tx.nValue then some (pktErrorMetaDEx - 33)
    else if valueOutOfRange tx.desiredValue then some (pktErrorMetaDEx - 34)
    else none)

def hasBaseProperty : Bool :=
  tx.property = tlPropertyMsc || tx.desiredProperty = tlPropertyMsc ||
    tx.property = tlPropertyTmsc || tx.desiredProperty = tlPropertyTmsc

def logicMathMetaDExTrade : Except Abort (Int × NodeState) :=
  match s.checkPairAmounts allowed tx with
  | some rc => .ok (rc, s)
  | none =>
    if ¬ s.isFeatureActivated .tradeAllPairs tx.block ∧ ¬ hasBaseProperty tx then
      .ok (pktErrorMetaDEx - 35, s)
    else if s.ledger.getTokenBalance tx.sender tx.property .balance < asInt64 tx.nValue then
      .ok (pktErrorMetaDEx - 25, s)
    else s.metaDExAdd env tx.sender tx.property (asInt64 tx.nValue) tx.block tx.desiredProperty
      (asInt64 tx.desiredValue) tx.txid tx.txIdx

def logicMathMetaDExCancelPrice : Except Abort (Int × NodeState) :=
  match s.checkPairAmounts allowed tx with
  | some rc => .ok (rc, s)
  | none => s.metaDExCancelAtPrice tx.sender tx.property (asInt64 tx.nValue) tx.desiredProperty
      (asInt64 tx.desiredValue)

def logicMathMetaDExCancelPair : Except Abort (Int × NodeState) :=
  match s.checkPair allowed tx with
  | some rc => .ok (rc, s)
  | none => s.metaDExCancelAllForPair tx.sender tx.property tx.desiredProperty

def logicMathMetaDExCancelEcosystem : Except Abort (Int × NodeState) :=
  if ¬ allowed tx.ecosystem then .ok (pktErrorMetaDEx - 22, s)
  else if tlPropertyMsc ≠ tx.ecosystem ∧ tlPropertyTmsc ≠ tx.ecosystem then
    .ok (pktErrorMetaDEx - 21, s)
  else s.metaDExCancelEverything tx.sender tx.ecosystem

def amountToReserve : Except Abort Int := do
  let amountTR ← divide256 (tx.amount.toNat * pfuture.fcoMarginRequirement) tx.leverage.toNat
  convertTo64 amountTR

def contractTradeExecute (reserve : Int) : Except Abort (Int × NodeState) := do
  let collateral := pfuture.fcoCollateralCurrency
  let s ← s.assertTallies
    (if 0 < reserve then Posting.transfer ⟨tx.sender, collateral, .balance⟩
      ⟨tx.sender, collateral, .contractdexMargin⟩ reserve else [])
  s.contractDexAdd env tx.sender pfuture.fcoPropertyId (asInt64 tx.amount) tx.block tx.txid
    tx.txIdx tx.effectivePrice.toNat tx.tradingAction

def kycResult : Nat :=
  if pfuture.fcoPropType = allPropertyTypeContract then 5 else 6

def logicMathContractDexTrade : Except Abort (Int × NodeState) :=
  if (env.chainActive tx.block).isNone then .ok (pktErrorSp - 20, s)
  else
    let pfuture := s.getFutureContractObject env tx
    let s := { s with idContract := pfuture.fcoPropertyId }
    if ¬ s.kycRegister tx.sender (kycResult pfuture) then .ok (pktErrorKyc - 10, s)
    else do
      let expiry ← checked32 (pfuture.fcoInitBlock + asInt32 pfuture.fcoBlocksUntilExpiration)
      if expiry < tx.block ∨ tx.block < pfuture.fcoInitBlock then return (pktErrorSp - 38, s)
      else do
        let nBalance :=
          s.ledger.getTokenBalance tx.sender pfuture.fcoCollateralCurrency .balance
        let reserve ← amountToReserve pfuture tx
        if nBalance < reserve ∨ nBalance = 0 then return (pktErrorSend - 25, s)
        else s.contractTradeExecute env pfuture tx reserve

end NodeState

end TradeLayer
