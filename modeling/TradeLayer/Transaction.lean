import TradeLayer.State

namespace TradeLayer
open Library

structure CMPTransaction where
  txid : Nat
  block : Int
  txIdx : Nat
  txFeePaid : UInt64
  pkt : List UInt8
  sender : Address
  receiver : Address
  type : Nat
  version : Nat
  nValue : UInt64
  property : PropertyId
  ecosystem : Nat
  desiredProperty : PropertyId
  desiredValue : UInt64
  amountDesired : UInt64
  blocktimelimit : Nat
  minFee : UInt64
  subaction : Nat
  rpcOnly : Bool
  featureId : Nat
  activationBlock : Nat
  minClientVersion : Nat
  distributionProperty : PropertyId
  effectivePrice : UInt64
  leverage : UInt64
  tradingAction : Nat
  propertyId : PropertyId
  amount : UInt64
  nameTraded : List Char
  amountCommited : UInt64
  deriving DecidableEq, Repr

namespace CMPTransaction

variable (tx : CMPTransaction) (env : Environment)

def setNull : CMPTransaction where
  txid := 0
  block := -1
  txIdx := 0
  txFeePaid := 0
  pkt := []
  sender := []
  receiver := []
  type := 0
  version := 0
  nValue := 0
  property := 0
  ecosystem := 0
  desiredProperty := 0
  desiredValue := 0
  amountDesired := 0
  blocktimelimit := 0
  minFee := 0
  subaction := 0
  rpcOnly := true
  featureId := 0
  activationBlock := 0
  minClientVersion := 0
  distributionProperty := 0
  effectivePrice := 0
  leverage := 0
  tradingAction := 0
  propertyId := 0
  amount := 0
  nameTraded := []
  amountCommited := 0

def maxPacketSize : Nat := 7906

def set (sender receiver : Address) (nValue : UInt64) (txid : Nat) (block : Int) (idx : Nat)
    (payload : List UInt8) (txFeePaid : UInt64) : CMPTransaction :=
  { setNull with
    sender, receiver, txid, block, nValue, txFeePaid
    txIdx := idx
    pkt := payload.take maxPacketSize }

def unlockLogic : CMPTransaction := { tx with rpcOnly := false }

/-- A number in network byte order. The buffer holds zeros behind the payload. -/
def readNat (pkt : List UInt8) (offset size : Nat) : Nat :=
  (List.range size).foldl (fun n i => 256 * n + (pkt.getD (offset + i) 0).toNat) 0

def readUInt64 (pkt : List UInt8) (offset : Nat) : UInt64 := .ofNat (readNat pkt offset 8)

def interpretTransactionType : Option CMPTransaction :=
  if tx.pkt.length < 4 then none
  else some { tx with version := readNat tx.pkt 0 2, type := readNat tx.pkt 2 2 }

/-- An amount of a property, the fields that several messages begin with. -/
def readPropertyAndValue : CMPTransaction :=
  { tx with property := readNat tx.pkt 4 4, nValue := readUInt64 tx.pkt 8 }

def receiverOrSender : CMPTransaction :=
  if tx.receiver = [] then { tx with receiver := tx.sender } else tx

def interpretSimpleSend : Option CMPTransaction :=
  if tx.pkt.length < 16 then none else some tx.readPropertyAndValue.receiverOrSender

def interpretSendToOwners : Option CMPTransaction :=
  if tx.pkt.length < (if tx.version = mpTxPktV0 then 16 else 20) then none
  else if mpTxPktV0 < tx.version then
    some { tx.readPropertyAndValue with distributionProperty := readNat tx.pkt 16 4 }
  else some tx.readPropertyAndValue

def readEcosystem : CMPTransaction :=
  { tx with ecosystem := readNat tx.pkt 4 1, property := readNat tx.pkt 4 1 }

def interpretSendAll : Option CMPTransaction :=
  if tx.pkt.length < 5 then none else some tx.readEcosystem.receiverOrSender

def interpretSendVestingTokens : Option CMPTransaction :=
  if tx.pkt.length < 16 then none else some tx.readPropertyAndValue

def interpretTradeOffer : Option CMPTransaction :=
  if tx.pkt.length < (if tx.version = mpTxPktV0 then 33 else 34) then none
  else
    let tx := { tx.readPropertyAndValue with
      amountDesired := readUInt64 tx.pkt 16
      blocktimelimit := readNat tx.pkt 24 1
      minFee := readUInt64 tx.pkt 25 }
    if mpTxPktV0 < tx.version then some { tx with subaction := readNat tx.pkt 33 1 }
    else some tx

def interpretAcceptOfferBtc : Option CMPTransaction :=
  if tx.pkt.length < 16 then none else some tx.readPropertyAndValue

def interpretMetaDExTrade : Option CMPTransaction :=
  if tx.pkt.length < 28 then none
  else some { tx.readPropertyAndValue with
    desiredProperty := readNat tx.pkt 16 4
    desiredValue := readUInt64 tx.pkt 20 }

def interpretMetaDExCancelPrice : Option CMPTransaction :=
  tx.interpretMetaDExTrade

def interpretMetaDExCancelPair : Option CMPTransaction :=
  if tx.pkt.length < 12 then none
  else some { tx with property := readNat tx.pkt 4 4, desiredProperty := readNat tx.pkt 8 4 }

def interpretMetaDExCancelEcosystem : Option CMPTransaction :=
  if tx.pkt.length < 5 then none
  else some { tx.readEcosystem with desiredProperty := readNat tx.pkt 4 1 }

/-- The name of the contract that the payload ends with is stored where the logic does not
look: it reads `nameTraded`, which stays empty. -/
def interpretContractDexTrade : Option CMPTransaction :=
  if tx.pkt.length < 17 then none
  else some { tx with
    amount := readUInt64 tx.pkt 4
    effectivePrice := readUInt64 tx.pkt 12
    leverage := readUInt64 tx.pkt 20
    tradingAction := readNat tx.pkt 28 1 }

def interpretGrantTokens : Option CMPTransaction :=
  if tx.pkt.length < 16 then none else some tx.readPropertyAndValue.receiverOrSender

def interpretRevokeTokens : Option CMPTransaction :=
  if tx.pkt.length < 16 then none else some tx.readPropertyAndValue

def interpretProperty : Option CMPTransaction :=
  if tx.pkt.length < 8 then none else some { tx with property := readNat tx.pkt 4 4 }

def interpretChangeIssuer : Option CMPTransaction := tx.interpretProperty

def interpretEnableFreezing : Option CMPTransaction := tx.interpretProperty

def interpretDisableFreezing : Option CMPTransaction := tx.interpretProperty

def interpretAddress : Option CMPTransaction :=
  if tx.pkt.length < 37 then none
  else
    let address := env.hashToAddress (tx.pkt.getD 16 0) ((tx.pkt.drop 17).take 20)
    if address = [] then none
    else if env.isValidDestination address then
      some { tx.readPropertyAndValue with receiver := address }
    else none

def interpretFreezeTokens : Option CMPTransaction :=
  tx.interpretAddress env

def interpretUnfreezeTokens : Option CMPTransaction :=
  tx.interpretAddress env

def interpretSendPeggedCurrency : Option CMPTransaction :=
  if tx.pkt.length < 16 then none
  else some { tx with propertyId := readNat tx.pkt 4 4, amount := readUInt64 tx.pkt 8 }

def interpretCommitChannel : Option CMPTransaction :=
  if tx.pkt.length < 16 then none
  else some { tx with propertyId := readNat tx.pkt 4 4, amountCommited := readUInt64 tx.pkt 8 }

def interpretTransfer : Option CMPTransaction :=
  if tx.pkt.length < 16 then none
  else some { tx with property := readNat tx.pkt 4 4, amount := readUInt64 tx.pkt 8 }

def interpretDeactivation : Option CMPTransaction :=
  if tx.pkt.length < 6 then none else some { tx with featureId := readNat tx.pkt 4 2 }

def interpretActivation : Option CMPTransaction :=
  if tx.pkt.length < 14 then none
  else some { tx with
    featureId := readNat tx.pkt 4 2
    activationBlock := readNat tx.pkt 6 4
    minClientVersion := readNat tx.pkt 10 4 }

end CMPTransaction

end TradeLayer
