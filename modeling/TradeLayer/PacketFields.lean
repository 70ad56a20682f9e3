import TradeLayer.ByteOrder
import TradeLayer.Library.Reading
import TradeLayer.Transaction

namespace TradeLayer
open Library

/-- The members of a transaction that its parsers read or write, with the widths they have. A
text is what stands before the zero bytes that fill its array. -/
structure PacketFields where
  block : UInt32
  txIdx : UInt32
  sender : Address
  receiver : Address
  type : UInt16
  version : UInt16
  nValue : UInt64
  nNewValue : UInt64
  property : UInt32
  distributionProperty : UInt32
  ecosystem : UInt8
  propType : UInt16
  prevPropId : UInt32
  category : List UInt8
  subcategory : List UInt8
  name : List UInt8
  url : List UInt8
  data : List UInt8
  nameTraded : List UInt8
  deadline : UInt64
  earlyBird : UInt8
  percentage : UInt8
  desiredProperty : UInt32
  desiredValue : UInt64
  action : UInt8
  amountForsale : UInt64
  amountDesired : UInt64
  blocktimelimit : UInt8
  minFee : UInt64
  subaction : UInt8
  timeLimit : UInt8
  subAction : UInt8
  alertType : UInt16
  alertExpiry : UInt32
  alertText : List UInt8
  featureId : UInt16
  activationBlock : UInt32
  minClientVersion : UInt32
  effectivePrice : UInt64
  tradingAction : UInt8
  propertyId : UInt32
  contractId : UInt32
  amount : UInt64
  oracleHigh : UInt64
  oracleLow : UInt64
  blocksUntilExpiration : UInt32
  notionalSize : UInt32
  collateralCurrency : UInt32
  marginRequirement : UInt32
  leverage : UInt64
  channelAddress : List UInt8
  amountCommited : UInt64
  amountToWithdraw : UInt64
  price : UInt64
  ileverage : UInt64
  itradingAction : UInt64
  blockForexpiry : UInt32
  companyName : List UInt8
  website : List UInt8
  tokens : UInt8
  ltc : UInt8
  natives : UInt8
  oracles : UInt8
  deriving DecidableEq, Repr, Inhabited

namespace PacketFields

/-- Resets an object. The members that are not named keep what the memory held before. -/
def setNull (left : PacketFields) : PacketFields :=
  { left with
    block := 0xFFFFFFFF, txIdx := 0, sender := [], receiver := [], type := 0, version := 0
    nValue := 0, nNewValue := 0, property := 0, distributionProperty := 0
    ecosystem := 0, propType := 0, prevPropId := 0
    category := [], subcategory := [], name := [], url := [], data := [], nameTraded := []
    deadline := 0, earlyBird := 0, percentage := 0
    desiredProperty := 0, desiredValue := 0, action := 0
    amountDesired := 0, blocktimelimit := 0, minFee := 0, subaction := 0
    alertType := 0, alertExpiry := 0, alertText := []
    featureId := 0, activationBlock := 0, minClientVersion := 0
    effectivePrice := 0, tradingAction := 0, propertyId := 0, contractId := 0, amount := 0
    channelAddress := [], amountCommited := 0, amountToWithdraw := 0
    ileverage := 0, itradingAction := 0, blockForexpiry := 0
    companyName := [], website := [], tokens := 0, ltc := 0, natives := 0, oracles := 0 }

def set (tx : PacketFields) (sender receiver : Address) (nValue : UInt64) (block idx : UInt32) :
    PacketFields :=
  { tx with sender, receiver, nValue, block, nNewValue := nValue, txIdx := idx }

def setHeader (tx : PacketFields) (version type : UInt16) : PacketFields :=
  { tx with version, type }

@[simp] theorem setHeader_version (tx : PacketFields) (version type : UInt16) :
    (tx.setHeader version type).version = version := rfl

@[simp] theorem setHeader_type (tx : PacketFields) (version type : UInt16) :
    (tx.setHeader version type).type = type := rfl

def receiverOrSender (tx : PacketFields) : PacketFields :=
  if tx.receiver = [] then { tx with receiver := tx.sender } else tx

end PacketFields

/-- A text copied over the array of a text member, whose last byte stays zero. -/
def copyText (member text : List UInt8) : List UInt8 :=
  text.take 255 ++ member.drop (min text.length 255)

@[simp] theorem copyText_nil (text : List UInt8) : copyText [] text = text.take 255 := by
  rw [copyText, List.drop_nil, List.append_nil]

/-- One byte copied over the lowest one of a member. -/
def setLowByte (member : UInt32) (b : UInt8) : UInt32 :=
  (member &&& (0xFFFFFF00 : UInt32)) ||| b.toUInt32

/-- The buffer of a transaction, which is filled up with zero bytes behind the payload. -/
def packetBuffer (payload : List UInt8) : List UInt8 :=
  payload ++ List.replicate (CMPTransaction.maxPacketSize - payload.length) 0

theorem length_packetBuffer {payload : List UInt8}
    (h : payload.length ≤ CMPTransaction.maxPacketSize) :
    (packetBuffer payload).length = CMPTransaction.maxPacketSize := by
  rw [packetBuffer, List.length_append, List.length_replicate, Nat.add_sub_cancel' h]

theorem take_packetBuffer (payload behind : List UInt8) :
    (packetBuffer payload ++ behind).take payload.length = payload := by
  rw [packetBuffer, List.append_assoc, List.take_left]

section Memcpy

open Reading

def memcpy8 (offset : Nat) : Reading UInt8 := do
  return UInt8.ofNat (leNat (← bytes offset 1))

def memcpy16 (offset : Nat) : Reading UInt16 := do
  return UInt16.ofNat (leNat (← bytes offset 2))

def memcpy32 (offset : Nat) : Reading UInt32 := do
  return UInt32.ofNat (leNat (← bytes offset 4))

def memcpy64 (offset : Nat) : Reading UInt64 := do
  return UInt64.ofNat (leNat (← bytes offset 8))

/-- Numbers that are swapped after they were copied. -/
def swapped16 (offset : Nat) : Reading UInt16 := do
  return swapByteOrder16 (← memcpy16 offset)

def swapped32 (offset : Nat) : Reading UInt32 := do
  return swapByteOrder32 (← memcpy32 offset)

def swapped64 (offset : Nat) : Reading UInt64 := do
  return swapByteOrder64 (← memcpy64 offset)

end Memcpy

end TradeLayer
