import Mathlib.Data.Char
import TradeLayer.Library.Machine

namespace TradeLayer

/-- Addresses and the other texts of the source are byte strings; a character stands for a
byte. -/
abbrev Address := List Char

abbrev PropertyId := Nat

/-- The ways in which processing ends without a return value. -/
inductive Abort
  /-- The assertion of `updateTallyMap` that the debited address is not frozen. -/
  | addressFrozen (who : Address) (propertyId : PropertyId)
  /-- An asserted balance update that was refused. -/
  | tallyAssert (who : Address) (propertyId : PropertyId) (amount : Int)
  /-- A range assertion of the conversions between 64-bit and 256-bit numbers. -/
  | rangeAssert
  | divisionByZero
  | assertion
  /-- A read of a variable never written or past the end of a container, or a signed
  overflow. -/
  | undefined
  /-- A loop that does not end. -/
  | divergence
  deriving DecidableEq, Repr

def tlPropertyBtc : PropertyId := 0
def tlPropertyMsc : PropertyId := 1
def tlPropertyTmsc : PropertyId := 2
def testEcoProperty1 : PropertyId := 0x80000003

def pktError : Int := -9000
def dexErrorSellOffer : Int := -10000
def dexErrorAccept : Int := -20000
def dexErrorPayment : Int := -30000
def pktErrorSp : Int := -40000
def pktErrorSto : Int := -50000
def pktErrorSend : Int := -60000
def pktErrorTradeOffer : Int := -70000
def pktErrorMetaDEx : Int := -80000
def metaDExError : Int := -81000
def pktErrorTokens : Int := -82000
def pktErrorSendAll : Int := -83000
def pktErrorKyc : Int := -90000
def pktErrorChannels : Int := -120000

def isTestEcosystemProperty (propertyId : PropertyId) : Bool :=
  propertyId = tlPropertyTmsc || testEcoProperty1 ≤ propertyId

def isMainEcosystemProperty (propertyId : PropertyId) : Bool :=
  propertyId ≠ tlPropertyBtc && !isTestEcosystemProperty propertyId

end TradeLayer
