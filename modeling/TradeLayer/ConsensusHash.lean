import TradeLayer.Library.Canonical
import TradeLayer.State
import TradeLayer.StateFiles

namespace TradeLayer
open Library

def barLine (fields : List (List Char)) : List Char :=
  ['|'].intercalate fields

def Tally.generateConsensusString (tallyObj : Tally) (address : Address)
    (propertyId : PropertyId) : List Char :=
  let balance := tallyObj.getMoney propertyId .balance
  let sellOfferReserve := tallyObj.getMoney propertyId .sellOfferReserve
  let acceptReserve := tallyObj.getMoney propertyId .acceptReserve
  let metaDExReserve := tallyObj.getMoney propertyId .metadexReserve
  if balance = 0 ∧ sellOfferReserve = 0 ∧ acceptReserve = 0 ∧ metaDExReserve = 0 then []
  else barLine [address, Nat.toDigits 10 propertyId, integerText balance,
    integerText sellOfferReserve, integerText acceptReserve, integerText metaDExReserve]

def Offer.generateConsensusString (offerObj : Offer) (address : Address) : List Char :=
  barLine [hexText offerObj.txid, address, Nat.toDigits 10 offerObj.property,
    integerText offerObj.offerAmountOriginal, integerText offerObj.btcDesiredOriginal,
    integerText offerObj.minFee, Nat.toDigits 10 offerObj.blockTimeLimit]

def Accept.generateConsensusString (acceptObj : Accept) (address : Address) : List Char :=
  barLine [hexText acceptObj.offerTxid, address, integerText acceptObj.acceptAmountOriginal,
    integerText acceptObj.acceptAmountRemaining, integerText acceptObj.block]

def MetaDEx.generateConsensusString (tradeObj : MetaDEx) : List Char :=
  barLine [hexText tradeObj.txid, tradeObj.addr, Nat.toDigits 10 tradeObj.property,
    integerText tradeObj.amountForSale, Nat.toDigits 10 tradeObj.desProperty,
    integerText tradeObj.amountDesired, integerText tradeObj.amountRemaining]

def generateConsensusString (propertyId : PropertyId) (address : Address) : List Char :=
  barLine [Nat.toDigits 10 propertyId, address]

/-- The entries of an address. The walk over its properties ends at the identifier zero, which
is also the answer when there are no more. -/
def Tally.consensusStrings (tally : Tally) (address : Address) : List Char :=
  ((tally.toList.map Prod.fst).takeWhile (· ≠ 0)).flatMap
    (tally.generateConsensusString address)

/-- The seller of an offer, as the last two characters of its key are cut off. -/
def sellerOfCombo (sellCombo : List Char) : Address :=
  -- the position wraps around for shorter keys, which are then kept whole
  if sellCombo.length < 2 then sellCombo else sellCombo.take (sellCombo.length - 2)

/-- The buyer of an accept: what stands after the first plus of its key. -/
def buyerOfCombo (acceptCombo : List Char) : Address :=
  if '+' ∈ acceptCombo then (acceptCombo.dropWhile (· ≠ '+')).tail else acceptCombo

def sortedTexts {κ : Type} [LinearOrder κ] (entries : List (κ ×ₗ List Char)) :
    List (List Char) :=
  (entries.insertionSort (· ≤ ·)).map fun e => (ofLex e).2

namespace NodeState

def tallyTexts (uoTallyMap : List (Address × Tally)) : List Char :=
  let tallyMapSorted : OrderedMap Address Tally := uoTallyMap.foldl Keyed.insert ∅
  tallyMapSorted.toList.flatMap fun e => e.2.consensusStrings e.1

def offerTexts (s : NodeState) : List (List Char) :=
  sortedTexts (s.myOffers.toList.map fun e =>
    toLex (e.2.txid, e.2.generateConsensusString (sellerOfCombo e.1)))

def acceptTexts (s : NodeState) : List (List Char) :=
  sortedTexts (s.myAccepts.toList.map fun e =>
    toLex (hexText e.2.offerTxid ++ '-' :: buyerOfCombo e.1,
      e.2.generateConsensusString (buyerOfCombo e.1)))

def metadexOrders (s : NodeState) : List MetaDEx :=
  s.metadex.entries.map fun e => e.2.2

def metadexTexts (s : NodeState) : List (List Char) :=
  sortedTexts (s.metadexOrders.map fun o => toLex (o.txid, o.generateConsensusString))

def startPropertyId (ecosystem : Nat) : PropertyId :=
  if ecosystem = 1 then 1 else testEcoProperty1

/-- The issuers of the properties of an ecosystem, without those that have no record. -/
def issuerTexts (s : NodeState) (ecosystem : Nat) : List Char :=
  let start := startPropertyId ecosystem
  (List.range' start (s.spInfo.peekNextSPID ecosystem - start)).flatMap fun propertyId =>
    match s.spInfo.getSP propertyId with
    | none => []
    | some sp => TradeLayer.generateConsensusString propertyId sp.issuer

def consensusBytes (s : NodeState) (uoTallyMap : List (Address × Tally)) : List Char :=
  tallyTexts uoTallyMap ++ s.offerTexts.flatten ++ s.acceptTexts.flatten ++
    s.metadexTexts.flatten ++ s.issuerTexts 1 ++ s.issuerTexts 2

end NodeState

end TradeLayer
