import TradeLayer.FeeCache

namespace TradeLayer
open Library

def strSellofferAddrPropCombo (address : Address) (propertyId : PropertyId) : List Char :=
  address ++ '-' :: Nat.toDigits 10 propertyId

def strAcceptAddrPropAddrCombo (seller buyer : Address) (propertyId : PropertyId) : List Char :=
  seller ++ '-' :: Nat.toDigits 10 propertyId ++ '+' :: buyer

def splitCompress (isSeparator : Char → Bool) : List Char → List (List Char)
  | [] => [[]]
  | c :: cs =>
    let rest := splitCompress isSeparator cs
    if isSeparator c then
      match cs with
      | c' :: _ => if isSeparator c' then rest else [] :: rest
      | [] => [] :: rest
    else
      match rest with
      | token :: tokens => (c :: token) :: tokens
      | [] => [[c]]

def digitsValue (digits : List Char) : Nat :=
  digits.foldl (fun n c => 10 * n + (c.toNat - '0'.toNat)) 0

def lexicalCastUint32 (text : List Char) : Option Nat :=
  let digits := match text with
    | '+' :: digits => digits
    | digits => digits
  if digits ≠ [] ∧ digits.all Char.isDigit ∧ digitsValue digits < 2 ^ 32 then
    some (digitsValue digits)
  else none

def atoiUint32 (text : List Char) : Nat :=
  digitsValue (text.takeWhile Char.isDigit) % 2 ^ 32

def calculateDExPurchase (amountOffered amountDesired amountPaid : Int) : Except Abort Int := do
  let amountOffered256 ← convertTo256 amountOffered
  let amountDesired256 ← convertTo256 amountDesired
  let amountPaid256 ← convertTo256 amountPaid
  let amountPurchased256 ← divideAndRoundUp (amountPaid256 * amountOffered256) amountDesired256
  convertTo64 amountPurchased256

namespace NodeState

variable (s : NodeState) (env : Environment) (addressSeller addressBuyer : Address)

def getOffer (propertyId : PropertyId) : Option Offer :=
  s.myOffers.get? (strSellofferAddrPropCombo addressSeller propertyId)

def offerExists (propertyId : PropertyId) : Bool :=
  (s.getOffer addressSeller propertyId).isSome

def getAccept (propertyId : PropertyId) (addressBuyer : Address) : Option Accept :=
  s.myAccepts.get? (strAcceptAddrPropAddrCombo addressSeller addressBuyer propertyId)

def tokenForSale (addressSeller : Address) : List (List Char × Offer) → Option PropertyId
  | [] => none
  | (key, _) :: rest =>
    if addressSeller.isPrefixOf key then
      match splitCompress (· = '-') key with
      | [_, token] =>
        match lexicalCastUint32 token with
        | some propertyId => some propertyId
        | none => tokenForSale addressSeller rest
      | _ => none
    else tokenForSale addressSeller rest

def getTokenForSale : Option PropertyId :=
  tokenForSale addressSeller s.myOffers.toList

def setOffer (key : List Char) (offer : Offer) : NodeState :=
  { s with myOffers := s.myOffers.set key offer }

def eraseOffer (key : List Char) : NodeState :=
  { s with myOffers := s.myOffers.erase key }

def setAccept (key : List Char) (accept : Accept) : NodeState :=
  { s with myAccepts := s.myAccepts.set key accept }

def eraseAccept (key : List Char) : NodeState :=
  { s with myAccepts := s.myAccepts.erase key }

def offerCreate (propertyId : PropertyId) (amountOffered block amountDesired minAcceptFee : Int)
    (paymentWindow txid : Nat) : Except Abort (Int × NodeState) :=
  if paymentWindow = 0 then .ok (dexErrorSellOffer - 101, s)
  else if amountDesired = 0 then .ok (dexErrorSellOffer - 101, s)
  else if s.offerExists addressSeller propertyId then .ok (dexErrorSellOffer - 10, s)
  else if s.ledger.getTokenBalance addressSeller propertyId .balance < amountOffered then
    .ok (dexErrorSellOffer - 25, s)
  else if 0 < amountOffered then do
    let s ← s.assertTallies (Posting.transfer ⟨addressSeller, propertyId, .balance⟩
      ⟨addressSeller, propertyId, .sellOfferReserve⟩ amountOffered)
    return (0, s.setOffer (strSellofferAddrPropCombo addressSeller propertyId)
      { offerBlock := block, offerAmountOriginal := amountOffered, property := propertyId,
        btcDesiredOriginal := amountDesired, minFee := minAcceptFee,
        blockTimeLimit := paymentWindow, txid, subaction := 0, option := 2 })
  else .ok (dexErrorSellOffer, s)

def offerDestroy (propertyId : PropertyId) : Except Abort (Int × NodeState) :=
  if s.offerExists addressSeller propertyId then do
    let amountReserved := s.ledger.getTokenBalance addressSeller propertyId .sellOfferReserve
    let s ← s.assertTallies
      (if 0 < amountReserved then Posting.transfer ⟨addressSeller, propertyId, .sellOfferReserve⟩
        ⟨addressSeller, propertyId, .balance⟩ amountReserved else [])
    return (0, s.eraseOffer (strSellofferAddrPropCombo addressSeller propertyId))
  else .ok (dexErrorSellOffer - 11, s)

def offerUpdate (propertyId : PropertyId) (amountOffered block amountDesired minAcceptFee : Int)
    (paymentWindow txid : Nat) : Except Abort (Int × NodeState) :=
  if s.offerExists addressSeller propertyId then do
    let (rc, s) ← s.offerDestroy addressSeller propertyId
    if rc = 0 then
      s.offerCreate addressSeller propertyId amountOffered block amountDesired minAcceptFee
        paymentWindow txid
    else .ok (rc, s)
  else .ok (dexErrorSellOffer - 12, s)

def acceptCreate (addressSeller : Address) (propertyId : PropertyId)
    (amountAccepted block feePaid : Int) : Except Abort (Int × NodeState) :=
  match s.getOffer addressSeller propertyId with
  | none => .ok (dexErrorAccept - 15, s)
  | some offer =>
    if (s.getAccept addressSeller propertyId addressBuyer).isSome then
      .ok (dexErrorAccept - 205, s)
    else if feePaid < offer.minFee then .ok (dexErrorAccept - 105, s)
    else
      let amountRemainingForSale :=
        s.ledger.getTokenBalance addressSeller propertyId .sellOfferReserve
      let amountReserved := min amountAccepted amountRemainingForSale
      if 0 < amountReserved then do
        let s ← s.assertTallies (Posting.transfer ⟨addressSeller, propertyId, .sellOfferReserve⟩
          ⟨addressSeller, propertyId, .acceptReserve⟩ amountReserved)
        return (0, s.setAccept (strAcceptAddrPropAddrCombo addressSeller addressBuyer propertyId)
          { acceptAmountOriginal := amountReserved, acceptAmountRemaining := amountReserved,
            blockTimeLimit := offer.blockTimeLimit, property := offer.property,
            offerAmountOriginal := offer.offerAmountOriginal,
            btcDesiredOriginal := offer.btcDesiredOriginal, offerTxid := offer.txid, block })
      else .ok (dexErrorAccept - 10, s)

/-- Where the rest of an accept goes: back to the offer it was made for, or to the seller's
balance when that offer is gone. -/
def returnTally (offer : Option Offer) (accept : Accept) : TallyType :=
  match offer with
  | none => .balance
  | some offer => if offer.txid = accept.offerTxid then .sellOfferReserve else .balance

def acceptDestroy (addressSeller : Address) (propertyId : PropertyId) (fForceErase : Bool) :
    Except Abort (Int × NodeState) :=
  match s.getAccept addressSeller propertyId addressBuyer with
  | none => .ok (dexErrorAccept - 20, s)
  | some accept => do
    let tally := returnTally (s.getOffer addressSeller propertyId) accept
    let s ← s.assertTallies
      (if 0 < accept.acceptAmountRemaining then
        Posting.transfer ⟨addressSeller, propertyId, .acceptReserve⟩
          ⟨addressSeller, propertyId, tally⟩ accept.acceptAmountRemaining else [])
    return (0, if fForceErase then
        s.eraseAccept (strAcceptAddrPropAddrCombo addressSeller addressBuyer propertyId)
      else s)

/-- An accept together with the property and the parties it was found under. -/
structure FoundAccept where
  property : PropertyId
  seller : Address
  buyer : Address
  accept : Accept

def FoundAccept.key (found : FoundAccept) : List Char :=
  strAcceptAddrPropAddrCombo found.seller found.buyer found.property

def lookupAccept (seller : Address) (propertyId : PropertyId) (buyer : Address) : Option
    FoundAccept :=
  (s.getAccept seller propertyId buyer).map fun accept => ⟨propertyId, seller, buyer, accept⟩

/-- The first loop of `payment`: an accept between the two in either role. -/
def marketMaker : Option FoundAccept :=
  (List.range' 1 (s.spInfo.peekNextSPID 1 - 1)).findSome? fun propertyId =>
    (s.spInfo.getSP propertyId).bind fun _ =>
      (s.lookupAccept addressSeller propertyId addressBuyer).or
        (s.lookupAccept addressBuyer propertyId addressSeller)

def paymentAccept (block : Int) : Option FoundAccept :=
  let found := s.marketMaker addressSeller addressBuyer
  if found.isNone && env.mscDebugDex then none
  else if ¬ s.isFeatureActivated .freeDex block then
    (s.lookupAccept addressSeller tlPropertyMsc addressBuyer).or
      (s.lookupAccept addressSeller tlPropertyTmsc addressBuyer)
  else
    match s.getTokenForSale addressSeller with
    | some propertyId => s.lookupAccept addressSeller propertyId addressBuyer
    | none => found

/-- The end of `payment`: when the accept is used up it is destroyed, and so is the offer when
nothing is reserved for it. -/
def finishAccept (propertyId : PropertyId) : Except Abort NodeState := do
  let reserveSell := s.ledger.getTokenBalance addressSeller propertyId .sellOfferReserve
  let reserveAccept := s.ledger.getTokenBalance addressSeller propertyId .acceptReserve
  let (_, s) ← s.acceptDestroy addressBuyer addressSeller propertyId true
  if reserveSell = 0 ∧ reserveAccept = 0 then do
    let (_, s) ← s.offerDestroy addressSeller propertyId
    return s
  else return s

def payment (amountPaid block : Int) : Except Abort (Int × NodeState) :=
  match s.paymentAccept env addressSeller addressBuyer block with
  | none => .ok (dexErrorPayment - 1, s)
  | some found =>
    if found.accept.btcDesiredOriginal = 0 then .ok (dexErrorPayment - 2, s)
    else do
      let amountPurchased ← calculateDExPurchase found.accept.offerAmountOriginal
        found.accept.btcDesiredOriginal amountPaid
      let amountRemaining := found.accept.acceptAmountRemaining
      let amountPurchased := min amountPurchased amountRemaining
      let s ← s.assertTallies
        (if 0 < amountPurchased then
          Posting.transfer ⟨addressSeller, found.property, .acceptReserve⟩
            ⟨addressBuyer, found.property, .balance⟩ amountPurchased else [])
      let s := s.setAccept found.key
        { found.accept with acceptAmountRemaining := amountRemaining - amountPurchased }
      let rc := if 0 < amountPurchased then 0 else dexErrorPayment
      if amountRemaining ≤ amountPurchased then do
        let s ← s.finishAccept addressSeller addressBuyer found.property
        return (rc, s)
      else return (rc, s)

def eraseExpiredLoop (blockNow : Int) (s : NodeState) :
    List (List Char × Accept) → Except Abort NodeState
  | [] => .ok s
  | (key, acceptOrder) :: rest =>
    if acceptOrder.blockTimeLimit ≤ blockNow - acceptOrder.block then
      match splitCompress (fun c => c = '-' || c = '+') key with
      | addressSeller :: property :: addressBuyer :: _ => do
        let (_, s) ← s.acceptDestroy addressBuyer addressSeller (atoiUint32 property) false
        eraseExpiredLoop blockNow (s.eraseAccept key) rest
      | _ => .error .undefined
    else eraseExpiredLoop blockNow s rest

def eraseExpiredAccepts (blockNow : Int) : Except Abort NodeState :=
  eraseExpiredLoop blockNow s s.myAccepts.toList

end NodeState

end TradeLayer
