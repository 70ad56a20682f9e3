import TradeLayer.DexKeys
import TradeLayer.StateFiles

namespace TradeLayer
open Library

def Offer.saveOffer (offer : Offer) (address : Address) : List Char :=
  fieldLine [address, integerText offer.offerBlock, integerText offer.offerAmountOriginal,
    Nat.toDigits 10 offer.property, integerText offer.btcDesiredOriginal,
    Nat.toDigits 10 tlPropertyBtc, integerText offer.minFee,
    Nat.toDigits 10 offer.blockTimeLimit, hexText offer.txid]

def Accept.saveAccept (accept : Accept) (address buyer : Address) : List Char :=
  fieldLine [address, Nat.toDigits 10 accept.property, buyer, integerText accept.block,
    integerText accept.acceptAmountRemaining, integerText accept.acceptAmountOriginal,
    Nat.toDigits 10 accept.blockTimeLimit, integerText accept.offerAmountOriginal,
    integerText accept.btcDesiredOriginal, hexText accept.offerTxid]

def writeEntries {V : Type} (writeEntry : List Char → V → Except RestoreError (List Char)) :
    List (List Char × V) → Except RestoreError (List (List Char))
  | [] => .ok []
  | (key, value) :: rest => do
    let line ← writeEntry key value
    let lines ← writeEntries writeEntry rest
    return line :: lines

def writeMpOffers (myOffers : OrderedMap (List Char) Offer) :
    Except RestoreError (List (List Char)) :=
  writeEntries (fun key offer => do
    let vstr := splitCompress (· = '-') key
    let address ← fieldAt vstr 0
    return offer.saveOffer address) myOffers.toList

def writeMpAccepts (myAccepts : OrderedMap (List Char) Accept) :
    Except RestoreError (List (List Char)) :=
  writeEntries (fun key accept => do
    let vstr := splitCompress (fun c => c = '-' || c = '+') key
    let address ← fieldAt vstr 0
    let buyer ← fieldAt vstr 1
    return accept.saveAccept address buyer) myAccepts.toList

def inputMpOffersString : InputLine (OrderedMap (List Char) Offer) := fun myOffers s =>
  let vstr := splitAny separates s
  if vstr.length ≠ 9 then .ok (-1, myOffers)
  else do
    let sellerAddr ← fieldAt vstr 0
    let offerBlock ← lexicalCastInt32 (← fieldAt vstr 1)
    let amountOriginal ← lexicalCastInt64 (← fieldAt vstr 2)
    let prop ← lexicalCastUInt32 (← fieldAt vstr 3)
    let btcDesired ← lexicalCastInt64 (← fieldAt vstr 4)
    let propDesired ← lexicalCastUInt32 (← fieldAt vstr 5)
    let minFee ← lexicalCastInt64 (← fieldAt vstr 6)
    let blocktimelimit ← lexicalCastUInt32 (← fieldAt vstr 7)
    let txid ← fieldAt vstr 8
    let option ← lexicalCastInt32 (← fieldAt vstr 9)
    let newOffer : Offer :=
      { offerBlock, offerAmountOriginal := amountOriginal, property := prop,
        btcDesiredOriginal := btcDesired, minFee, blockTimeLimit := blocktimelimit % 2 ^ 8,
        txid := uint256S txid, subaction := 0, option := (option % 2 ^ 8).toNat }
    if propDesired ≠ tlPropertyBtc then return (-1, myOffers)
    else return insertEntry myOffers (strSellofferAddrPropCombo sellerAddr prop) newOffer

def inputMpAcceptsString : InputLine (OrderedMap (List Char) Accept) := fun myAccepts s =>
  let vstr := splitAny separates s
  if vstr.length ≠ 10 then .ok (-1, myAccepts)
  else do
    let sellerAddr ← fieldAt vstr 0
    let prop ← lexicalCastUInt32 (← fieldAt vstr 1)
    let buyerAddr ← fieldAt vstr 2
    let nBlock ← atoi (← fieldAt vstr 3)
    let amountRemaining ← lexicalCastInt64 (← fieldAt vstr 4)
    let amountOriginal ← lexicalCastUInt64 (← fieldAt vstr 5)
    let blocktimelimit ← atoi (← fieldAt vstr 6)
    let offerOriginal ← lexicalCastInt64 (← fieldAt vstr 7)
    let btcDesired ← lexicalCastInt64 (← fieldAt vstr 8)
    let txidStr ← fieldAt vstr 9
    let newAccept : Accept :=
      { acceptAmountOriginal := asInt64 (.ofNat amountOriginal),
        acceptAmountRemaining := amountRemaining,
        blockTimeLimit := (blocktimelimit % 2 ^ 8).toNat, property := prop,
        offerAmountOriginal := offerOriginal, btcDesiredOriginal := btcDesired,
        offerTxid := uint256S txidStr, block := nBlock }
    return insertEntry myAccepts (strAcceptAddrPropAddrCombo sellerAddr buyerAddr prop) newAccept

variable {V : Type} {entries : List (List Char × V)}
variable {writeEntry : List Char → V → Except RestoreError (List Char)}
variable {seller buyer : Address} {p : PropertyId} {key : List Char} {offer : Offer}
variable {accept : Accept}

theorem writeEntries_eq {lineOf : List Char × V → List Char}
    (h : ∀ e ∈ entries, writeEntry e.1 e.2 = .ok (lineOf e)) :
    writeEntries writeEntry entries = .ok (entries.map lineOf) := by
  induction entries with
  | nil => rfl
  | cons e entries ih =>
    obtain ⟨he, hrest⟩ := List.forall_mem_cons.mp h
    rw [writeEntries, he, ok_bind, ih hrest]
    rfl

theorem EncodedAddress.not_mem {c : Char} (h : EncodedAddress seller)
    (hc : c.isAlphanum = false) : c ∉ seller := by
  intro hmem
  rw [h.2 c hmem] at hc
  cases hc

theorem EncodedAddress.plainAddress (h : EncodedAddress seller) : PlainAddress seller :=
  ⟨h.not_mem (by decide), h.not_mem (by decide)⟩

theorem EncodedAddress.ne_toDigits (h : EncodedAddress seller) (hp : p < 2 ^ 32) :
    seller ≠ Nat.toDigits 10 p := by
  rintro rfl
  have hlength := Nat.toDigits_length 10 p 10 (by decide) (hp.trans (by decide))
  exact absurd h.1 (not_lt.mpr hlength)

theorem isAlphanum_of_mem_hexDigits {n : Nat} {c : Char} (h : c ∈ Nat.toDigits 16 n) :
    c.isAlphanum = true := by
  have hdigit : ∀ d < 16, (Nat.digitChar d).isAlphanum = true := by decide
  induction n using Nat.strong_induction_on with
  | _ n ih =>
    rw [Nat.toDigits_eq_if (by decide)] at h
    split_ifs at h with hn
    · rw [List.mem_singleton.mp h]
      exact hdigit n hn
    · rcases List.mem_append.mp h with h | h
      · exact ih (n / 16) (Nat.div_lt_self (by omega) (by decide)) h
      · rw [List.mem_singleton.mp h]
        exact hdigit _ (Nat.mod_lt _ (by decide))

theorem fieldText_hexText {n : Nat} : FieldText (hexText n) := by
  refine ⟨List.append_ne_nil_of_right_ne_nil _ Nat.toDigits_ne_nil, ?_⟩
  intro c hc
  rcases List.mem_append.mp hc with hc | hc
  · rw [List.eq_of_mem_replicate hc]
    exact .inl (by decide)
  · exact .inl (isAlphanum_of_mem_hexDigits hc)

theorem splitCompress_seller (hseller : PlainAddress seller) {rest : List Char} :
    splitCompress (· = '-') (seller ++ '-' :: (Nat.toDigits 10 p ++ rest)) =
      seller :: splitCompress (· = '-') (Nat.toDigits 10 p ++ rest) := by
  apply splitCompress_append
  · intro c hc
    rw [decide_eq_false_iff_not]
    rintro rfl
    exact hseller.1 hc
  · rfl
  · intro x hx
    rw [decide_eq_false_iff_not]
    rintro rfl
    cases head_isDigit_toDigits hx

theorem splitAny_saveOffer (hseller : FieldText seller) :
    (splitAny separates (offer.saveOffer seller)).length = 9 := by
  rw [Offer.saveOffer, splitAny_fieldLine (List.cons_ne_nil _ _)]
  · rfl
  · simp [hseller, fieldText_integerText, fieldText_toDigits, fieldText_hexText]

theorem plainLine_saveOffer (hseller : FieldText seller) : PlainLine (offer.saveOffer seller) := by
  apply plainLine_fieldLine (List.cons_ne_nil _ _)
  simp [hseller, fieldText_integerText, fieldText_toDigits, fieldText_hexText]

theorem inputMpOffersString_ne_ok {m : OrderedMap (List Char) Offer} {text : List Char}
    (h : (splitAny separates text).length = 9) {r : Int × OrderedMap (List Char) Offer} :
    inputMpOffersString m text ≠ .ok r := by
  intro hok
  have hlast : fieldAt (splitAny separates text) 9 = .error (.abort .undefined) := by
    rw [fieldAt, List.getElem?_eq_none h.le]
  simp only [inputMpOffersString, h, ne_eq, not_true_eq_false, if_false, hlast, bind_eq_ok,
    error_bind] at hok
  grind

theorem plainLine_saveAccept (hseller : FieldText seller) (hbuyer : FieldText buyer) :
    PlainLine (accept.saveAccept seller buyer) := by
  apply plainLine_fieldLine (List.cons_ne_nil _ _)
  simp [hseller, hbuyer, fieldText_integerText, fieldText_toDigits, fieldText_hexText]

theorem key_of_inputMpAcceptsString {m m' : OrderedMap (List Char) Accept} {rc : Int}
    {a : Accept} (hseller : FieldText seller) (hbuyer : FieldText buyer)
    (hp : accept.property < 2 ^ 32)
    (h : inputMpAcceptsString m (accept.saveAccept seller buyer) = .ok (rc, m'))
    (hkey : m'.get? key = some a) :
    (∃ a, m.get? key = some a) ∨
      key = strAcceptAddrPropAddrCombo seller buyer accept.property := by
  have hsplit : splitAny separates (accept.saveAccept seller buyer) = _ :=
    splitAny_fieldLine (List.cons_ne_nil _ _) (by
      simp [hseller, hbuyer, fieldText_integerText, fieldText_toDigits, fieldText_hexText])
  rw [inputMpAcceptsString, hsplit] at h
  dsimp only at h
  rw [if_neg (by simp)] at h
  simp only [fieldAt, List.getElem?_cons_zero, List.getElem?_cons_succ, ok_bind,
    lexicalCastUInt32_toDigits hp, bind_eq_ok] at h
  obtain ⟨_, _, _, _, _, _, _, _, _, _, _, _, h⟩ := h
  have hm : (insertEntry m _ _).2 = m' := congrArg Prod.snd (Except.ok.inj h)
  rw [← hm] at hkey
  exact (get?_insertEntry hkey).imp (fun h => ⟨a, h⟩) And.left

end TradeLayer
