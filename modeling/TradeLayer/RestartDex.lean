import TradeLayer.DexFiled

namespace TradeLayer
open Library

namespace NodeState

variable {s : NodeState} {seller buyer : Address} {p : PropertyId}
variable {hash : List Char → List Char} {verifyHash : Bool}
variable {lines : List (List Char)}

def DexSurvives (s : NodeState) (hash : List Char → List Char) (verifyHash : Bool) : Prop :=
  ∃ offerLines acceptLines, writeMpOffers s.myOffers = .ok offerLines ∧
    writeMpAccepts s.myAccepts = .ok acceptLines ∧
    loadFile inputMpOffersString hash verifyHash (stateFile hash offerLines) ∅ =
      .ok (0, s.myOffers) ∧
    loadFile inputMpAcceptsString hash verifyHash (stateFile hash acceptLines) ∅ =
      .ok (0, s.myAccepts)

def sellerOf (key : List Char) : Address := (splitCompress (· = '-') key).headD []

theorem sellerOf_offerKey (hseller : PlainAddress seller) :
    sellerOf (strSellofferAddrPropCombo seller p) = seller := by
  have hsplit := @splitCompress_seller seller p hseller []
  rw [List.append_nil] at hsplit
  rw [sellerOf, strSellofferAddrPropCombo, hsplit]
  rfl

theorem sellerOf_acceptKey (hseller : PlainAddress seller) :
    sellerOf (strAcceptAddrPropAddrCombo seller buyer p) = seller := by
  rw [sellerOf, acceptKey_eq, splitCompress_seller hseller]
  rfl

theorem writeMpOffers_eq (hs : s.DexFiled) : writeMpOffers s.myOffers =
    .ok (s.myOffers.toList.map fun e => e.2.saveOffer (sellerOf e.1)) := by
  apply writeEntries_eq
  intro e he
  obtain ⟨seller, hseller, -, hkey⟩ := hs.offers e.1 e.2 (OrderedMap.get?_eq_some.mpr he)
  have hsplit := @splitCompress_seller seller e.2.property hseller.plainAddress []
  rw [List.append_nil] at hsplit
  rw [hkey, sellerOf_offerKey hseller.plainAddress, strSellofferAddrPropCombo, hsplit]
  rfl

theorem writeMpAccepts_eq (hs : s.DexFiled) : writeMpAccepts s.myAccepts =
    .ok (s.myAccepts.toList.map fun e =>
      e.2.saveAccept (sellerOf e.1) (Nat.toDigits 10 e.2.property)) := by
  apply writeEntries_eq
  intro e he
  obtain ⟨seller, buyer, hseller, hbuyer, -, hkey⟩ :=
    hs.accepts e.1 e.2 (OrderedMap.get?_eq_some.mpr he)
  rw [hkey, sellerOf_acceptKey hseller.plainAddress,
    splitCompress_acceptKey hseller.plainAddress hbuyer.plainAddress]
  rfl

theorem fieldText_sellerOf_offer (hs : s.DexFiled) {e : List Char × Offer}
    (he : e ∈ s.myOffers.toList) : FieldText (sellerOf e.1) := by
  obtain ⟨seller, hseller, -, hkey⟩ := hs.offers e.1 e.2 (OrderedMap.get?_eq_some.mpr he)
  rw [hkey, sellerOf_offerKey hseller.plainAddress]
  exact hseller.fieldText

theorem fieldText_sellerOf_accept (hs : s.DexFiled) {e : List Char × Accept}
    (he : e ∈ s.myAccepts.toList) : FieldText (sellerOf e.1) := by
  obtain ⟨seller, buyer, hseller, -, -, hkey⟩ :=
    hs.accepts e.1 e.2 (OrderedMap.get?_eq_some.mpr he)
  rw [hkey, sellerOf_acceptKey hseller.plainAddress]
  exact hseller.fieldText

theorem offers_eq_empty_of_load (hs : s.DexFiled) (hhash : ∀ text, '\r' ∉ hash text)
    (hlines : writeMpOffers s.myOffers = .ok lines)
    {r : Int × OrderedMap (List Char) Offer}
    (h : loadFile inputMpOffersString hash verifyHash (stateFile hash lines) ∅ = .ok r) :
    s.myOffers = ∅ := by
  rw [writeMpOffers_eq hs] at hlines
  cases hlines
  rw [loadFile_of_plain hhash] at h
  · cases hentries : s.myOffers.toList with
    | nil => exact Keyed.toList_injective hentries
    | cons e entries =>
      have hfield := fieldText_sellerOf_offer hs (hentries ▸ List.mem_cons_self)
      rw [hentries, List.map_cons, inputLines] at h
      obtain ⟨r', hr', -⟩ := bind_eq_ok.mp h
      exact absurd hr' (inputMpOffersString_ne_ok (splitAny_saveOffer hfield))
  · intro line hline
    obtain ⟨e, he, rfl⟩ := List.mem_map.mp hline
    exact plainLine_saveOffer (fieldText_sellerOf_offer hs he)

def BuyersLost (myAccepts : OrderedMap (List Char) Accept) : Prop :=
  ∀ key a, myAccepts.get? key = some a → ∃ seller p, p < 2 ^ 32 ∧
    key = strAcceptAddrPropAddrCombo seller (Nat.toDigits 10 p) p

theorem accepts_eq_empty_of_load (hs : s.DexFiled) (hhash : ∀ text, '\r' ∉ hash text)
    {rc : Int} (hlines : writeMpAccepts s.myAccepts = .ok lines)
    (h : loadFile inputMpAcceptsString hash verifyHash (stateFile hash lines) ∅ =
      .ok (rc, s.myAccepts)) : s.myAccepts = ∅ := by
  rw [writeMpAccepts_eq hs] at hlines
  cases hlines
  rw [loadFile_of_plain hhash] at h
  · have hloaded : BuyersLost s.myAccepts := by
      apply inputLines_invariant _ _ h
      · intro key a ha
        cases ha
      · intro line hline m m' rc hm hinput key a ha
        obtain ⟨e, he, rfl⟩ := List.mem_map.mp hline
        obtain ⟨-, -, -, -, hp, -⟩ := hs.accepts e.1 e.2 (OrderedMap.get?_eq_some.mpr he)
        rcases key_of_inputMpAcceptsString (fieldText_sellerOf_accept hs he) fieldText_toDigits hp
          hinput ha with ⟨a', ha'⟩ | hkey
        · exact hm key a' ha'
        · exact ⟨_, _, hp, hkey⟩
    apply OrderedMap.ext_get?
    intro key
    rw [OrderedMap.get?_empty]
    by_contra hne
    obtain ⟨a, ha⟩ := Option.ne_none_iff_exists'.mp hne
    obtain ⟨seller, buyer, hseller, hbuyer, -, hkey⟩ := hs.accepts key a ha
    obtain ⟨seller', q, hq, hkey'⟩ := hloaded key a ha
    rw [hkey, acceptKey_inj hseller.plainAddress hbuyer.plainAddress] at hkey'
    exact hbuyer.ne_toDigits hq hkey'.2.2
  · intro line hline
    obtain ⟨e, he, rfl⟩ := List.mem_map.mp hline
    exact plainLine_saveAccept (fieldText_sellerOf_accept hs he) fieldText_toDigits

/-- The exchange survives a restart when it has no offers and no accepts, and only then. -/
theorem dexSurvives_iff (hs : s.DexFiled) (hhash : ∀ text, '\r' ∉ hash text) :
    s.DexSurvives hash verifyHash ↔ s.myOffers = ∅ ∧ s.myAccepts = ∅ := by
  constructor
  · rintro ⟨offerLines, acceptLines, hoffers, haccepts, hloadOffers, hloadAccepts⟩
    exact ⟨offers_eq_empty_of_load hs hhash hoffers hloadOffers,
      accepts_eq_empty_of_load hs hhash haccepts hloadAccepts⟩
  · rintro ⟨hoffers, haccepts⟩
    refine ⟨[], [], by rw [hoffers]; rfl, by rw [haccepts]; rfl, ?_, ?_⟩
    · rw [loadFile_of_plain hhash (by simp), hoffers]
      rfl
    · rw [loadFile_of_plain hhash (by simp), haccepts]
      rfl

theorem dexSurvives_of_initial : (initial .main .zero).DexSurvives lengthHash true :=
  (dexSurvives_iff (.of_empty rfl rfl) feed_not_mem_lengthHash).mpr ⟨rfl, rfl⟩

def sampleSeller : Address := List.replicate 12 's'

def sampleBuyer : Address := List.replicate 12 'b'

def sampleOpenSale : List (Int × Operation) :=
  [(100, .offerCreate sampleSeller 3 5 5 0 10 1),
    (101, .acceptCreate sampleBuyer sampleSeller 3 4 0)]

def sampleStock : NodeState :=
  { oneManaged .test ['i'] with ledger := .ofPostings [⟨⟨sampleSeller, 3, .balance⟩, 10⟩] }

def sampleOpenOffer : Offer := ⟨100, 5, 3, 5, 0, 10, 1, 0, 2⟩

def sampleOpenAccept : Accept := ⟨4, 4, 10, 3, 5, 5, 1, 101⟩

/-- The file of offers is read past its fields, and the accept is loaded with its property in the
place of its buyer. -/
theorem not_dexSurvives_of_sampleOpenSale :
    ∃ s', sampleStock.runOperations (.plain .test) sampleOpenSale = .ok s' ∧
      writeMpOffers s'.myOffers = .ok [sampleOpenOffer.saveOffer sampleSeller] ∧
      loadFile inputMpOffersString lengthHash true
        (stateFile lengthHash [sampleOpenOffer.saveOffer sampleSeller]) ∅ =
          .error (.abort .undefined) ∧
      s'.myAccepts =
        .set ∅ (strAcceptAddrPropAddrCombo sampleSeller sampleBuyer 3) sampleOpenAccept ∧
      writeMpAccepts s'.myAccepts = .ok [sampleOpenAccept.saveAccept sampleSeller ['3']] ∧
      loadFile inputMpAcceptsString lengthHash true
        (stateFile lengthHash [sampleOpenAccept.saveAccept sampleSeller ['3']]) ∅ =
          .ok (0, .set ∅ (strAcceptAddrPropAddrCombo sampleSeller ['3'] 3) sampleOpenAccept) ∧
      ¬ s'.DexSurvives lengthHash true := by
  obtain ⟨s', hrun, hmaps⟩ := exists_ok_of_map (g := fun s => (s.myOffers, s.myAccepts))
    (x := sampleStock.runOperations (.plain .test) sampleOpenSale)
    (b := (.set ∅ (strSellofferAddrPropCombo sampleSeller 3) sampleOpenOffer,
      .set ∅ (strAcceptAddrPropAddrCombo sampleSeller sampleBuyer 3) sampleOpenAccept))
    (by decide +kernel)
  obtain ⟨hoffers, haccepts⟩ := Prod.mk.inj hmaps
  have hwrite : writeMpOffers s'.myOffers = .ok [sampleOpenOffer.saveOffer sampleSeller] := by
    rw [hoffers]
    decide +kernel
  have hload : loadFile inputMpOffersString lengthHash true
      (stateFile lengthHash [sampleOpenOffer.saveOffer sampleSeller]) ∅ =
        .error (.abort .undefined) := by decide +kernel
  refine ⟨s', hrun, hwrite, hload, haccepts, ?_, by decide +kernel, ?_⟩
  · rw [haccepts]
    decide +kernel
  · rintro ⟨lines, -, hlines, -, hsame, -⟩
    rw [hwrite] at hlines
    cases hlines
    rw [hload] at hsame
    cases hsame

end NodeState

end TradeLayer
