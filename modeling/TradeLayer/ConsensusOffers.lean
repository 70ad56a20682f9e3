import Mathlib.Algebra.Order.BigOperators.Group.List
import TradeLayer.ConsensusHash
import TradeLayer.DexFiled

namespace TradeLayer
open Library

variable {seller : Address} {p : PropertyId} {o : Offer} {key line : List Char}

/-- The documented entry of an offer, with the seller that its key was made of. -/
def DocumentedBy (e : List Char × Offer) (line : List Char) : Prop :=
  ∃ seller, e.1 = strSellofferAddrPropCombo seller e.2.property ∧
    line = e.2.generateConsensusString seller

/-- Every offer is hashed with its documented entry, by ascending transaction. -/
def NodeState.OffersDocumented (s : NodeState) : Prop :=
  ∃ entries : List (List Char × Offer), entries.Perm s.myOffers.toList ∧
    entries.Pairwise (fun e e' => e.2.txid ≤ e'.2.txid) ∧
    List.Forall₂ DocumentedBy entries s.offerTexts

theorem length_toDigits_eq_one_iff : (Nat.toDigits 10 p).length = 1 ↔ p < 10 := by
  have hpos : 1 ≤ (Nat.toDigits 10 p).length := List.length_pos_iff.mpr Nat.toDigits_ne_nil
  have hle : (Nat.toDigits 10 p).length ≤ 1 ↔ p < 10 ^ 1 :=
    Nat.length_toDigits_le_iff (by decide) (by decide)
  rw [← pow_one 10, ← hle]
  exact ⟨fun h => h.le, fun h => le_antisymm h hpos⟩

theorem sellerOfCombo_combo : sellerOfCombo (strSellofferAddrPropCombo seller p) =
    (strSellofferAddrPropCombo seller p).take (seller.length + (Nat.toDigits 10 p).length - 1) := by
  have hd : 0 < (Nat.toDigits 10 p).length := List.length_pos_iff.mpr Nat.toDigits_ne_nil
  have hlen : (strSellofferAddrPropCombo seller p).length =
      seller.length + (Nat.toDigits 10 p).length + 1 := by
    rw [strSellofferAddrPropCombo, List.length_append, List.length_cons, Nat.add_assoc]
  rw [sellerOfCombo, if_neg (by omega), hlen]
  congr 1

theorem length_sellerOfCombo : (sellerOfCombo (strSellofferAddrPropCombo seller p)).length =
    seller.length + ((Nat.toDigits 10 p).length - 1) := by
  have hd : 0 < (Nat.toDigits 10 p).length := List.length_pos_iff.mpr Nat.toDigits_ne_nil
  rw [sellerOfCombo_combo, List.length_take, strSellofferAddrPropCombo, List.length_append,
    List.length_cons]
  omega

theorem sellerOfCombo_of_lt (hp : p < 10) :
    sellerOfCombo (strSellofferAddrPropCombo seller p) = seller := by
  rw [sellerOfCombo_combo, length_toDigits_eq_one_iff.mpr hp, Nat.add_sub_cancel,
    strSellofferAddrPropCombo, List.take_left']
  rfl

theorem length_generateConsensusString {a : Address} :
    (o.generateConsensusString a).length = (o.generateConsensusString []).length + a.length := by
  simp [Offer.generateConsensusString, barLine, List.intercalate]
  omega

theorem length_le_of_documentedBy {e : List Char × Offer} (h : DocumentedBy e line) :
    line.length ≤ (e.2.generateConsensusString (sellerOfCombo e.1)).length ∧
      (line.length = (e.2.generateConsensusString (sellerOfCombo e.1)).length →
        e.2.property < 10) := by
  obtain ⟨seller, hkey, rfl⟩ := h
  rw [length_generateConsensusString, length_generateConsensusString (a := sellerOfCombo e.1), hkey,
    length_sellerOfCombo, ← length_toDigits_eq_one_iff]
  have hpos : 0 < (Nat.toDigits 10 e.2.property).length :=
    List.length_pos_iff.mpr Nat.toDigits_ne_nil
  omega

theorem property_lt_of_sum {entries : List (List Char × Offer)} {lines : List (List Char)}
    (h : List.Forall₂ DocumentedBy entries lines)
    (hsum : (lines.map List.length).sum = (entries.map fun e =>
      (e.2.generateConsensusString (sellerOfCombo e.1)).length).sum) :
    ∀ e ∈ entries, e.2.property < 10 := by
  have hle : ∀ {entries lines}, List.Forall₂ DocumentedBy entries lines →
      (lines.map List.length).sum ≤ (entries.map fun e =>
        (e.2.generateConsensusString (sellerOfCombo e.1)).length).sum := by
    intro entries lines h
    induction h with
    | nil => exact le_rfl
    | cons he _ ih => exact Nat.add_le_add (length_le_of_documentedBy he).1 ih
  induction h with
  | nil => simp
  | cons he hrest ih =>
    obtain ⟨hfirst, hone⟩ := length_le_of_documentedBy he
    have hothers := hle hrest
    simp only [List.map_cons, List.sum_cons] at hsum
    exact List.forall_mem_cons.mpr ⟨hone (by omega), ih (by omega)⟩

namespace NodeState

variable {s s' : NodeState} {env : Environment} {calls : List (Int × Operation)}

theorem offerTexts_perm : s.offerTexts.Perm
    (s.myOffers.toList.map fun e => e.2.generateConsensusString (sellerOfCombo e.1)) := by
  rw [offerTexts, sortedTexts]
  have hperm := (List.perm_insertionSort (· ≤ ·) (s.myOffers.toList.map fun e =>
    toLex (e.2.txid, e.2.generateConsensusString (sellerOfCombo e.1)))).map fun e => (ofLex e).2
  rwa [List.map_map] at hperm

theorem property_lt_of_offersDocumented (h : s.OffersDocumented) :
    ∀ e ∈ s.myOffers.toList, e.2.property < 10 := by
  obtain ⟨entries, hperm, -, hdoc⟩ := h
  have hsum : (s.offerTexts.map List.length).sum = (entries.map fun e =>
      (e.2.generateConsensusString (sellerOfCombo e.1)).length).sum := by
    have hlengths := ((offerTexts_perm.trans (hperm.symm.map _)).map List.length).sum_eq
    rwa [List.map_map] at hlengths
  intro e he
  exact property_lt_of_sum hdoc hsum e (hperm.mem_iff.mpr he)

theorem offersDocumented_of_property_lt (hs : s.DexFiled)
    (h : ∀ e ∈ s.myOffers.toList, e.2.property < 10) : s.OffersDocumented := by
  let entry : List Char × Offer → Nat ×ₗ List Char := fun e =>
    toLex (e.2.txid, e.2.generateConsensusString (sellerOfCombo e.1))
  let entries := s.myOffers.toList.insertionSort fun e e' => entry e ≤ entry e'
  have hperm : entries.Perm s.myOffers.toList := List.perm_insertionSort _ _
  have hsorted : entries.map entry = (s.myOffers.toList.map entry).insertionSort (· ≤ ·) :=
    List.map_insertionSort _ _ _ _ fun _ _ _ _ => Iff.rfl
  refine ⟨entries, hperm, ?_, ?_⟩
  · have hpairs := List.pairwise_insertionSort (· ≤ ·) (s.myOffers.toList.map entry)
    rw [← hsorted, List.pairwise_map] at hpairs
    exact hpairs.imp fun hle => (Prod.Lex.toLex_le_toLex'.mp hle).1
  · have htexts : s.offerTexts = entries.map fun e => (ofLex (entry e)).2 := by
      rw [offerTexts, sortedTexts, ← hsorted, List.map_map]
      rfl
    rw [htexts, List.forall₂_map_right_iff, List.forall₂_same]
    intro e he
    obtain ⟨seller, -, -, hkey⟩ :=
      hs.offers e.1 e.2 (OrderedMap.get?_eq_some.mpr (hperm.mem_iff.mp he))
    refine ⟨seller, hkey, ?_⟩
    show e.2.generateConsensusString (sellerOfCombo e.1) = e.2.generateConsensusString seller
    rw [hkey, sellerOfCombo_of_lt (h e (hperm.mem_iff.mp he))]

/-- After every run of the exchange, the offers are hashed as documented if and only if none is
for a property of two digits or more. -/
theorem offersDocumented_iff (hoffers : s.myOffers = ∅) (haccepts : s.myAccepts = ∅)
    (hcalls : ∀ c ∈ calls, c.2.Encoded) (h : s.runOperations env calls = .ok s') :
    s'.OffersDocumented ↔ ∀ key o, s'.myOffers.get? key = some o → o.property < 10 := by
  have hfiled := (DexFiled.of_empty hoffers haccepts).runOperations hcalls h
  constructor
  · intro hdoc key o ho
    exact property_lt_of_offersDocumented hdoc (key, o) (OrderedMap.get?_eq_some.mp ho)
  · intro hlt
    apply offersDocumented_of_property_lt hfiled
    intro e he
    exact hlt e.1 e.2 (OrderedMap.get?_eq_some.mpr he)

def sampleVendor : Address := List.replicate 12 'v'

def sampleOffering (p : PropertyId) : List (Int × Operation) :=
  [(100, .offerCreate sampleVendor p 5 5 0 10 1)]

def sampleHoldings : NodeState :=
  { oneManaged .test ['i'] with
    ledger := .ofPostings [⟨⟨sampleVendor, 3, .balance⟩, 10⟩, ⟨⟨sampleVendor, 12, .balance⟩, 10⟩] }

theorem encoded_sampleOffering {p : PropertyId} (hp : p < 2 ^ 32) :
    ∀ c ∈ sampleOffering p, c.2.Encoded := by
  intro c hc
  obtain rfl := List.mem_singleton.mp hc
  have hletters : ∀ c ∈ sampleVendor, c.isAlphanum = true := by
    intro c hc
    rw [List.eq_of_mem_replicate hc]
    rfl
  exact ⟨⟨by decide, hletters⟩, hp⟩

theorem offersDocumented_of_sampleOffering :
    ∃ s', sampleHoldings.runOperations (.plain .test) (sampleOffering 3) = .ok s' ∧
      s'.offerTexts.length = 1 ∧ s'.OffersDocumented := by
  obtain ⟨s', hrun, hoffers⟩ := exists_ok_of_map (g := NodeState.myOffers)
    (x := sampleHoldings.runOperations (.plain .test) (sampleOffering 3))
    (b := .set ∅ (strSellofferAddrPropCombo sampleVendor 3) ⟨100, 5, 3, 5, 0, 10, 1, 0, 2⟩)
    (by decide +kernel)
  refine ⟨s', hrun, ?_, ?_⟩
  · rw [offerTexts, hoffers]
    decide +kernel
  · rw [offersDocumented_iff rfl rfl (encoded_sampleOffering (by decide)) hrun, hoffers]
    intro key o ho
    rw [OrderedMap.get?_set] at ho
    split_ifs at ho
    · cases ho
      decide
    · cases ho

/-- The dash and the first digit of the property are hashed as part of the address. -/
theorem not_offersDocumented_of_sampleOffering :
    ∃ s', sampleHoldings.runOperations (.plain .test) (sampleOffering 12) = .ok s' ∧
      s'.offerTexts = [barLine [hexText 1, sampleVendor ++ ['-'], ['1', '2'], ['5'], ['5'],
        ['0'], ['1', '0']]] ∧ ¬ s'.OffersDocumented := by
  obtain ⟨s', hrun, hoffers⟩ := exists_ok_of_map (g := NodeState.myOffers)
    (x := sampleHoldings.runOperations (.plain .test) (sampleOffering 12))
    (b := .set ∅ (strSellofferAddrPropCombo sampleVendor 12) ⟨100, 5, 12, 5, 0, 10, 1, 0, 2⟩)
    (by decide +kernel)
  refine ⟨s', hrun, ?_, ?_⟩
  · rw [offerTexts, hoffers]
    decide +kernel
  · intro hdoc
    have hlt := property_lt_of_offersDocumented hdoc
    rw [hoffers] at hlt
    exact absurd (hlt _ List.mem_cons_self) (by decide)

end NodeState

end TradeLayer
