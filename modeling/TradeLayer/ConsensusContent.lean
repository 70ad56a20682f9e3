import Mathlib.Data.List.TakeWhile
import TradeLayer.ConsensusHash
import TradeLayer.ContractDex

namespace TradeLayer
open Library

def hashedTallies : List TallyType := [.balance, .sellOfferReserve, .acceptReserve, .metadexReserve]

namespace Tally

variable {t t' : Tally} {a : Address} {p : PropertyId}

def Counted (t : Tally) (p : PropertyId) : Prop :=
  ∃ ttype ∈ hashedTallies, t.getMoney p ttype ≠ 0

theorem counted_congr (h : ∀ ttype ∈ hashedTallies, t.getMoney p ttype = t'.getMoney p ttype) :
    t.Counted p ↔ t'.Counted p := by
  constructor
  · rintro ⟨ttype, htype, hne⟩
    exact ⟨ttype, htype, h ttype htype ▸ hne⟩
  · rintro ⟨ttype, htype, hne⟩
    exact ⟨ttype, htype, (h ttype htype).symm ▸ hne⟩

theorem mem_keys_iff : p ∈ t.toList.map Prod.fst ↔ (t.get? p).isSome = true := by
  simp only [List.mem_map, Option.isSome_iff_exists, OrderedMap.get?_eq_some, Keyed.mem_def,
    Prod.exists, exists_and_right, exists_eq_right]

theorem isSome_of_counted (h : t.Counted p) : (t.get? p).isSome = true := by
  obtain ⟨ttype, -, hne⟩ := h
  cases hget : t.get? p with
  | none => simp [getMoney, hget] at hne
  | some record => rfl

theorem keys_ascending : (t.toList.map Prod.fst).Pairwise (· < ·) :=
  List.pairwise_map.mpr t.sorted

theorem generateConsensusString_ne_nil_iff : t.generateConsensusString a p ≠ [] ↔ t.Counted p := by
  simp [generateConsensusString, Counted, hashedTallies, barLine, List.intercalate]
  tauto

theorem generateConsensusString_starts : t.generateConsensusString a p = [] ∨
    ∃ rest, t.generateConsensusString a p = a ++ '|' :: rest := by
  unfold generateConsensusString
  dsimp only
  split_ifs
  · exact .inl rfl
  · exact .inr ⟨_, rfl⟩

theorem generateConsensusString_congr
    (h : ∀ ttype ∈ hashedTallies, t.getMoney p ttype = t'.getMoney p ttype) :
    t.generateConsensusString a p = t'.generateConsensusString a p := by
  simp only [hashedTallies, List.forall_mem_cons] at h
  obtain ⟨hbalance, hsell, haccept, hmetadex, -⟩ := h
  simp only [generateConsensusString, hbalance, hsell, haccept, hmetadex]

def allStrings (t : Tally) (a : Address) : List Char :=
  (t.toList.map Prod.fst).flatMap (t.generateConsensusString a)

/-- The walk over the properties sees all of them, or none when there is a record of the
property zero, the first of them. -/
theorem consensusStrings_eq : t.consensusStrings a =
    if (t.get? 0).isSome then [] else t.allStrings a := by
  rw [consensusStrings, allStrings]
  split_ifs with h
  · cases hkeys : t.toList.map Prod.fst with
    | nil => rfl
    | cons q keys =>
      have hzero := mem_keys_iff.mpr h
      have hasc := keys_ascending (t := t)
      rw [hkeys] at hzero hasc
      rcases List.mem_cons.mp hzero with rfl | hmem
      · rfl
      · exact absurd ((List.pairwise_cons.mp hasc).1 0 hmem) (Nat.not_lt_zero q)
  · congr 1
    rw [List.takeWhile_eq_self_iff]
    intro q hq
    have hne : q ≠ 0 := by
      rintro rfl
      exact h (mem_keys_iff.mp hq)
    simpa using hne

theorem allStrings_congr
    (h : ∀ p, ∀ ttype ∈ hashedTallies, t.getMoney p ttype = t'.getMoney p ttype) :
    t.allStrings a = t'.allStrings a := by
  apply flatMap_eq_of_support keys_ascending keys_ascending
  · intro p
    rw [generateConsensusString_ne_nil_iff, generateConsensusString_ne_nil_iff, mem_keys_iff,
      mem_keys_iff]
    constructor
    · rintro ⟨-, hcounted⟩
      have hcounted' := (counted_congr (h p)).mp hcounted
      exact ⟨isSome_of_counted hcounted', hcounted'⟩
    · rintro ⟨-, hcounted'⟩
      have hcounted := (counted_congr (h p)).mpr hcounted'
      exact ⟨isSome_of_counted hcounted, hcounted⟩
  · intro p _ _
    exact generateConsensusString_congr (h p)

theorem allStrings_ne_nil_iff : t.allStrings a ≠ [] ↔ ∃ p, t.Counted p := by
  rw [allStrings, Ne, List.flatMap_eq_nil_iff]
  push Not
  constructor
  · rintro ⟨p, -, hne⟩
    exact ⟨p, generateConsensusString_ne_nil_iff.mp hne⟩
  · rintro ⟨p, hp⟩
    exact ⟨p, mem_keys_iff.mpr (isSome_of_counted hp), generateConsensusString_ne_nil_iff.mpr hp⟩

theorem allStrings_starts (h : t.allStrings a ≠ []) : ∃ rest, t.allStrings a = a ++ '|' :: rest :=
  starts_of_flatMap_ne_nil (fun _ _ => generateConsensusString_starts) h

end Tally

namespace NodeState

variable {s s' : NodeState} {a : Address} {p : PropertyId} {ecosystem : Nat}
variable {entries entries' : List (Address × Tally)}

def issuerIn (s : NodeState) (ecosystem : Nat) (p : PropertyId) : Option Address :=
  if startPropertyId ecosystem ≤ p ∧ p < s.spInfo.peekNextSPID ecosystem then
    (s.spInfo.getSP p).map SPEntry.issuer
  else none

/-- Two states with the same contents, however they are stored: missing records are zero, the
orders are in any levels, and all that is not hashed is free. -/
structure SameContent (s s' : NodeState) : Prop where
  money : ∀ a p, ∀ ttype ∈ hashedTallies,
    s.ledger.money a p ttype = s'.ledger.money a p ttype
  offers : s.myOffers = s'.myOffers
  accepts : s.myAccepts = s'.myAccepts
  orders : s.metadexOrders.Perm s'.metadexOrders
  issuers : ∀ ecosystem p, s.issuerIn ecosystem p = s'.issuerIn ecosystem p

def RecordsZero (s : NodeState) (a : Address) : Prop :=
  ((s.ledger.tally a).get? 0).isSome = true

instance : Decidable (s.RecordsZero a) := inferInstanceAs (Decidable (_ = true))

def addresses (s : NodeState) : List Address := s.ledger.mpTallyMap.toList.map Prod.fst

theorem addresses_ascending : s.addresses.Pairwise (· < ·) :=
  List.pairwise_map.mpr s.ledger.mpTallyMap.sorted

theorem tallyTexts_eq (h : entries.Perm s.ledger.mpTallyMap.toList) : tallyTexts entries =
    s.addresses.flatMap fun a => (s.ledger.tally a).consensusStrings a := by
  rw [tallyTexts, Keyed.foldl_insert_of_perm h, addresses, List.flatMap_map]
  apply List.flatMap_congr
  intro e he
  have hget : s.ledger.mpTallyMap.get? e.1 = some e.2 := OrderedMap.get?_eq_some.mpr he
  rw [Ledger.tally, hget, Option.getD_some]

theorem mem_addresses_of_counted (h : (s.ledger.tally a).Counted p) : a ∈ s.addresses := by
  have hsome := Tally.isSome_of_counted h
  cases hget : s.ledger.mpTallyMap.get? a with
  | none => simp [Ledger.tally, hget] at hsome
  | some t => exact List.mem_map.mpr ⟨(a, t), OrderedMap.get?_eq_some.mp hget, rfl⟩

theorem mem_addresses_of_consensusStrings_ne_nil
    (h : (s.ledger.tally a).consensusStrings a ≠ []) : a ∈ s.addresses := by
  rw [Tally.consensusStrings_eq] at h
  split_ifs at h
  · exact absurd rfl h
  · obtain ⟨p, hp⟩ := Tally.allStrings_ne_nil_iff.mp h
    exact mem_addresses_of_counted hp

/-- The records of the property zero stand for the same addresses, among those that hold
something else. -/
def SameZeros (s s' : NodeState) : Prop :=
  ∀ a p, p ≠ 0 → (s.ledger.tally a).Counted p → (s.RecordsZero a ↔ s'.RecordsZero a)

namespace SameContent

theorem allStrings_eq (h : s.SameContent s') :
    (s.ledger.tally a).allStrings a = (s'.ledger.tally a).allStrings a :=
  Tally.allStrings_congr (h.money a)

theorem counted_iff (h : s.SameContent s') :
    (s.ledger.tally a).Counted p ↔ (s'.ledger.tally a).Counted p :=
  Tally.counted_congr (h.money a p)

theorem allStrings_eq_nil (h : s.SameContent s') (hzeros : s.SameZeros s')
    (hne : ¬ (s.RecordsZero a ↔ s'.RecordsZero a)) : (s.ledger.tally a).allStrings a = [] := by
  by_contra htext
  obtain ⟨p, hp⟩ := Tally.allStrings_ne_nil_iff.mp htext
  by_cases hzero : p = 0
  · subst hzero
    exact hne (iff_of_true (Tally.isSome_of_counted hp)
      (Tally.isSome_of_counted (h.counted_iff.mp hp)))
  · exact hne (hzeros a p hzero hp)

theorem consensusStrings_eq (h : s.SameContent s') (hzeros : s.SameZeros s') :
    (s.ledger.tally a).consensusStrings a = (s'.ledger.tally a).consensusStrings a := by
  rw [Tally.consensusStrings_eq, Tally.consensusStrings_eq, ← h.allStrings_eq]
  by_cases hsame : s.RecordsZero a ↔ s'.RecordsZero a
  · exact if_congr hsame rfl rfl
  · rw [h.allStrings_eq_nil hzeros hsame, ite_self, ite_self]

theorem tallyTexts_eq (h : s.SameContent s') (hzeros : s.SameZeros s')
    (hentries : entries.Perm s.ledger.mpTallyMap.toList)
    (hentries' : entries'.Perm s'.ledger.mpTallyMap.toList) :
    tallyTexts entries = tallyTexts entries' := by
  rw [NodeState.tallyTexts_eq hentries, NodeState.tallyTexts_eq hentries']
  apply flatMap_eq_of_support addresses_ascending addresses_ascending
  · intro a
    constructor
    · rintro ⟨-, hne⟩
      rw [h.consensusStrings_eq hzeros] at hne
      exact ⟨mem_addresses_of_consensusStrings_ne_nil hne, hne⟩
    · rintro ⟨-, hne⟩
      rw [← h.consensusStrings_eq hzeros] at hne
      exact ⟨mem_addresses_of_consensusStrings_ne_nil hne, hne⟩
  · exact fun a _ _ => h.consensusStrings_eq hzeros

theorem metadexTexts_eq (h : s.SameContent s') : s.metadexTexts = s'.metadexTexts := by
  rw [metadexTexts, metadexTexts, sortedTexts, sortedTexts,
    insertionSort_eq_of_perm (h.orders.map _)]

end SameContent

def propertiesOf (s : NodeState) (ecosystem : Nat) : List PropertyId :=
  List.range' (startPropertyId ecosystem)
    (s.spInfo.peekNextSPID ecosystem - startPropertyId ecosystem)

def issuerText (s : NodeState) (ecosystem : Nat) (p : PropertyId) : List Char :=
  ((s.issuerIn ecosystem p).map (TradeLayer.generateConsensusString p)).getD []

theorem issuerTexts_eq :
    s.issuerTexts ecosystem = (s.propertiesOf ecosystem).flatMap (s.issuerText ecosystem) := by
  rw [issuerTexts, propertiesOf]
  apply List.flatMap_congr
  intro p hp
  rw [issuerText, issuerIn, if_pos (mem_range'_sub.mp hp)]
  cases s.spInfo.getSP p <;> rfl

theorem mem_propertiesOf_of_issuerText_ne_nil (h : s.issuerText ecosystem p ≠ []) :
    p ∈ s.propertiesOf ecosystem := by
  rw [issuerText, issuerIn] at h
  split_ifs at h with hin
  · exact mem_range'_sub.mpr hin
  · exact absurd rfl h

theorem SameContent.issuerTexts_eq (h : s.SameContent s') :
    s.issuerTexts ecosystem = s'.issuerTexts ecosystem := by
  have htext : ∀ p, s.issuerText ecosystem p = s'.issuerText ecosystem p := by
    intro p
    rw [issuerText, h.issuers, issuerText]
  rw [NodeState.issuerTexts_eq, NodeState.issuerTexts_eq]
  apply flatMap_eq_of_support List.pairwise_lt_range' List.pairwise_lt_range'
  · intro p
    constructor
    · rintro ⟨-, hne⟩
      rw [htext] at hne
      exact ⟨mem_propertiesOf_of_issuerText_ne_nil hne, hne⟩
    · rintro ⟨-, hne⟩
      rw [← htext] at hne
      exact ⟨mem_propertiesOf_of_issuerText_ne_nil hne, hne⟩
  · exact fun p _ _ => htext p

def hashedAddresses (s : NodeState) : List Address :=
  s.addresses.filter fun a => (s.ledger.tally a).consensusStrings a ≠ []

theorem mem_hashedAddresses (hp : (s.ledger.tally a).Counted p) :
    a ∈ s.hashedAddresses ↔ ¬ s.RecordsZero a := by
  rw [hashedAddresses, List.mem_filter, and_iff_right (mem_addresses_of_counted hp),
    decide_eq_true_iff, Tally.consensusStrings_eq]
  have htext := Tally.allStrings_ne_nil_iff (a := a).mpr ⟨p, hp⟩
  by_cases hz : s.RecordsZero a
  · simp [hz, if_pos (show _ = true from hz)]
  · simp [hz, if_neg (show ¬ _ = true from hz), htext]

theorem allStrings_ne_nil_of_mem (h : a ∈ s.hashedAddresses) :
    (s.ledger.tally a).allStrings a ≠ [] := by
  have hne := (List.mem_filter.mp h).2
  rw [decide_eq_true_iff, Tally.consensusStrings_eq] at hne
  split_ifs at hne
  · exact absurd rfl hne
  · exact hne

theorem tallyTexts_eq_hashed (h : entries.Perm s.ledger.mpTallyMap.toList) : tallyTexts entries =
    s.hashedAddresses.flatMap fun a => (s.ledger.tally a).allStrings a := by
  rw [tallyTexts_eq h, flatMap_eq_flatMap_filter]
  apply List.flatMap_congr
  intro a ha
  have hne := (List.mem_filter.mp ha).2
  rw [decide_eq_true_iff, Tally.consensusStrings_eq] at hne
  rw [Tally.consensusStrings_eq]
  split_ifs at hne ⊢
  · exact absurd rfl hne
  · rfl

theorem SameContent.consensusBytes_eq_iff (h : s.SameContent s') :
    s.consensusBytes entries = s'.consensusBytes entries' ↔
      tallyTexts entries = tallyTexts entries' := by
  have hoffers : s.offerTexts = s'.offerTexts := by rw [offerTexts, h.offers, offerTexts]
  have haccepts : s.acceptTexts = s'.acceptTexts := by rw [acceptTexts, h.accepts, acceptTexts]
  simp only [consensusBytes, hoffers, haccepts, h.metadexTexts_eq, h.issuerTexts_eq,
    List.append_left_inj]

theorem SameContent.sameZeros_of_tallyTexts_eq (h : s.SameContent s')
    (hentries : entries.Perm s.ledger.mpTallyMap.toList)
    (hentries' : entries'.Perm s'.ledger.mpTallyMap.toList)
    (hbars : ∀ a ∈ s.addresses, '|' ∉ a) (hbars' : ∀ a ∈ s'.addresses, '|' ∉ a)
    (heq : tallyTexts entries = tallyTexts entries') : s.SameZeros s' := by
  have hnames : s.hashedAddresses = s'.hashedAddresses := by
    rw [tallyTexts_eq_hashed hentries, tallyTexts_eq_hashed hentries'] at heq
    have hsame : (fun a => (s'.ledger.tally a).allStrings a) =
        fun a => (s.ledger.tally a).allStrings a := funext fun a => h.allStrings_eq.symm
    rw [hsame] at heq
    apply eq_of_flatMap_eq '|' _ _ heq
    · intro a ha
      exact ⟨hbars a (List.mem_of_mem_filter ha),
        Tally.allStrings_starts (allStrings_ne_nil_of_mem ha)⟩
    · intro a ha
      rw [h.allStrings_eq]
      exact ⟨hbars' a (List.mem_of_mem_filter ha),
        Tally.allStrings_starts (allStrings_ne_nil_of_mem ha)⟩
  intro a p _ hp
  rw [← not_iff_not, ← mem_hashedAddresses hp, ← mem_hashedAddresses (h.counted_iff.mp hp), hnames]

/-- States with the same contents are hashed from the same bytes when they have their records of
the property zero at the same addresses, of those that hold something else; and only then, where
no address has a bar. -/
theorem consensusBytes_of_sameContent (h : s.SameContent s')
    (hentries : entries.Perm s.ledger.mpTallyMap.toList)
    (hentries' : entries'.Perm s'.ledger.mpTallyMap.toList) :
    (s.SameZeros s' → s.consensusBytes entries = s'.consensusBytes entries') ∧
      ((∀ a ∈ s.addresses, '|' ∉ a) → (∀ a ∈ s'.addresses, '|' ∉ a) →
        s.consensusBytes entries = s'.consensusBytes entries' → s.SameZeros s') := by
  rw [h.consensusBytes_eq_iff]
  constructor
  · intro hzeros
    exact h.tallyTexts_eq hzeros hentries hentries'
  · intro hbars hbars' heq
    exact h.sameZeros_of_tallyTexts_eq hentries hentries' hbars hbars' heq

theorem sameContent_of_refused {who : Address} {n : Int} {ttype : TallyType} {l : Ledger}
    (h : s.ledger.updateTallyMap who p n ttype = .ok (false, l)) :
    s.SameContent { s with ledger := l } where
  money := by
    intro a q u _
    simp [(Ledger.posted_of_updateTallyMap h).money_eq a q u]
  offers := rfl
  accepts := rfl
  orders := .refl _
  issuers := fun _ _ => rfl

def sampleTwoHolders : NodeState :=
  { initial .test .zero with
    ledger := .ofPostings [⟨⟨['a'], 3, .balance⟩, 5⟩, ⟨⟨['b'], 3, .balance⟩, 7⟩] }

theorem not_recordsZero (h : ∀ e ∈ s.ledger.mpTallyMap.toList, e.2.get? 0 = none) :
    ¬ s.RecordsZero a := by
  rw [RecordsZero, Ledger.tally]
  cases hget : s.ledger.mpTallyMap.get? a with
  | none => simp
  | some t => simp [h (a, t) (OrderedMap.get?_eq_some.mp hget)]

theorem consensusBytes_of_sampleTwoHolders : ∃ l,
    sampleTwoHolders.ledger.updateTallyMap ['a'] 4 (-1) .balance = .ok (false, l) ∧
      (l.tally ['a']).toList.length = 2 ∧
      sampleTwoHolders.consensusBytes sampleTwoHolders.ledger.mpTallyMap.toList =
        consensusBytes { sampleTwoHolders with ledger := l } l.mpTallyMap.toList.reverse := by
  obtain ⟨⟨ok, l⟩, hrun, hl⟩ := exists_ok_of_map
    (g := fun r => (r.1, (r.2.tally ['a']).toList.length,
      r.2.mpTallyMap.toList.all fun e => (e.2.get? 0).isNone))
    (x := sampleTwoHolders.ledger.updateTallyMap ['a'] 4 (-1) .balance)
    (b := (false, 2, true)) (by decide +kernel)
  simp only [Prod.mk.injEq, List.all_eq_true, Option.isNone_iff_eq_none] at hl
  obtain ⟨rfl, hlength, hzeros⟩ := hl
  have hzeros' : ∀ e ∈ sampleTwoHolders.ledger.mpTallyMap.toList,
      (e.2.get? 0).isNone = true := by decide +kernel
  refine ⟨l, hrun, hlength, ?_⟩
  apply (consensusBytes_of_sameContent (sameContent_of_refused hrun) (.refl _)
    (List.reverse_perm _)).1
  intro a p _ _
  exact iff_of_false (not_recordsZero fun e he => Option.isNone_iff_eq_none.mp (hzeros' e he))
    (not_recordsZero hzeros)

/-- The refused fee of a contract without a collateral currency hides the holdings of the taker. -/
theorem consensusBytes_ne_of_sampleTwoHolders : ∃ s',
    sampleTwoHolders.tryTally ['a'] 0 (-1) .balance = .ok s' ∧ sampleTwoHolders.SameContent s' ∧
      sampleTwoHolders.consensusBytes sampleTwoHolders.ledger.mpTallyMap.toList ≠
        s'.consensusBytes s'.ledger.mpTallyMap.toList := by
  obtain ⟨⟨ok, l⟩, hrun, hl⟩ := exists_ok_of_map
    (g := fun r => (r.1, decide
      (sampleTwoHolders.consensusBytes sampleTwoHolders.ledger.mpTallyMap.toList =
        consensusBytes { sampleTwoHolders with ledger := r.2 } r.2.mpTallyMap.toList)))
    (x := sampleTwoHolders.ledger.updateTallyMap ['a'] 0 (-1) .balance)
    (b := (false, false)) (by decide +kernel)
  obtain ⟨rfl, hne⟩ := Prod.mk.inj hl
  refine ⟨{ sampleTwoHolders with ledger := l }, ?_, sameContent_of_refused hrun,
    of_decide_eq_false hne⟩
  rw [tryTally, hrun]
  rfl

end NodeState

end TradeLayer
