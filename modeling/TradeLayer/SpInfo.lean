import TradeLayer.Basic
import TradeLayer.Library.Keyed

namespace TradeLayer
open Library

structure SPEntry where
  issuer : Address
  propType : Nat
  subcategory : List Char
  name : List Char
  numTokens : Int
  /-- The transaction that created the property. -/
  txid : Nat
  creationBlock : Nat
  updateBlock : Nat
  fixed : Bool
  manual : Bool
  blocksUntilExpiration : Nat
  notionalSize : Nat
  collateralCurrency : PropertyId
  marginRequirement : Nat
  initBlock : Int
  denomination : Nat
  series : List Char
  contractAssociated : PropertyId
  /-- Granted and revoked amounts by transaction. -/
  historicalData : OrderedMap Nat (List Int)
  /-- Issuers by the block and position of their appointment. -/
  historicalIssuers : OrderedMap (Int ×ₗ Int) Address

def mscPropertyTypeDivisible : Nat := 2
def allPropertyTypeContract : Nat := 3
def allPropertyTypePeggeds : Nat := 5
def allPropertyTypeOracleContract : Nat := 6

namespace SPEntry

def updateIssuer (sp : SPEntry) (block idx : Int) (newIssuer : Address) : SPEntry :=
  { sp with historicalIssuers := sp.historicalIssuers.set (toLex (block, idx)) newIssuer }

/-- The last issuer appointed up to the end of a block, the current one when there is no entry
that early. -/
def getIssuer (sp : SPEntry) (block : Int) : Address :=
  (sp.historicalIssuers.toList.takeWhile fun e => (ofLex e.1).1 ≤ block).foldl
    (fun _ e => e.2) sp.issuer

def IssuedBy (sp : SPEntry) (block : Int) : Prop :=
  ∃ e ∈ sp.historicalIssuers, (ofLex e.1).1 ≤ block

variable {sp : SPEntry} {block b : Int}

theorem getIssuer_eq : sp.getIssuer block =
    (sp.historicalIssuers.filter fun e => (ofLex e.1).1 ≤ block).toList.foldl
      (fun _ e => e.2) sp.issuer := by
  rw [getIssuer, Keyed.takeWhile_eq_filter]
  intro e e' hlt he'
  rw [decide_eq_true_eq] at he' ⊢
  rcases Prod.Lex.lt_iff.mp hlt with h | h
  · exact h.le.trans he'
  · exact h.1.le.trans he'

theorem getIssuer_of_appointed {sp' : SPEntry} {idx : Int} {a : Address} (h : sp.IssuedBy b)
    (hlt : b < block)
    (hsp' : sp'.historicalIssuers = (sp.updateIssuer block idx a).historicalIssuers) :
    sp'.getIssuer b = sp.getIssuer b := by
  have hfilter : (sp'.historicalIssuers.filter fun e => (ofLex e.1).1 ≤ b) =
      sp.historicalIssuers.filter fun e => (ofLex e.1).1 ≤ b := by
    apply Keyed.ext_mem
    intro e
    rw [hsp', Keyed.mem_filter, Keyed.mem_filter, decide_eq_true_eq]
    constructor
    · rintro ⟨he, hle⟩
      rcases Keyed.mem_assign.mp he with rfl | ⟨he, -⟩
      · exact absurd hle (not_le.mpr hlt)
      · exact ⟨he, hle⟩
    · rintro ⟨he, hle⟩
      refine ⟨Keyed.mem_assign.mpr (.inr ⟨he, fun hk => ?_⟩), hle⟩
      rw [show e.1 = toLex (block, idx) from hk] at hle
      exact absurd hle (not_le.mpr hlt)
  obtain ⟨e, he, hle⟩ := h
  have hmem : e ∈ (sp.historicalIssuers.filter fun e => (ofLex e.1).1 ≤ b).toList :=
    Keyed.mem_filter.mpr ⟨he, decide_eq_true hle⟩
  rw [getIssuer_eq, getIssuer_eq, hfilter]
  -- the first entry replaces the issuer that the record states
  cases hlist : (sp.historicalIssuers.filter fun e => (ofLex e.1).1 ≤ b).toList with
  | nil => exact absurd (hlist ▸ hmem) List.not_mem_nil
  | cons => rfl

theorem IssuedBy.updateIssuer {idx : Int} {a : Address} (h : sp.IssuedBy b) :
    (sp.updateIssuer block idx a).IssuedBy b := by
  obtain ⟨e, he, hle⟩ := h
  by_cases hk : e.1 = toLex (block, idx)
  · refine ⟨(toLex (block, idx), a), Keyed.mem_assign.mpr (.inl rfl), ?_⟩
    rwa [← hk]
  · exact ⟨e, Keyed.mem_assign.mpr (.inr ⟨he, hk⟩), hle⟩

theorem issuedBy_updateIssuer {idx : Int} {a : Address} (h : block ≤ b) :
    (sp.updateIssuer block idx a).IssuedBy b :=
  ⟨(toLex (block, idx), a), Keyed.mem_assign.mpr (.inl rfl), h⟩

/-- The members that the constructor of a record sets; the others keep whatever the memory
held. -/
def construct (garbage : SPEntry) : SPEntry :=
  { garbage with
    issuer := [], propType := 0, subcategory := [], name := [], numTokens := 0, txid := 0,
    creationBlock := 0, updateBlock := 0, fixed := false, manual := false, series := [],
    historicalData := ∅, historicalIssuers := ∅ }

def zero : SPEntry where
  issuer := []
  propType := 0
  subcategory := []
  name := []
  numTokens := 0
  txid := 0
  creationBlock := 0
  updateBlock := 0
  fixed := false
  manual := false
  blocksUntilExpiration := 0
  notionalSize := 0
  collateralCurrency := 0
  marginRequirement := 0
  initBlock := 0
  denomination := 0
  series := []
  contractAssociated := 0
  historicalData := ∅
  historicalIssuers := ∅

def impliedTl (garbage : SPEntry) : SPEntry :=
  { (construct garbage).updateIssuer 0 0 [] with
    propType := mscPropertyTypeDivisible, numTokens := 700000,
    name := ['O', 'm', 'n', 'i', ' ', 't', 'o', 'k', 'e', 'n', 's'] }

end SPEntry

/-- The property database: the current records, the records that were replaced, by the block
that replaced them, the properties by the transactions that created them, and the next
identifiers. -/
structure SPInfo where
  entries : OrderedMap PropertyId SPEntry
  replaced : OrderedMap (Nat ×ₗ PropertyId) SPEntry
  txIndex : OrderedMap Nat PropertyId
  nextSpid : PropertyId
  nextTestSpid : PropertyId
  /-- What records hold where nothing was written. -/
  garbage : SPEntry

namespace SPInfo

def init (garbage : SPEntry) : SPInfo :=
  { entries := ∅, replaced := ∅, txIndex := ∅, nextSpid := 3, nextTestSpid := testEcoProperty1,
    garbage }

def oneManaged (issuer : Address) : SPInfo :=
  { init .zero with
    entries := OrderedMap.set ∅ 3 { SPEntry.zero.updateIssuer 1 0 issuer with
      issuer, manual := true }
    nextSpid := 4 }

variable {db : SPInfo} {p q : PropertyId} {sp : SPEntry}

def peekNextSPID (db : SPInfo) (ecosystem : Nat) : PropertyId :=
  if ecosystem = tlPropertyMsc then db.nextSpid
  else if ecosystem = tlPropertyTmsc then db.nextTestSpid
  else 0

def isPropertyIdValid (db : SPInfo) (propertyId : PropertyId) : Bool :=
  if propertyId = 0 then false
  else if propertyId < testEcoProperty1 then propertyId < db.peekNextSPID 1
  else propertyId < db.peekNextSPID 2

/-- The second base property has no record: the caller keeps the one it constructed. -/
def getSP (db : SPInfo) (propertyId : PropertyId) : Option SPEntry :=
  if propertyId = tlPropertyMsc then some (.impliedTl db.garbage)
  else if propertyId = tlPropertyTmsc then some (.construct db.garbage)
  else db.entries.get? propertyId

/-- An issuer of a property is on record since before the end of a block. -/
def Appointed (db : SPInfo) (p : PropertyId) (b : Int) : Prop :=
  ∃ sp, db.getSP p = some sp ∧ sp.IssuedBy b

def updateSP (db : SPInfo) (propertyId : PropertyId) (info : SPEntry) : Bool × SPInfo :=
  if propertyId = tlPropertyMsc ∨ propertyId = tlPropertyTmsc then (false, db)
  else
    let replaced := match db.entries.get? propertyId with
      | some old => db.replaced.set (toLex (info.updateBlock, propertyId)) old
      | none => db.replaced
    (true, { db with replaced, entries := db.entries.set propertyId info })

theorem updateSP_eq (db : SPInfo) (sp : SPEntry) (h : p ≠ tlPropertyMsc ∧ p ≠ tlPropertyTmsc) :
    (db.updateSP p sp).1 = true ∧
      (∀ q, (db.updateSP p sp).2.getSP q = if q = p then some sp else db.getSP q) ∧
      ∀ q, (db.updateSP p sp).2.isPropertyIdValid q = db.isPropertyIdValid q := by
  have hp : ¬ (p = tlPropertyMsc ∨ p = tlPropertyTmsc) := not_or.mpr h
  rw [updateSP, if_neg hp]
  refine ⟨rfl, fun q => ?_, fun q => rfl⟩
  by_cases hq : q = p
  · subst hq
    simp [getSP, h, OrderedMap.get?_set]
  · simp [getSP, hq, OrderedMap.get?_set]

theorem updateSP_base (db : SPInfo) (sp : SPEntry)
    (h : ¬ (p ≠ tlPropertyMsc ∧ p ≠ tlPropertyTmsc)) :
    (db.updateSP p sp).1 = false := by
  rw [updateSP, if_pos (by tauto)]

theorem manual_of_getSP (h : db.getSP p = some sp) (hm : sp.manual = true) :
    p ≠ tlPropertyMsc ∧ p ≠ tlPropertyTmsc := by
  unfold getSP at h
  split_ifs at h with h₁ h₂
  · cases h
    simp [SPEntry.impliedTl] at hm
    cases hm
  · cases h
    cases hm
  · exact ⟨h₁, h₂⟩

end SPInfo

end TradeLayer
