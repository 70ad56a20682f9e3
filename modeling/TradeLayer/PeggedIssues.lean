import TradeLayer.ContractCancel
import TradeLayer.Library.Text
import TradeLayer.PacketFields
import TradeLayer.ParseTransaction
import TradeLayer.SpRollback

namespace TradeLayer
open Library

def pktErrorContractDex : Int := -100000

namespace SPInfo

/-- The first pegged currency of a denomination. Properties of the test ecosystem are not
looked at. -/
def findPegged (db : SPInfo) (den : Nat) : Option PropertyId :=
  (List.range' 1 (db.peekNextSPID 1 - 1)).find? fun propertyId =>
    (db.getSP propertyId).any fun sp =>
      sp.propType = allPropertyTypePeggeds ∧ sp.denomination = den

def peggedId (db : SPInfo) (ecosystem den : Nat) : PropertyId :=
  (db.findPegged den).getD (db.takeSPID ecosystem).1

def seriesText (first last : Int) : List Char :=
  ['N', Char.ofNat 0xC2, Char.ofNat 0xBA, ' '] ++ integerText first ++ [' ', '-', ' '] ++
    integerText last

/-- Writes the record of an issue: of a new property for the first one of its denomination. -/
def recordPegged (db : SPInfo) (txid blockHash den : Nat) (amountNeeded : Int)
    (tx : PacketFields) : Except Abort (PropertyId × SPInfo) :=
  match db.findPegged den with
  | none =>
    .ok (db.putSP tx.ecosystem.toNat { SPEntry.construct db.garbage with
      issuer := tx.sender
      txid
      propType := tx.propType.toNat
      subcategory := byteChars tx.subcategory
      name := byteChars tx.name
      fixed := true
      manual := true
      creationBlock := blockHash
      updateBlock := blockHash
      numTokens := amountNeeded
      contractAssociated := tx.contractId.toNat
      denomination := den
      series := seriesText 1 (amountNeeded.tdiv factorE) })
  | some npropertyId => do
    let newSP := (db.getSP npropertyId).getD (.construct db.garbage)
    let numTokens ← checked64 (newSP.numTokens + amountNeeded)
    let series := seriesText (newSP.numTokens.tdiv factorE + 1) (numTokens.tdiv factorE)
    return (npropertyId, (db.updateSP npropertyId { newSP with numTokens, series }).2)

end SPInfo

/-- The collateral and the contracts that an issue locks. -/
def peggedBacking (sp : SPEntry) (amount : UInt64) : Except Abort (Int × Int) := do
  let rAmount := amount.toNat
  let contracts ← divideAndRoundUp (rAmount * sp.notionalSize) factorE
  let amountNeeded ← convertTo64 rAmount
  let contracts ← convertTo64 (contracts * factorE)
  return (amountNeeded, contracts)

def backingPostings (tx : PacketFields) (amountNeeded contracts : Int) : List (Posting Account) :=
  [⟨⟨tx.sender, tx.contractId.toNat, .negativeBalance⟩, -contracts⟩,
    ⟨⟨tx.sender, tx.contractId.toNat, .contractdexReserve⟩, contracts⟩,
    ⟨⟨tx.sender, tx.propertyId.toNat, .balance⟩, -amountNeeded⟩,
    ⟨⟨tx.sender, tx.propertyId.toNat, .contractdexReserve⟩, amountNeeded⟩]

/-- The contracts that a redemption puts on the side of the position. With contracts on both
sides it does not. -/
def freedPostings (tx : PacketFields) (contractsNeeded posContracts negContracts : Int) :
    List (Posting Account) :=
  if 0 < posContracts ∧ negContracts = 0 then
    let dif := posContracts - contractsNeeded
    if 0 ≤ dif then [⟨⟨tx.sender, tx.contractId.toNat, .positiveBalance⟩, -contractsNeeded⟩]
    else
      [⟨⟨tx.sender, tx.contractId.toNat, .positiveBalance⟩, -posContracts⟩,
        ⟨⟨tx.sender, tx.contractId.toNat, .negativeBalance⟩, -dif⟩]
  else if posContracts = 0 ∧ 0 ≤ negContracts then
    [⟨⟨tx.sender, tx.contractId.toNat, .negativeBalance⟩, contractsNeeded⟩]
  else []

def redemptionPostings (tx : PacketFields) (collateralId : PropertyId)
    (contractsNeeded posContracts negContracts : Int) : List (Posting Account) :=
  [⟨⟨tx.sender, tx.propertyId.toNat, .balance⟩, asInt64 (-tx.amount)⟩,
    ⟨⟨tx.sender, tx.contractId.toNat, .contractdexReserve⟩, -contractsNeeded⟩,
    ⟨⟨tx.sender, collateralId, .contractdexReserve⟩, asInt64 (-tx.amount)⟩,
    ⟨⟨tx.sender, collateralId, .balance⟩, asInt64 tx.amount⟩] ++
    freedPostings tx contractsNeeded posContracts negContracts

namespace NodeState

/-- An insertion into a map keeps the entry that is there. -/
def addPeggedIssuer (s : NodeState) (who : Address) (propertyId : PropertyId) : NodeState :=
  if (s.peggedIssuers.get? who).isSome then s
  else { s with peggedIssuers := s.peggedIssuers.set who propertyId }

def issuePegged (s : NodeState) (txid blockHash : Nat) (tx : PacketFields) (sp : SPEntry)
    (amountNeeded contracts : Int) : Except Abort (Int × NodeState) := do
  let (npropertyId, spInfo) ←
    s.spInfo.recordPegged txid blockHash sp.denomination amountNeeded tx
  if npropertyId = 0 then .error .assertion
  else do
    let s ← { s with spInfo }.assertTallies
      [⟨⟨tx.sender, npropertyId, .balance⟩, asInt64 tx.amount⟩]
    let s ← (s.addPeggedIssuer tx.sender npropertyId).assertTallies
      (backingPostings tx amountNeeded contracts)
    return (0, s)

/-- That the property is a contract is checked behind a return only. -/
def logicMathCreatePeggedCurrency (s : NodeState) (env : Environment)
    (allowed : PropertyId → Bool) (txid : Nat) (tx : PacketFields) :
    Except Abort (Int × NodeState) :=
  match env.chainActive (asInt32 tx.block.toNat) with
  | none => .ok (pktErrorSp - 20, s)
  | some blockHash =>
    let nBalance := s.ledger.getTokenBalance tx.sender tx.propertyId.toNat .balance
    if tx.ecosystem.toNat ≠ tlPropertyMsc ∧ tx.ecosystem.toNat ≠ tlPropertyTmsc then
      .ok (pktErrorSp - 21, s)
    else if ¬ allowed tx.ecosystem.toNat then .ok (pktErrorSp - 22, s)
    else if tx.propType ≠ 1 ∧ tx.propType ≠ 2 ∧ tx.propType ≠ 5 then .ok (pktErrorSp - 36, s)
    else if tx.name = [] then .ok (pktErrorSp - 37, s)
    else if nBalance = 0 then .ok (pktErrorSend - 25, s)
    else
      match s.spInfo.getSP tx.contractId.toNat with
      | none => .ok (pktErrorSend - 24, s)
      | some sp =>
        if sp.collateralCurrency ≠ tx.propertyId.toNat then .ok (pktErrorContractDex - 22, s)
        else do
          let position := s.ledger.getTokenBalance tx.sender tx.contractId.toNat .negativeBalance
          let (amountNeeded, contracts) ← peggedBacking sp tx.amount
          if nBalance < amountNeeded ∨ position < contracts then
            return (pktErrorContractDex - 23, s)
          else s.issuePegged txid blockHash tx sp amountNeeded contracts

def logicMathRedemptionPegged (s : NodeState) (allowed : PropertyId → Bool) (tx : PacketFields) :
    Except Abort (Int × NodeState) :=
  if ¬ allowed tx.propertyId.toNat then .ok (pktErrorSend - 22, s)
  else if ¬ s.spInfo.isPropertyIdValid tx.propertyId.toNat then .ok (pktErrorSend - 24, s)
  else if s.ledger.getTokenBalance tx.sender tx.propertyId.toNat .balance < asInt64 tx.amount then
    .ok (pktErrorSend - 25, s)
  else
    match s.spInfo.getSP tx.contractId.toNat with
    | none => .ok (pktErrorSend - 24, s)
    | some sp => do
      let conNeeded ← divide256 tx.amount.toNat sp.notionalSize
      let contractsNeeded ← convertTo64 conNeeded
      if 0 < contractsNeeded ∧ 0 < tx.amount then do
        let negContracts :=
          s.ledger.getTokenBalance tx.sender tx.contractId.toNat .negativeBalance
        let posContracts :=
          s.ledger.getTokenBalance tx.sender tx.contractId.toNat .positiveBalance
        let s ← s.assertTallies (redemptionPostings tx sp.collateralCurrency contractsNeeded
          posContracts negContracts)
        return (0, s)
      else return (0, s)

end NodeState

theorem locked_eq_freed_iff {a s c : Nat} (ha : 0 < a) (hs : 0 < s)
    (h : divideAndRoundUp (a * s) factorE = .ok c) :
    a / s = c * factorE ↔ s = 1 ∧ factorE ∣ a := by
  obtain ⟨hle, hlt⟩ := divideAndRoundUp_bounds h (Nat.mul_pos ha hs)
  constructor
  · intro heq
    have hone : s = 1 := by
      by_contra hne
      have hdiv : a / s ≤ a / 2 := Nat.div_le_div_left (by omega) (by decide)
      have hmul : a * 2 ≤ a * s := Nat.mul_le_mul_left a (by omega)
      omega
    subst hone
    rw [Nat.div_one] at heq
    exact ⟨rfl, heq ▸ Dvd.intro_left c rfl⟩
  · rintro ⟨rfl, k, rfl⟩
    have hfactor : 0 < factorE := by decide
    rw [Nat.mul_one] at hle hlt
    rw [Nat.div_one, Nat.mul_comm]
    have hk : k ≤ c := Nat.le_of_mul_le_mul_left (Nat.mul_comm c _ ▸ hle) hfactor
    have hc : c - 1 < k := Nat.lt_of_mul_lt_mul_left (Nat.mul_comm (c - 1) _ ▸ hlt)
    have heq : k = c := by omega
    rw [heq]

namespace SPInfo

variable {db db' : SPInfo} {p n : PropertyId} {sp : SPEntry} {tx : PacketFields}
variable {txid blockHash den ecosystem : Nat} {amountNeeded : Int}

/-- The records have identifiers that were given out, and more can be given out. -/
structure Numbered (db : SPInfo) : Prop where
  next_lt : db.nextSpid < testEcoProperty1
  le_nextTest : testEcoProperty1 ≤ db.nextTestSpid
  nextTest_lt : db.nextTestSpid + 1 < 2 ^ 32
  valid : ∀ p sp, db.entries.get? p = some sp → db.isPropertyIdValid p = true

theorem lt_of_isPropertyIdValid (h : db.isPropertyIdValid p = true) :
    p < testEcoProperty1 ∧ p < db.nextSpid ∨ testEcoProperty1 ≤ p ∧ p < db.nextTestSpid := by
  unfold isPropertyIdValid at h
  split_ifs at h with h₁ h₂
  · exact .inl ⟨h₂, of_decide_eq_true h⟩
  · exact .inr ⟨not_lt.mp h₂, of_decide_eq_true h⟩

theorem Numbered.get?_eq_none (hdb : db.Numbered)
    (hp : ¬ (p < testEcoProperty1 ∧ p < db.nextSpid ∨
      testEcoProperty1 ≤ p ∧ p < db.nextTestSpid)) : db.entries.get? p = none := by
  cases hget : db.entries.get? p with
  | none => rfl
  | some sp => exact absurd (lt_of_isPropertyIdValid (hdb.valid p sp hget)) hp

theorem Numbered.takeSPID (hdb : db.Numbered)
    (heco : ecosystem = tlPropertyMsc ∨ ecosystem = tlPropertyTmsc) :
    db.entries.get? (db.takeSPID ecosystem).1 = none ∧
      ((db.takeSPID ecosystem).1 ≠ 0 →
        (db.takeSPID ecosystem).2.isPropertyIdValid (db.takeSPID ecosystem).1 = true) := by
  rcases heco with rfl | rfl
  · have htake : db.takeSPID tlPropertyMsc =
        (db.nextSpid, { db with nextSpid := (db.nextSpid + 1) % 2 ^ 32 }) := if_pos rfl
    have hmod : (db.nextSpid + 1) % 2 ^ 32 = db.nextSpid + 1 :=
      Nat.mod_eq_of_lt (lt_of_le_of_lt hdb.next_lt (by decide))
    rw [htake, hmod]
    refine ⟨hdb.get?_eq_none ?_, fun hne => ?_⟩
    · rintro (⟨-, hlt⟩ | ⟨hle, -⟩)
      · exact lt_irrefl _ hlt
      · exact absurd hdb.next_lt (not_lt.mpr hle)
    · rw [isPropertyIdValid, if_neg hne, if_pos hdb.next_lt]
      exact decide_eq_true (Nat.lt_succ_self _)
  · have htake : db.takeSPID tlPropertyTmsc =
        (db.nextTestSpid, { db with nextTestSpid := (db.nextTestSpid + 1) % 2 ^ 32 }) := rfl
    have hmod : (db.nextTestSpid + 1) % 2 ^ 32 = db.nextTestSpid + 1 :=
      Nat.mod_eq_of_lt hdb.nextTest_lt
    rw [htake, hmod]
    refine ⟨hdb.get?_eq_none ?_, fun hne => ?_⟩
    · rintro (⟨hlt, -⟩ | ⟨-, hlt⟩)
      · exact absurd hlt (not_lt.mpr hdb.le_nextTest)
      · exact lt_irrefl _ hlt
    · rw [isPropertyIdValid, if_neg hne, if_neg (not_lt.mpr hdb.le_nextTest)]
      exact decide_eq_true (Nat.lt_succ_self _)

theorem getSP_putSP {info : SPEntry} (hnew : db.entries.get? (db.takeSPID ecosystem).1 = none)
    (hsp : db.getSP p = some sp) : (db.putSP ecosystem info).2.getSP p = some sp := by
  have hentries : (db.putSP ecosystem info).2.entries =
      db.entries.set (db.takeSPID ecosystem).1 info := by
    simp only [putSP, SPInfo.takeSPID]
    split_ifs <;> rfl
  have hgarbage : (db.putSP ecosystem info).2.garbage = db.garbage := by
    simp only [putSP, SPInfo.takeSPID]
    split_ifs <;> rfl
  rw [← hsp, getSP, getSP, hgarbage, hentries]
  split_ifs with h₁ h₂
  · rfl
  · rfl
  · rw [getSP, if_neg h₁, if_neg h₂] at hsp
    rw [OrderedMap.get?_set, if_neg]
    rintro rfl
    rw [hnew] at hsp
    cases hsp

/-- The terms of a contract that the messages about pegged currencies read. -/
def SameTerms (sp sp' : SPEntry) : Prop :=
  sp'.notionalSize = sp.notionalSize ∧ sp'.collateralCurrency = sp.collateralCurrency

theorem mem_range_of_findPegged (h : db.findPegged den = some n) :
    1 ≤ n ∧ n < db.nextSpid ∧ n ≠ tlPropertyMsc ∧ n ≠ tlPropertyTmsc := by
  have hmem := List.mem_range'_1.mp (List.mem_of_find?_eq_some h)
  have hpeg := List.find?_some h
  have hnext : db.peekNextSPID 1 = db.nextSpid := rfl
  have hlt : ∀ k m : Nat, k < 1 + (m - 1) → 1 ≤ k → k < m := by omega
  rw [hnext] at hmem
  refine ⟨hmem.1, hlt _ _ hmem.2 hmem.1, ?_, ?_⟩
  · rintro rfl
    simp [getSP, SPEntry.impliedTl, allPropertyTypePeggeds, mscPropertyTypeDivisible] at hpeg
  · rintro rfl
    simp [getSP, SPEntry.construct, allPropertyTypePeggeds, tlPropertyTmsc, tlPropertyMsc] at hpeg

theorem recordPegged_eq (hdb : db.Numbered)
    (heco : tx.ecosystem.toNat = tlPropertyMsc ∨ tx.ecosystem.toNat = tlPropertyTmsc)
    (hsp : db.getSP p = some sp) (hn : n ≠ 0)
    (h : db.recordPegged txid blockHash den amountNeeded tx = .ok (n, db')) :
    n = db.peggedId tx.ecosystem.toNat den ∧ db'.isPropertyIdValid n = true ∧
      ∃ sp', db'.getSP p = some sp' ∧ SameTerms sp sp' := by
  unfold recordPegged at h
  cases hfind : db.findPegged den with
  | none =>
    rw [hfind] at h
    cases h
    obtain ⟨hnew, hvalid⟩ := hdb.takeSPID heco
    exact ⟨by rw [peggedId, hfind]; rfl, hvalid hn, sp, getSP_putSP hnew hsp, rfl, rfl⟩
  | some m =>
    rw [hfind] at h
    dsimp only at h
    rw [bind_eq_ok] at h
    obtain ⟨numTokens, -, h⟩ := h
    cases h
    obtain ⟨hpos, hlt, hbase⟩ := mem_range_of_findPegged hfind
    refine ⟨by rw [peggedId, hfind]; rfl, ?_, ?_⟩
    · rw [(updateSP_eq db _ hbase).2.2, isPropertyIdValid, if_neg hn,
        if_pos (lt_trans hlt hdb.next_lt)]
      exact decide_eq_true hlt
    · rw [(updateSP_eq db _ hbase).2.1]
      by_cases hp : p = n
      · subst hp
        rw [if_pos rfl, hsp]
        exact ⟨_, rfl, rfl, rfl⟩
      · rw [if_neg hp, hsp]
        exact ⟨sp, rfl, rfl, rfl⟩

end SPInfo

/-- What an issue did: what it read of the contract, the contracts it locked and its postings. -/
structure PeggedIssue (s s' : NodeState) (tx : PacketFields) (sp : SPEntry) (locked : Nat) :
    Prop where
  collateral : sp.collateralCurrency = tx.propertyId.toNat
  funded : s.ledger.money tx.sender tx.propertyId.toNat .balance ≠ 0
  rounded : divideAndRoundUp (tx.amount.toNat * sp.notionalSize) factorE = .ok locked
  amount_lt : tx.amount.toNat < 2 ^ 63
  valid : s'.spInfo.isPropertyIdValid
    (s.spInfo.peggedId tx.ecosystem.toNat sp.denomination) = true
  terms : ∃ sp', s'.spInfo.getSP tx.contractId.toNat = some sp' ∧ SPInfo.SameTerms sp sp'
  posted : s.ledger.Posted
    (⟨⟨tx.sender, s.spInfo.peggedId tx.ecosystem.toNat sp.denomination, .balance⟩,
      tx.amount.toNat⟩ :: backingPostings tx tx.amount.toNat (locked * factorE : Nat)) s'.ledger
  inRange : s'.ledger.InRange

namespace NodeState

variable {s s' : NodeState} {env : Environment} {allowed : PropertyId → Bool} {txid : Nat}
variable {tx : PacketFields} {sp : SPEntry} {locked blockHash : Nat}
variable {amountNeeded contracts : Int}

theorem peggedBacking_eq_ok {amount : UInt64}
    (h : peggedBacking sp amount = .ok (amountNeeded, contracts)) :
    ∃ locked, divideAndRoundUp (amount.toNat * sp.notionalSize) factorE = .ok locked ∧
      amount.toNat < 2 ^ 63 ∧ amountNeeded = amount.toNat ∧
      contracts = (locked * factorE : Nat) := by
  simp only [peggedBacking, bind_eq_ok, pure_eq_ok, Except.ok.injEq, Prod.mk.injEq,
    convertTo64_eq_ok] at h
  obtain ⟨locked, hlocked, _, ⟨rfl, hmax⟩, _, ⟨rfl, -⟩, rfl, rfl⟩ := h
  refine ⟨locked, hlocked, ?_, rfl, rfl⟩
  rw [int64Max] at hmax
  omega

theorem issuePegged_of_create
    (h : s.logicMathCreatePeggedCurrency env allowed txid tx = .ok (0, s'))
    (hsp : s.spInfo.getSP tx.contractId.toNat = some sp) :
    (tx.ecosystem.toNat = tlPropertyMsc ∨ tx.ecosystem.toNat = tlPropertyTmsc) ∧
      s.ledger.getTokenBalance tx.sender tx.propertyId.toNat .balance ≠ 0 ∧
      sp.collateralCurrency = tx.propertyId.toNat ∧
      ∃ blockHash amountNeeded contracts,
        peggedBacking sp tx.amount = .ok (amountNeeded, contracts) ∧
        s.issuePegged txid blockHash tx sp amountNeeded contracts = .ok (0, s') := by
  unfold logicMathCreatePeggedCurrency at h
  cases hblock : env.chainActive (asInt32 tx.block.toNat) with
  | none =>
    rw [hblock] at h
    cases h
  | some blockHash =>
    rw [hblock] at h
    simp only [hsp] at h
    split_ifs at h with h₁ h₂ h₃ h₄ h₅ h₆
    all_goals first | cases h | skip
    rw [bind_eq_ok] at h
    obtain ⟨⟨amountNeeded, contracts⟩, hbacking, h⟩ := h
    dsimp only at h
    split_ifs at h
    · cases h
    · refine ⟨by tauto, h₅, not_not.mp h₆, blockHash, amountNeeded, contracts, hbacking, h⟩

theorem ledger_addPeggedIssuer {who : Address} {p : PropertyId} :
    (s.addPeggedIssuer who p).ledger = s.ledger := by
  unfold addPeggedIssuer
  split_ifs <;> rfl

theorem spInfo_addPeggedIssuer {who : Address} {p : PropertyId} :
    (s.addPeggedIssuer who p).spInfo = s.spInfo := by
  unfold addPeggedIssuer
  split_ifs <;> rfl

theorem peggedIssue_of_create (hl : s.ledger.InRange) (hdb : s.spInfo.Numbered)
    (hsp : s.spInfo.getSP tx.contractId.toNat = some sp)
    (h : s.logicMathCreatePeggedCurrency env allowed txid tx = .ok (0, s')) :
    ∃ locked, PeggedIssue s s' tx sp locked := by
  obtain ⟨heco, hfunded, hcoll, blockHash, _, _, hbacking, h⟩ := issuePegged_of_create h hsp
  obtain ⟨locked, hlocked, hlt, rfl, rfl⟩ := peggedBacking_eq_ok hbacking
  rw [issuePegged, bind_eq_ok] at h
  obtain ⟨⟨n, db'⟩, hrecord, h⟩ := h
  dsimp only at h
  split_ifs at h with hn
  simp only [bind_eq_ok, pure_eq_ok, Except.ok.injEq, Prod.mk.injEq, true_and] at h
  obtain ⟨m, hm, t, ht, rfl⟩ := h
  obtain ⟨rfl, hvalid, hterms⟩ := SPInfo.recordPegged_eq hdb heco hsp hn hrecord
  have hcredit := posted_of_assertTallies hm
  have hlock := posted_of_assertTallies ht
  have hspInfo : t.spInfo = db' := by
    rw [hlock.1]
    change (m.addPeggedIssuer _ _).spInfo = db'
    rw [spInfo_addPeggedIssuer, hcredit.1]
  have hposted := hcredit.2.trans (ledger_addPeggedIssuer ▸ hlock.2)
  have hrange : (m.addPeggedIssuer tx.sender
      (s.spInfo.peggedId tx.ecosystem.toNat sp.denomination)).ledger.InRange := by
    rw [ledger_addPeggedIssuer]
    refine inRange_of_assertTallies ?_ hm
    exact hl
  exact ⟨locked, {
    collateral := hcoll
    funded := hfunded
    rounded := hlocked
    amount_lt := hlt
    valid := by rw [hspInfo]; exact hvalid
    terms := by rw [hspInfo]; exact hterms
    posted := by rwa [asInt64_of_lt hlt] at hposted
    inRange := inRange_of_assertTallies hrange ht }⟩

end NodeState

end TradeLayer
