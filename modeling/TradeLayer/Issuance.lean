import TradeLayer.PeggedIssues

namespace TradeLayer
open Library

namespace NodeState

variable (s : NodeState) (env : Environment) (allowed : PropertyId → Bool) (txid : Nat)
variable (tx : PacketFields)

/-- What all messages that create a property write. -/
def newSP (blockHash : Nat) : SPEntry :=
  { (SPEntry.construct s.spInfo.garbage).updateIssuer (asInt32 tx.block.toNat)
      (asInt32 tx.txIdx.toNat) tx.sender with
    issuer := tx.sender
    txid
    propType := tx.propType.toNat
    subcategory := byteChars tx.subcategory
    name := byteChars tx.name
    creationBlock := blockHash
    updateBlock := blockHash }

def ecosystemChecks : List (Bool × Int) :=
  [(tx.ecosystem.toNat ≠ tlPropertyMsc && tx.ecosystem.toNat ≠ tlPropertyTmsc, 21),
    (!allowed tx.ecosystem.toNat, 22)]

def recordChecks : List (Bool × Int) :=
  [(tx.propType ≠ 1 && tx.propType ≠ 2, 36), (tx.name = [], 37)]

def createProperty (checks : List (Bool × Int)) (info : SPEntry → SPEntry)
    (credit : PropertyId → NodeState → Except Abort NodeState) : Except Abort (Int × NodeState) :=
  match env.chainActive (asInt32 tx.block.toNat) with
  | none => .ok (pktErrorSp - 20, s)
  | some blockHash =>
    match (ecosystemChecks allowed tx ++ checks).find? Prod.fst with
    | some check => .ok (pktErrorSp - check.2, s)
    | none =>
      let put := s.spInfo.putSP tx.ecosystem.toNat (info (s.newSP txid tx blockHash))
      if put.1 = 0 then .error .assertion
      else do
        let s ← credit put.1 { s with spInfo := put.2 }
        return (0, s)

def creditFixed (propertyId : PropertyId) (s : NodeState) : Except Abort NodeState := do
  let s ← s.assertTally tx.sender propertyId (asInt64 tx.nValue) .balance
  s.notifyTotalTokensChanged env propertyId (asInt32 tx.block.toNat)

def logicMathCreatePropertyFixed : Except Abort (Int × NodeState) :=
  s.createProperty env allowed txid tx ((valueOutOfRange tx.nValue, 23) :: recordChecks tx)
    (fun sp => { sp with numTokens := asInt64 tx.nValue, fixed := true }) (creditFixed env tx)

def logicMathCreatePropertyVariable (blockTime : Int) : Except Abort (Int × NodeState) :=
  s.createProperty env allowed txid tx ((valueOutOfRange tx.nValue, 23) ::
      (!s.spInfo.isPropertyIdValid tx.property.toNat, 24) :: recordChecks tx ++
      [(tx.deadline = 0 || asInt64 tx.deadline < blockTime, 38)])
    (fun sp => { sp with numTokens := asInt64 tx.nValue }) fun _ s => .ok s

def logicMathCreatePropertyManaged : Except Abort (Int × NodeState) :=
  s.createProperty env allowed txid tx (recordChecks tx) (fun sp => { sp with manual := true })
    fun _ s => .ok s

end NodeState

namespace SPInfo

variable {db : SPInfo} {room ecosystem : Nat} {p : PropertyId} {info : SPEntry}

/-- The identifiers that were given out are those with a record, and `room` more are left. -/
structure Complete (db : SPInfo) (room : Nat) : Prop where
  next : 3 ≤ db.nextSpid ∧ db.nextSpid + room ≤ testEcoProperty1
  nextTest : testEcoProperty1 ≤ db.nextTestSpid ∧ db.nextTestSpid + room < 2 ^ 32
  isSome_iff : ∀ p, (db.entries.get? p).isSome = true ↔
    3 ≤ p ∧ p < db.nextSpid ∨ testEcoProperty1 ≤ p ∧ p < db.nextTestSpid

theorem Complete.valid_iff (h : db.Complete room) :
    db.isPropertyIdValid p = true ↔ (db.getSP p).isSome = true := by
  obtain ⟨hnext, htest, hiff⟩ := h
  have hp := hiff p
  simp only [isPropertyIdValid, getSP, peekNextSPID, tlPropertyMsc, tlPropertyTmsc,
    testEcoProperty1] at *
  grind

theorem Complete.mono (h : db.Complete (room + 1)) : db.Complete room :=
  ⟨by grind [h.next], by grind [h.nextTest], h.isSome_iff⟩

theorem Complete.putSP (h : db.Complete (room + 1))
    (heco : ecosystem = tlPropertyMsc ∨ ecosystem = tlPropertyTmsc) :
    (db.putSP ecosystem info).2.Complete room := by
  obtain ⟨hnext, htest, hiff⟩ := h
  have hget : ∀ p, (db.putSP ecosystem info).2.entries.get? p =
      if p = (db.putSP ecosystem info).1 then some info else db.entries.get? p := by
    intro p
    simp only [SPInfo.putSP, takeSPID]
    split_ifs <;> simp [OrderedMap.get?_set, *]
  refine ⟨?_, ?_, fun p => ?_⟩
  case' refine_3 =>
    have hp := hiff p
    rw [hget]
  all_goals
    simp only [SPInfo.putSP, takeSPID, testEcoProperty1, tlPropertyMsc, tlPropertyTmsc] at *
    grind

theorem Complete.appointed_putSP {b : Int} (h : db.Complete room)
    (heco : ecosystem = tlPropertyMsc ∨ ecosystem = tlPropertyTmsc) (hinfo : info.IssuedBy b) :
    (db.putSP ecosystem info).2.Appointed (db.peekNextSPID ecosystem) b := by
  refine ⟨info, ?_, hinfo⟩
  obtain ⟨⟨hnext, -⟩, ⟨htest, -⟩, -⟩ := h
  rcases heco with rfl | rfl
  all_goals
    simp only [getSP, SPInfo.putSP, takeSPID, peekNextSPID, OrderedMap.get?_set, testEcoProperty1,
      tlPropertyMsc, tlPropertyTmsc] at *
    grind

theorem Complete.updateSP (h : db.Complete room) (hp : db.isPropertyIdValid p = true) :
    (db.updateSP p info).2.Complete room := by
  have hsome := h.valid_iff.mp hp
  rw [SPInfo.updateSP]
  split_ifs with hbase
  · exact h
  · refine ⟨h.next, h.nextTest, fun q => ?_⟩
    rw [getSP, if_neg (not_or.mp hbase).1, if_neg (not_or.mp hbase).2] at hsome
    rw [← h.isSome_iff q, OrderedMap.get?_set]
    split_ifs with hq
    · simp [hq, hsome]
    · rfl

end SPInfo

namespace NodeState

/-- The states after a number of new records, which the messages above or others put. In between,
valid properties get another record, and anything happens that leaves the database alone. -/
inductive Issuing (env : Environment) : Nat → NodeState → Prop
  | start {network garbage} : Issuing env 0 (.initial network garbage)
  | create {n s s' allowed txid tx} {rc : Int} (hs : Issuing env n s)
      (h : s.logicMathCreatePropertyFixed env allowed txid tx = .ok (rc, s') ∨
        (∃ time, s.logicMathCreatePropertyVariable env allowed txid tx time = .ok (rc, s')) ∨
        s.logicMathCreatePropertyManaged env allowed txid tx = .ok (rc, s')) :
      Issuing env (n + 1) s'
  | put {n s ecosystem info} {s' : NodeState} (hs : Issuing env n s)
      (heco : ecosystem = tlPropertyMsc ∨ ecosystem = tlPropertyTmsc)
      (h : s'.spInfo = (s.spInfo.putSP ecosystem info).2) : Issuing env (n + 1) s'
  | update {n s p info} {s' : NodeState} (hs : Issuing env n s)
      (hp : s.spInfo.isPropertyIdValid p = true)
      (h : s'.spInfo = (s.spInfo.updateSP p info).2) : Issuing env n s'
  | other {n s} {s' : NodeState} (hs : Issuing env n s) (h : s'.spInfo = s.spInfo) :
      Issuing env n s'

variable {s s' : NodeState} {env : Environment} {n : Nat}

section
variable {allowed : PropertyId → Bool} {txid : Nat} {tx : PacketFields} {rc b : Int}
variable {checks : List (Bool × Int)} {info : SPEntry → SPEntry}
variable {credit : PropertyId → NodeState → Except Abort NodeState}

theorem createProperty_cases (hcredit : ∀ p m m', credit p m = .ok m' → m'.spInfo = m.spInfo)
    (h : s.createProperty env allowed txid tx checks info credit = .ok (rc, s')) :
    s' = s ∨ (tx.ecosystem.toNat = tlPropertyMsc ∨ tx.ecosystem.toNat = tlPropertyTmsc) ∧
      ∃ hash, s'.spInfo =
        (s.spInfo.putSP tx.ecosystem.toNat (info (s.newSP txid tx hash))).2 := by
  unfold createProperty at h
  split at h
  · cases h
    exact .inl rfl
  · split at h
    · cases h
      exact .inl rfl
    · rename_i hnone
      have heco := List.find?_eq_none.mp hnone _ List.mem_cons_self
      simp only [Bool.and_eq_true, decide_eq_true_eq] at heco
      dsimp only at h
      split_ifs at h
      obtain ⟨m, hm, h⟩ := bind_eq_ok.mp h
      cases h
      exact .inr ⟨by tauto, _, hcredit _ _ _ hm⟩

theorem complete_of_createProperty (hs : s.spInfo.Complete (n + 1))
    (hcredit : ∀ p m m', credit p m = .ok m' → m'.spInfo = m.spInfo)
    (h : s.createProperty env allowed txid tx checks info credit = .ok (rc, s')) :
    s'.spInfo.Complete n := by
  obtain rfl | ⟨heco, hash, h⟩ := createProperty_cases hcredit h
  · exact hs.mono
  · exact h ▸ hs.putSP heco

/-- A message that creates a property changes nothing, or puts a record that has an issuer from
the block of the message on. -/
theorem appointed_of_createProperty (hs : s.spInfo.Complete n)
    (hinfo : ∀ sp, (info sp).historicalIssuers = sp.historicalIssuers)
    (hcredit : ∀ p m m', credit p m = .ok m' → m'.spInfo = m.spInfo)
    (hb : asInt32 tx.block.toNat ≤ b)
    (h : s.createProperty env allowed txid tx checks info credit = .ok (rc, s')) :
    s' = s ∨ s'.spInfo.Appointed (s.spInfo.peekNextSPID tx.ecosystem.toNat) b := by
  refine (createProperty_cases hcredit h).imp_right ?_
  rintro ⟨heco, hash, h⟩
  rw [h]
  apply hs.appointed_putSP heco
  rw [SPEntry.IssuedBy, hinfo]
  exact SPEntry.issuedBy_updateIssuer hb

end

theorem Issuing.complete (h : Issuing env n s) {room : Nat} (hn : n + room < 2 ^ 31 - 3) :
    s.spInfo.Complete room := by
  induction h generalizing room with
  | start =>
    refine ⟨?_, ?_, fun p => ?_⟩
    all_goals
      simp only [initial, SPInfo.init, testEcoProperty1, OrderedMap.get?_empty]
      grind
  | create _ h ih =>
    rcases h with h | ⟨time, h⟩ | h
    · refine complete_of_createProperty (ih (by omega)) (fun p m m' hm => ?_) h
      obtain ⟨t, ht, hm⟩ := bind_eq_ok.mp hm
      rw [(paidOut_of_notifyTotalTokensChanged hm).frame, (posted_of_assertTally ht).1]
    · exact complete_of_createProperty (ih (by omega)) (fun _ _ _ hm => by cases hm; rfl) h
    · exact complete_of_createProperty (ih (by omega)) (fun _ _ _ hm => by cases hm; rfl) h
  | put _ heco h ih => exact h ▸ (ih (by omega)).putSP heco
  | update _ hp h ih => exact h ▸ (ih hn).updateSP hp
  | other _ h ih => exact h ▸ ih hn

/-- Before the identifiers run out, those that pass for valid are those with a record, so that no
lookup fails behind the check. -/
theorem getSP_iff_of_issuing (h : Issuing env n s) (hn : n < 2 ^ 31 - 3) (p : PropertyId) :
    s.spInfo.isPropertyIdValid p = true ↔ ∃ sp, s.getSP p = .ok sp := by
  rw [(h.complete hn : s.spInfo.Complete 0).valid_iff, Option.isSome_iff_exists]
  exact exists_congr fun sp => getSP_eq_ok.symm

def sampleCreate : PacketFields :=
  { (default : PacketFields) with
    sender := ['i'], ecosystem := 1, propType := 1, name := [65], block := 100 }

theorem getSP_iff_of_sampleCreate : ∃ s, Issuing (.plain .regtest) 1 s ∧
    s.spInfo.isPropertyIdValid 3 = true ∧ ∃ sp, s.getSP 3 = .ok sp := by
  obtain ⟨⟨rc, s⟩, hs, hvalid⟩ := exists_ok_of_map
    (g := fun r : Int × NodeState => r.2.spInfo.isPropertyIdValid 3)
    (x := (initial .regtest .zero).logicMathCreatePropertyManaged (.plain .regtest)
      (fun _ => true) 7 sampleCreate) (b := true) (by decide +kernel)
  have hissuing : Issuing (.plain .regtest) 1 s := .create .start (.inr (.inr hs))
  exact ⟨s, hissuing, hvalid, (getSP_iff_of_issuing hissuing (by decide) 3).mp hvalid⟩

end NodeState

end TradeLayer
