import TradeLayer.PersistedDex
import TradeLayer.TextRecords

namespace TradeLayer
open Library

inductive TxListRecord
  | master (fValid : Bool) (nBlock : Int) (type value : Nat)
  | payment (master : List Char) (vout : Nat) (buyer seller : Address) (propertyId nValue : Nat)
  | cancelled (master : List Char) (txidSub propertyId nValue : Nat)
  | sentAll (master : List Char) (propertyId : Nat) (nValue : Int)

namespace TxListRecord

def fields : TxListRecord → List (List Char)
  | master fValid nBlock type value =>
    [Nat.toDigits 10 (if fValid then 1 else 0), integerText nBlock, Nat.toDigits 10 type,
      Nat.toDigits 10 value]
  | payment _ vout buyer seller propertyId nValue =>
    [Nat.toDigits 10 vout, buyer, seller, Nat.toDigits 10 propertyId, Nat.toDigits 10 nValue]
  | cancelled _ txidSub propertyId nValue =>
    [hexText txidSub, Nat.toDigits 10 propertyId, Nat.toDigits 10 nValue]
  | sentAll _ propertyId nValue => [Nat.toDigits 10 propertyId, integerText nValue]

def text (r : TxListRecord) : List Char := colonLine r.fields

def second : TxListRecord → List Char
  | master _ nBlock _ _ => integerText nBlock
  | payment _ _ buyer _ _ _ => buyer
  | cancelled _ _ propertyId _ => Nat.toDigits 10 propertyId
  | sentAll _ _ nValue => integerText nValue

def masterKey (key : List Char) : TxListRecord → List Char
  | master .. => key
  | payment m .. => m
  | cancelled m .. => m
  | sentAll m .. => m

def masterIn (startingBlock endingBlock : Int) : TxListRecord → Bool
  | master _ nBlock _ _ => startingBlock ≤ nBlock ∧ nBlock ≤ endingBlock
  | _ => false

def isMaster : TxListRecord → Bool
  | master .. => true
  | _ => false

def Typed : TxListRecord → Prop
  | master _ nBlock _ _ => -2 ^ 31 ≤ nBlock ∧ nBlock < 2 ^ 31
  | payment _ _ buyer seller _ _ => EncodedAddress buyer ∧ EncodedAddress seller
  | cancelled .. => True
  | sentAll .. => True

end TxListRecord

inductive TxCall
  | recordTX (txid : Nat) (fValid : Bool) (nBlock : Int) (type nValue : Nat)
  | recordPaymentTX (txid : Nat) (fValid : Bool) (nBlock : Int) (vout propertyId nValue : Nat)
      (buyer seller : Address)
  | recordMetaDExCancelTX (txidMaster txidSub : Nat) (fValid : Bool) (nBlock : Int)
      (propertyId nValue : Nat)
  | recordSendAllSubRecord (txid : Nat) (subRecordNumber : Int) (propertyId : Nat) (nValue : Int)

def typePayment : Nat := 99999999

def typeCancel : Nat := 99992104

/-- The number of a further sub-record: one more than the master record says, as far as that can
be read. -/
def nextNumber (db : TextDb) (key : List Char) : Nat :=
  match db.get? key with
  | none => 1
  | some strValue =>
    let vstr := splitColons strValue
    if 4 ≤ vstr.length then ((atoiInt (vstr.getD 3 []) + 1) % 2 ^ 64).toNat else 1

namespace TxCall

/-- The records that a call writes, one after the other, to a database. -/
def written (db : TextDb) : TxCall → List (List Char × TxListRecord)
  | recordTX txid fValid nBlock type nValue => [(hexText txid, .master fValid nBlock type nValue)]
  | recordPaymentTX txid fValid nBlock vout propertyId nValue buyer seller =>
    let number := nextNumber db (hexText txid)
    [(hexText txid, .master fValid nBlock typePayment number),
      (hexText txid ++ '-' :: Nat.toDigits 10 (number % 2 ^ 32),
        .payment (hexText txid) vout buyer seller propertyId nValue)]
  | recordMetaDExCancelTX txidMaster txidSub fValid nBlock propertyId nValue =>
    let key := hexText txidMaster ++ ['-', 'C']
    let number := nextNumber db key % 2 ^ 32
    [(key, .master fValid nBlock typeCancel number),
      (key ++ Nat.toDigits 10 number, .cancelled key txidSub propertyId nValue)]
  | recordSendAllSubRecord txid subRecordNumber propertyId nValue =>
    [(hexText txid ++ '-' :: integerText subRecordNumber,
      .sentAll (hexText txid) propertyId nValue)]

def record (db : TextDb) (c : TxCall) : TextDb :=
  (c.written db).foldl (fun db e => db.set e.1 e.2.text) db

def txDb (calls : List TxCall) : TextDb := calls.foldl record ∅

def track (records : OrderedMap (List Char) TxListRecord) (c : TxCall) :
    OrderedMap (List Char) TxListRecord :=
  (c.written (records.mapValues TxListRecord.text)).foldl (fun m e => m.set e.1 e.2) records

def records (calls : List TxCall) : OrderedMap (List Char) TxListRecord := calls.foldl track ∅

def Typed : TxCall → Prop
  | recordTX _ _ nBlock _ _ => -2 ^ 31 ≤ nBlock ∧ nBlock < 2 ^ 31
  | recordPaymentTX _ _ nBlock _ _ _ buyer seller =>
    (-2 ^ 31 ≤ nBlock ∧ nBlock < 2 ^ 31) ∧ EncodedAddress buyer ∧ EncodedAddress seller
  | recordMetaDExCancelTX _ _ _ nBlock _ _ => -2 ^ 31 ≤ nBlock ∧ nBlock < 2 ^ 31
  | recordSendAllSubRecord .. => True

end TxCall

def blockOfRecord (value : List Char) : Option Int :=
  let vstr := splitColons value
  if 2 ≤ vstr.length then some (atoiInt (vstr.getD 1 [])) else none

/-- Looks for records of a range of blocks and deletes them if this is asked for. -/
def isMPinBlockRange (db : TextDb) (startingBlock endingBlock : Int) (bDeleteFound : Bool) :
    Bool × TextDb :=
  let swept := OrderedMap.sweep (fun _ value => blockOfRecord value)
    (fun block => block.any fun n => startingBlock ≤ n ∧ n ≤ endingBlock) db.toList none 0 db
  (swept.1 ≠ 0, if bDeleteFound then swept.2 else db)

namespace TxListRecord

variable {r : TxListRecord} {startingBlock endingBlock : Int}

theorem masterKey_of_isMaster {key : List Char} (h : r.isMaster = true) :
    r.masterKey key = key := by
  cases r with
  | master fValid nBlock type value => rfl
  | _ => cases h

theorem isMaster_of_masterIn (h : r.masterIn startingBlock endingBlock = true) :
    r.isMaster = true := by
  cases r with
  | master fValid nBlock type value => rfl
  | _ => cases h

theorem plainField_of_mem_fields (h : r.Typed) : ∀ text ∈ r.fields, PlainField text := by
  have hhash : ∀ n, PlainField (hexText n) := fun n => fieldText_hexText.plainField
  cases r with
  | payment m vout buyer seller propertyId nValue =>
    simp [fields, plainField_toDigits, h.1.fieldText.plainField, h.2.fieldText.plainField]
  | _ => simp [fields, plainField_integerText, plainField_toDigits, hhash]

theorem blockOfRecord_text (h : r.Typed) : blockOfRecord r.text = some (atoiInt r.second) := by
  have hne : r.fields ≠ [] := by cases r <;> exact List.cons_ne_nil _ _
  have hsplit : splitColons r.text = r.fields :=
    splitColons_colonLine hne (plainField_of_mem_fields h)
  rw [blockOfRecord, hsplit]
  cases r <;> rfl

theorem masterIn_of_isMaster (h : r.Typed) (hmaster : r.isMaster = true) :
    r.masterIn startingBlock endingBlock =
      decide (startingBlock ≤ atoiInt r.second ∧ atoiInt r.second ≤ endingBlock) := by
  cases r with
  | master fValid nBlock type value =>
    rw [second, atoiInt_integerText h.1 h.2]
    rfl
  | _ => cases hmaster

end TxListRecord

namespace TxCall

variable {calls : List TxCall} {c : TxCall} {startingBlock endingBlock : Int} {db : TextDb}
variable {x : List Char × TxListRecord}

theorem txDb_eq : txDb calls = (records calls).mapValues TxListRecord.text := by
  induction calls using List.reverseRecOn with
  | nil => rfl
  | append_singleton calls c ih =>
    have hdb : txDb (calls ++ [c]) = record (txDb calls) c := List.foldl_concat ..
    have hrecords : records (calls ++ [c]) = track (records calls) c := List.foldl_concat ..
    rw [hdb, hrecords, track, OrderedMap.mapValues_foldl_set, ← ih]
    rfl

theorem typed_of_mem_written (h : c.Typed) (hx : x ∈ c.written db) : x.2.Typed := by
  cases c with
  | recordTX txid fValid nBlock type nValue =>
    rw [List.mem_singleton.mp hx]
    exact h
  | recordPaymentTX txid fValid nBlock vout propertyId nValue buyer seller =>
    simp only [written, List.mem_cons, List.not_mem_nil, or_false] at hx
    rcases hx with rfl | rfl
    · exact h.1
    · exact h.2
  | recordMetaDExCancelTX txidMaster txidSub fValid nBlock propertyId nValue =>
    simp only [written, List.mem_cons, List.not_mem_nil, or_false] at hx
    rcases hx with rfl | rfl
    · exact h
    · trivial
  | recordSendAllSubRecord txid subRecordNumber propertyId nValue =>
    rw [List.mem_singleton.mp hx]
    trivial

theorem mem_foldl_set {m : OrderedMap (List Char) TxListRecord}
    {es : List (List Char × TxListRecord)} (h : x ∈ es.foldl (fun m e => m.set e.1 e.2) m) :
    x ∈ es ∨ x ∈ m := by
  induction es generalizing m with
  | nil => exact .inr h
  | cons e es ih =>
    rcases ih h with h | h
    · exact .inl (List.mem_cons_of_mem _ h)
    · rcases Keyed.mem_assign.mp h with rfl | ⟨h, -⟩
      · exact .inl List.mem_cons_self
      · exact .inr h

theorem typed_of_mem_records (h : ∀ c ∈ calls, c.Typed) (hx : x ∈ records calls) : x.2.Typed := by
  induction calls using List.reverseRecOn with
  | nil => exact absurd hx Keyed.not_mem_empty
  | append_singleton calls c ih =>
    have hrecords : records (calls ++ [c]) = track (records calls) c := List.foldl_concat ..
    rw [hrecords] at hx
    rcases mem_foldl_set hx with hx | hx
    · exact typed_of_mem_written (h c (by simp)) hx
    · exact ih (fun c hc => h c (List.mem_append_left _ hc)) hx

def hasMasterIn (calls : List TxCall) (startingBlock endingBlock : Int) (key : List Char) : Bool :=
  ((records calls).get? key).any (TxListRecord.masterIn startingBlock endingBlock)

/-- Exactly the master records of a range of blocks are deleted, with their sub-records, and the
result says whether there are any. -/
def DeletesRange (calls : List TxCall) (startingBlock endingBlock : Int) : Prop :=
  isMPinBlockRange (txDb calls) startingBlock endingBlock true =
    ((records calls).toList.any fun x => x.2.masterIn startingBlock endingBlock,
      OrderedMap.mapValues TxListRecord.text (Keyed.filter (records calls) fun x =>
        !hasMasterIn calls startingBlock endingBlock (x.2.masterKey x.1)))

def wanted (calls : List TxCall) (startingBlock endingBlock : Int) (key : List Char) : Bool :=
  ((records calls).get? key).any fun r =>
    hasMasterIn calls startingBlock endingBlock (r.masterKey key)

theorem wanted_of_mem (h : x ∈ records calls) : wanted calls startingBlock endingBlock x.1 =
    hasMasterIn calls startingBlock endingBlock (x.2.masterKey x.1) := by
  rw [wanted, OrderedMap.get?_eq_some.mpr h]
  rfl

theorem kept_eq : OrderedMap.mapValues TxListRecord.text (Keyed.filter (records calls) fun x =>
      !hasMasterIn calls startingBlock endingBlock (x.2.masterKey x.1)) =
    Keyed.filter (txDb calls) fun e => !wanted calls startingBlock endingBlock e.1 := by
  refine OrderedMap.ext_get? fun k => ?_
  rw [OrderedMap.get?_mapValues, OrderedMap.get?_filter, OrderedMap.get?_filter, txDb_eq,
    OrderedMap.get?_mapValues]
  cases hk : (records calls).get? k with
  | none => rfl
  | some r =>
    simp only [Option.filter, Option.map_some, wanted, hk, Option.any_some]
    split_ifs <;> rfl

theorem any_masterIn : ((records calls).toList.any fun x =>
      x.2.masterIn startingBlock endingBlock) = true ↔
    ∃ x ∈ records calls, wanted calls startingBlock endingBlock x.1 = true := by
  rw [List.any_eq_true]
  constructor
  · rintro ⟨x, hx, hin⟩
    refine ⟨x, hx, ?_⟩
    have hmaster := TxListRecord.isMaster_of_masterIn hin
    rw [wanted_of_mem hx, TxListRecord.masterKey_of_isMaster hmaster, hasMasterIn,
      OrderedMap.get?_eq_some.mpr hx]
    exact hin
  · rintro ⟨x, hx, hwanted⟩
    rw [wanted_of_mem hx, hasMasterIn, Option.any_eq_true] at hwanted
    obtain ⟨r, hr, hin⟩ := hwanted
    exact ⟨(_, r), OrderedMap.get?_eq_some.mp hr, hin⟩

def ReadsRight (calls : List TxCall) (startingBlock endingBlock : Int)
    (x : List Char × TxListRecord) : Prop :=
  (startingBlock ≤ atoiInt x.2.second ∧ atoiInt x.2.second ≤ endingBlock) ↔
    hasMasterIn calls startingBlock endingBlock (x.2.masterKey x.1) = true

theorem readsRight_of_isMaster (h : ∀ c ∈ calls, c.Typed) (hx : x ∈ records calls)
    (hmaster : x.2.isMaster = true) : ReadsRight calls startingBlock endingBlock x := by
  rw [ReadsRight, TxListRecord.masterKey_of_isMaster hmaster, hasMasterIn,
    OrderedMap.get?_eq_some.mpr hx, Option.any_some,
    TxListRecord.masterIn_of_isMaster (typed_of_mem_records h hx) hmaster, decide_eq_true_iff]

theorem agrees_iff (h : ∀ c ∈ calls, c.Typed) :
    OrderedMap.Agrees (fun _ value => blockOfRecord value)
      (fun block => block.any fun n => startingBlock ≤ n ∧ n ≤ endingBlock)
      (wanted calls startingBlock endingBlock) none (txDb calls).toList ↔
    ∀ x ∈ records calls, ReadsRight calls startingBlock endingBlock x := by
  rw [OrderedMap.agrees_of_forall blockOfRecord fun _ _ => rfl, txDb_eq]
  refine List.forall_mem_map.trans (forall₂_congr fun x hx => ?_)
  have htyped := typed_of_mem_records h hx
  rw [TxListRecord.blockOfRecord_text htyped, wanted_of_mem hx, Option.any_some, Bool.eq_iff_iff,
    decide_eq_true_iff, ReadsRight]

theorem length_wanted_ne_zero :
    ((txDb calls).toList.filter fun e => wanted calls startingBlock endingBlock e.1).length ≠ 0 ↔
      ∃ x ∈ records calls, wanted calls startingBlock endingBlock x.1 = true := by
  rw [← Nat.pos_iff_ne_zero, List.length_filter_pos_iff, txDb_eq]
  constructor
  · rintro ⟨e, he, hwanted⟩
    obtain ⟨x, hx, rfl⟩ := List.mem_map.mp he
    exact ⟨x, hx, hwanted⟩
  · rintro ⟨x, hx, hwanted⟩
    exact ⟨_, List.mem_map_of_mem hx, hwanted⟩

/-- The rollback is exact if and only if the second field of a sub-record, a buyer's address, a
property or an amount, reads as a block of the range just when its master record is in the range. -/
theorem deletesRange_iff (h : ∀ c ∈ calls, c.Typed) :
    DeletesRange calls startingBlock endingBlock ↔
      ∀ x ∈ records calls, x.2.isMaster = false →
        ((startingBlock ≤ atoiInt x.2.second ∧ atoiInt x.2.second ≤ endingBlock) ↔
          hasMasterIn calls startingBlock endingBlock (x.2.masterKey x.1) = true) := by
  have hmasters : (∀ x ∈ records calls, ReadsRight calls startingBlock endingBlock x) ↔
      ∀ x ∈ records calls, x.2.isMaster = false → ReadsRight calls startingBlock endingBlock x := by
    refine forall₂_congr fun x hx => ⟨fun hiff _ => hiff, fun hiff => ?_⟩
    cases hmaster : x.2.isMaster with
    | false => exact hiff hmaster
    | true => exact readsRight_of_isMaster h hx hmaster
  rw [DeletesRange, isMPinBlockRange, Prod.mk.injEq, if_pos rfl, kept_eq, OrderedMap.map_sweep_iff]
  refine (and_iff_right_of_imp fun hagrees => ?_).trans ((agrees_iff h).trans hmasters)
  rw [OrderedMap.count_sweep hagrees, Bool.eq_iff_iff, any_masterIn, decide_eq_true_iff,
    Nat.zero_add, length_wanted_ne_zero]

def sampleCalls : List TxCall :=
  [recordTX 1 true 100 25 0, recordTX 2 true 200 3 5, recordMetaDExCancelTX 3 1 true 300 5 10]

/-- The number of the property is a block of the range, as the block of its cancellation is. -/
theorem deletesRange_of_sampleCalls : DeletesRange
    (recordMetaDExCancelTX 4 1 true 200 210 10 :: sampleCalls) 150 250 := by
  refine (deletesRange_iff ?_).mpr (by decide +kernel)
  simp [sampleCalls, Typed]

/-- The cancelled property is taken for a block: a rollback of the cancellation leaves its
sub-record. -/
theorem not_deletesRange_of_sampleCalls : ¬ DeletesRange sampleCalls 250 350 := by
  intro h
  have hkept := congrArg (fun r => r.2.toList.length) h
  revert hkept
  decide +kernel

end TxCall

end TradeLayer
