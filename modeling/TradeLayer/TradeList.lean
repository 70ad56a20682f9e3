import TradeLayer.StoredOrders
import TradeLayer.TextRecords

namespace TradeLayer
open Library

def typeCommit : List Char := "commit".toList
def typeWithdrawal : List Char := "withdrawal".toList
def typeInstantTrade : List Char := "instant_trade".toList
def typeTransfer : List Char := "transfer".toList
def typeCreateChannel : List Char := "create channel".toList

inductive TradeCall
  | recordMatchedTrade (txid1 txid2 : Nat) (address1 address2 : Address)
      (prop1 prop2 : PropertyId) (amount1 amount2 blockNum fee : Int)
  | recordNewTrade (txid : Nat) (address : Address)
      (propertyIdForSale propertyIdDesired : PropertyId) (blockNum blockIndex : Int)
  | recordNewChannel (channelAddress frAddr secAddr : Address) (blockNum blockIndex : Int)
  | recordNewCommit (txid : Nat) (channelAddress sender : Address) (propertyId : PropertyId)
      (amountCommited : Nat) (blockNum blockIndex : Int)
  | recordNewWithdrawal (txid : Nat) (channelAddress sender : Address) (propertyId : PropertyId)
      (amountToWithdrawal : Nat) (blockNum blockIndex : Int)
  | recordNewTransfer (txid : Nat) (sender receiver : Address) (propertyId : PropertyId)
      (amount : Nat) (blockNum blockIndex : Int)
  | recordNewInstantTrade (txid : Nat) (sender receiver : Address)
      (propertyIdForSale : PropertyId) (amountForsale : Nat) (propertyIdDesired : PropertyId)
      (amountDesired : Nat) (blockNum blockIndex : Int)

namespace TradeCall

/-- The fields that commitments, withdrawals and transfers have in common. -/
def channelFields (first second : Address) (propertyId : PropertyId) (amount : Nat)
    (blockNum blockIndex : Int) (type : List Char) : List (List Char) :=
  [first, second, Nat.toDigits 10 propertyId, Nat.toDigits 10 amount, integerText blockNum,
    integerText blockIndex, type]

def key : TradeCall → List Char
  | recordMatchedTrade txid1 txid2 .. => hexText txid1 ++ '+' :: hexText txid2
  | recordNewTrade txid .. => hexText txid
  | recordNewChannel channelAddress .. => channelAddress
  | recordNewCommit txid .. => hexText txid
  | recordNewWithdrawal txid .. => hexText txid
  | recordNewTransfer txid .. => hexText txid
  | recordNewInstantTrade txid _ _ _ _ _ _ blockNum _ =>
    integerText blockNum ++ '+' :: hexText txid

def fields : TradeCall → List (List Char)
  | recordMatchedTrade _ _ address1 address2 prop1 prop2 amount1 amount2 blockNum fee =>
    [address1, address2, Nat.toDigits 10 prop1, Nat.toDigits 10 prop2, integerText amount1,
      integerText amount2, integerText blockNum, integerText fee]
  | recordNewTrade _ address propertyIdForSale propertyIdDesired blockNum blockIndex =>
    [address, Nat.toDigits 10 propertyIdForSale, Nat.toDigits 10 propertyIdDesired,
      integerText blockNum, integerText blockIndex]
  | recordNewChannel _ frAddr secAddr blockNum blockIndex =>
    [frAddr, secAddr, integerText blockNum, integerText blockIndex, typeCreateChannel]
  | recordNewCommit _ channelAddress sender propertyId amount blockNum blockIndex =>
    channelFields channelAddress sender propertyId amount blockNum blockIndex typeCommit
  | recordNewWithdrawal _ channelAddress sender propertyId amount blockNum blockIndex =>
    channelFields channelAddress sender propertyId amount blockNum blockIndex typeWithdrawal
  | recordNewTransfer _ sender receiver propertyId amount blockNum blockIndex =>
    channelFields sender receiver propertyId amount blockNum blockIndex typeTransfer
  | recordNewInstantTrade _ sender receiver propertyIdForSale amountForsale propertyIdDesired
      amountDesired blockNum blockIndex =>
    [sender, receiver, Nat.toDigits 10 propertyIdForSale, Nat.toDigits 10 amountForsale,
      Nat.toDigits 10 propertyIdDesired, Nat.toDigits 10 amountDesired, integerText blockNum,
      integerText blockIndex, typeInstantTrade]

def value (c : TradeCall) : List Char := colonLine c.fields

def record (db : TextDb) (c : TradeCall) : TextDb := db.set c.key c.value

def blockNum : TradeCall → Int
  | recordMatchedTrade _ _ _ _ _ _ _ _ blockNum _ => blockNum
  | recordNewTrade _ _ _ _ blockNum _ => blockNum
  | recordNewChannel _ _ _ blockNum _ => blockNum
  | recordNewCommit _ _ _ _ _ blockNum _ => blockNum
  | recordNewWithdrawal _ _ _ _ _ blockNum _ => blockNum
  | recordNewTransfer _ _ _ _ _ blockNum _ => blockNum
  | recordNewInstantTrade _ _ _ _ _ _ _ blockNum _ => blockNum

def addresses : TradeCall → List Address
  | recordMatchedTrade _ _ address1 address2 .. => [address1, address2]
  | recordNewTrade _ address .. => [address]
  | recordNewChannel _ frAddr secAddr .. => [frAddr, secAddr]
  | recordNewCommit _ channelAddress sender .. => [channelAddress, sender]
  | recordNewWithdrawal _ channelAddress sender .. => [channelAddress, sender]
  | recordNewTransfer _ sender receiver .. => [sender, receiver]
  | recordNewInstantTrade _ sender receiver .. => [sender, receiver]

def heights : TradeCall → List Int
  | recordMatchedTrade _ _ _ _ _ _ _ _ blockNum _ => [blockNum]
  | recordNewTrade _ _ _ _ blockNum blockIndex => [blockNum, blockIndex]
  | recordNewChannel _ _ _ blockNum blockIndex => [blockNum, blockIndex]
  | recordNewCommit _ _ _ _ _ blockNum blockIndex => [blockNum, blockIndex]
  | recordNewWithdrawal _ _ _ _ _ blockNum blockIndex => [blockNum, blockIndex]
  | recordNewTransfer _ _ _ _ _ blockNum blockIndex => [blockNum, blockIndex]
  | recordNewInstantTrade _ _ _ _ _ _ _ blockNum blockIndex => [blockNum, blockIndex]

def Typed (c : TradeCall) : Prop :=
  (∀ a ∈ c.addresses, EncodedAddress a) ∧ ∀ n ∈ c.heights, -2 ^ 31 ≤ n ∧ n < 2 ^ 31

def readAs (block : Int) : TradeCall → Int
  | recordMatchedTrade .. => block
  | recordNewTrade _ _ _ _ blockNum _ => blockNum
  | recordNewChannel _ _ _ _ blockIndex => blockIndex
  | recordNewCommit .. => 0
  | recordNewWithdrawal .. => 0
  | recordNewTransfer .. => 0
  | recordNewInstantTrade .. => block

def readBlock (block : Int) (value : List Char) : Int :=
  let vstr := splitColons value
  let block := if vstr.length = 7 then atoiInt (vstr.getD 6 []) else block
  if vstr.length = 5 then atoiInt (vstr.getD 3 []) else block

def deleteAboveBlock (db : TextDb) (blockNum : Int) : Nat × TextDb :=
  OrderedMap.sweep readBlock (fun block => blockNum ≤ block) db.toList 0 0 db

variable {c : TradeCall} {calls : List TradeCall} {block b : Int}

theorem plainField_of_mem_fields (h : c.Typed) : ∀ text ∈ c.fields, PlainField text := by
  have haddress : ∀ a ∈ c.addresses, PlainField a := fun a ha => (h.1 a ha).fieldText.plainField
  have htypes : PlainField typeCommit ∧ PlainField typeWithdrawal ∧ PlainField typeTransfer ∧
      PlainField typeCreateChannel ∧ PlainField typeInstantTrade :=
    ⟨⟨by decide, by decide⟩, ⟨by decide, by decide⟩, ⟨by decide, by decide⟩,
      ⟨by decide, by decide⟩, ⟨by decide, by decide⟩⟩
  cases c <;> simp_all [fields, addresses, channelFields, plainField_integerText,
    plainField_toDigits]

theorem readBlock_value (h : c.Typed) : readBlock block c.value = c.readAs block := by
  have hne : c.fields ≠ [] := by cases c <;> exact List.cons_ne_nil _ _
  have hsplit : splitColons c.value = c.fields :=
    splitColons_colonLine hne (plainField_of_mem_fields h)
  have hread : ∀ n ∈ c.heights, atoiInt (integerText n) = n := fun n hn =>
    atoiInt_integerText (h.2 n hn).1 (h.2 n hn).2
  rw [readBlock, hsplit]
  cases c with
  | recordNewTrade _ _ _ _ blockNum _ => exact hread blockNum (by simp [heights])
  | recordNewChannel _ _ _ _ blockIndex => exact hread blockIndex (by simp [heights])
  | recordNewCommit => exact (by decide : atoiInt typeCommit = 0)
  | recordNewWithdrawal => exact (by decide : atoiInt typeWithdrawal = 0)
  | recordNewTransfer => exact (by decide : atoiInt typeTransfer = 0)
  | recordMatchedTrade => rfl
  | recordNewInstantTrade => rfl

def tradeDb (calls : List TradeCall) : TextDb := calls.foldl record ∅

def records (calls : List TradeCall) : OrderedMap (List Char) TradeCall :=
  calls.foldl (fun m c => m.set c.key c) ∅

theorem records_concat : records (calls ++ [c]) = (records calls).set c.key c :=
  List.foldl_concat ..

theorem tradeDb_eq : tradeDb calls = (records calls).mapValues value := by
  induction calls using List.reverseRecOn with
  | nil => rfl
  | append_singleton calls c ih =>
    have hdb : tradeDb (calls ++ [c]) = record (tradeDb calls) c := List.foldl_concat ..
    rw [hdb, records_concat, ih, OrderedMap.mapValues_set]
    rfl

theorem mem_records {e : List Char × TradeCall} (he : e ∈ records calls) :
    e.1 = e.2.key ∧ e.2 ∈ calls := by
  induction calls using List.reverseRecOn with
  | nil => exact absurd he Keyed.not_mem_empty
  | append_singleton calls c ih =>
    rw [records_concat, OrderedMap.set, Keyed.mem_assign] at he
    rcases he with rfl | ⟨he, -⟩
    · exact ⟨rfl, by simp⟩
    · exact ⟨(ih he).1, List.mem_append_left _ (ih he).2⟩

/-- Exactly the records from a block on are deleted, and their number is returned. -/
def DeletesAbove (calls : List TradeCall) (b : Int) : Prop :=
  deleteAboveBlock (tradeDb calls) b =
    (((records calls).toList.filter fun e => b ≤ e.2.blockNum).length,
      OrderedMap.mapValues value (Keyed.filter (records calls) fun e => e.2.blockNum < b))

/-- Each record is taken for one from a block on if and only if it is one. -/
def ReadsRight (b : Int) : Int → List (List Char × TradeCall) → Prop
  | _, [] => True
  | block, e :: es =>
    (b ≤ e.2.readAs block ↔ b ≤ e.2.blockNum) ∧ ReadsRight b (e.2.readAs block) es

instance decidableReadsRight (b : Int) :
    (block : Int) → (es : List (List Char × TradeCall)) → Decidable (ReadsRight b block es)
  | _, [] => .isTrue trivial
  | block, e :: es =>
    haveI := decidableReadsRight b (e.2.readAs block) es
    inferInstanceAs (Decidable ((b ≤ e.2.readAs block ↔ b ≤ e.2.blockNum) ∧ _))

section Deletion

variable {es : List (List Char × TradeCall)} {wanted : List Char → Bool}

theorem agrees_iff (htyped : ∀ e ∈ es, e.2.Typed)
    (hwanted : ∀ e ∈ es, wanted e.1 = decide (b ≤ e.2.blockNum)) :
    OrderedMap.Agrees readBlock (fun block => b ≤ block) wanted block
      (es.map fun e => (e.1, e.2.value)) ↔ ReadsRight b block es := by
  induction es generalizing block with
  | nil => rfl
  | cons e es ih =>
    obtain ⟨hfirst, htyped⟩ := List.forall_mem_cons.mp htyped
    obtain ⟨hblock, hwanted⟩ := List.forall_mem_cons.mp hwanted
    rw [List.map_cons, OrderedMap.Agrees, ReadsRight, readBlock_value hfirst, ih htyped hwanted,
      hblock, decide_eq_decide]

/-- A rollback of the list of trades is exact if and only if no record is taken for a record on the
other side of the block. -/
theorem deletesAbove_iff (h : ∀ c ∈ calls, c.Typed) :
    DeletesAbove calls b ↔ ReadsRight b 0 (records calls).toList := by
  let wanted := fun k => ((records calls).get? k).any fun c => b ≤ c.blockNum
  have hwanted : ∀ e ∈ (records calls).toList, wanted e.1 = decide (b ≤ e.2.blockNum) := by
    intro e he
    have hget : (records calls).get? e.1 = some e.2 := OrderedMap.get?_eq_some.mpr he
    simp [wanted, hget]
  have hcount : ((records calls).toList.filter fun e => b ≤ e.2.blockNum).length =
      (((records calls).mapValues value).toList.filter fun e => wanted e.1).length := by
    rw [OrderedMap.mapValues, List.filter_map, List.length_map]
    exact congrArg List.length (List.filter_congr fun e he => (hwanted e he).symm)
  have hkept : OrderedMap.mapValues value
      (Keyed.filter (records calls) fun e => e.2.blockNum < b) =
        Keyed.filter ((records calls).mapValues value) fun e => !wanted e.1 := by
    refine OrderedMap.ext_get? fun k => ?_
    rw [OrderedMap.get?_mapValues, OrderedMap.get?_filter, OrderedMap.get?_filter,
      OrderedMap.get?_mapValues]
    cases hget : (records calls).get? k with
    | none => rfl
    | some c =>
      have hk : wanted k = decide (b ≤ c.blockNum) := by simp [wanted, hget]
      by_cases hb : b ≤ c.blockNum
      · simp [hk, hb, Option.filter]
      · simp [hk, hb, Option.filter, lt_of_not_ge hb]
  rw [DeletesAbove, deleteAboveBlock, tradeDb_eq, hcount, hkept, OrderedMap.sweep_eq_iff]
  exact agrees_iff (fun e he => h _ (mem_records he).2) hwanted

end Deletion

section Samples

def sampleTraders : Address × Address := ("1FirstTrader".toList, "1SecondTrader".toList)

/-- Of three new trades the two later ones are deleted, and the record of their match as well. -/
theorem deletesAbove_of_newTrades : DeletesAbove
    [recordNewTrade 1 sampleTraders.1 3 4 10 1, recordNewTrade 2 sampleTraders.1 3 4 20 1,
      recordMatchedTrade 2 3 sampleTraders.1 sampleTraders.2 3 4 5 5 21 0,
      recordNewTrade 3 sampleTraders.2 4 3 21 1] 15 := by
  have hfirst : EncodedAddress sampleTraders.1 := ⟨by decide, List.all_eq_true.mp (by decide)⟩
  have hsecond : EncodedAddress sampleTraders.2 := ⟨by decide, List.all_eq_true.mp (by decide)⟩
  refine (deletesAbove_iff ?_).mpr (by decide +kernel)
  simp [Typed, addresses, heights, hfirst, hsecond]

/-- A commitment of block 100 is not deleted from block 50 on. -/
theorem not_deletesAbove_of_commit :
    (deleteAboveBlock (tradeDb [recordNewCommit 1 sampleTraders.1 sampleTraders.2 3 5 100 1])
      50).1 = 0 ∧
    ¬ DeletesAbove [recordNewCommit 1 sampleTraders.1 sampleTraders.2 3 5 100 1] 50 := by
  have hnone : (deleteAboveBlock (tradeDb
      [recordNewCommit 1 sampleTraders.1 sampleTraders.2 3 5 100 1]) 50).1 = 0 := by
    decide +kernel
  refine ⟨hnone, fun h => ?_⟩
  rw [DeletesAbove] at h
  rw [h] at hnone
  exact absurd hnone (by decide +kernel)

end Samples

end TradeCall

/-- The amounts sold and received, with those of one record added if it is a match of an order. -/
def addMatch (txidStr : List Char) (propertyId : PropertyId) (totals : Int × Int)
    (e : List Char × List Char) : Except RestoreError (Int × Int) :=
  if ¬ txidStr <:+: e.1 then .ok totals
  else if e.1.length ≠ 129 then .ok totals
  else
    let vstr := splitColons e.2
    if vstr.length ≠ 8 then .ok totals
    else do
      let prop1 ← lexicalCastUInt32 (vstr.getD 2 [])
      let _ ← lexicalCastUInt32 (vstr.getD 3 [])
      let amount1 ← lexicalCastInt64 (vstr.getD 4 [])
      let amount2 ← lexicalCastInt64 (vstr.getD 5 [])
      let _ ← lexicalCastInt64 (vstr.getD 7 [])
      if prop1 = propertyId then return (totals.1 + amount1, totals.2 + amount2)
      else return (totals.1 + amount2, totals.2 + amount1)

def getMatchingTrades (db : TextDb) (txid : Nat) (propertyId : PropertyId) :
    Except RestoreError (Int × Int) :=
  db.toList.foldlM (addMatch (hexText txid) propertyId) (0, 0)

section Keys

variable {n m k : Nat} {text first second : List Char} {c : Char}

theorem length_hexText (h : n < 2 ^ 256) : (hexText n).length = 64 := by
  have hle : (Nat.toDigits 16 n).length ≤ 64 :=
    (Nat.length_toDigits_le_iff (by decide) (by decide)).mpr (lt_of_lt_of_le h (by decide))
  rw [hexText, List.length_append, List.length_replicate]
  omega

theorem hexText_inj (hn : n < 2 ^ 256) (hm : m < 2 ^ 256) : hexText n = hexText m ↔ n = m := by
  constructor
  · intro h
    rw [← uint256S_hexText hn, h, uint256S_hexText hm]
  · rintro rfl
    rfl

theorem plus_not_mem_hexText : '+' ∉ hexText n := by
  intro h
  exact absurd (isHexDigit_of_mem_hexText h) (by decide)

theorem prefix_append_cons (h : c ∉ text) :
    text <+: first ++ c :: second ↔ text <+: first := by
  constructor
  · intro hpre
    induction first generalizing text with
    | nil =>
      cases text with
      | nil => exact List.nil_prefix
      | cons d text =>
        obtain ⟨rfl, -⟩ := List.cons_prefix_cons.mp hpre
        exact absurd List.mem_cons_self h
    | cons d first ih =>
      cases text with
      | nil => exact List.nil_prefix
      | cons e text =>
        obtain ⟨rfl, hrest⟩ := List.cons_prefix_cons.mp hpre
        exact List.cons_prefix_cons.mpr ⟨rfl, ih (fun hc => h (List.mem_cons_of_mem _ hc)) hrest⟩
  · intro hpre
    exact hpre.trans (List.prefix_append _ _)

theorem infix_append_cons (h : c ∉ text) :
    text <:+: first ++ c :: second ↔ text <:+: first ∨ text <:+: second := by
  induction first with
  | nil =>
    have hpre : text <+: [] ++ c :: second ↔ text <+: [] := prefix_append_cons h
    rw [List.nil_append] at hpre ⊢
    rw [List.infix_cons_iff, hpre, List.prefix_nil, List.infix_nil]
  | cons d first ih =>
    have hpre : text <+: d :: first ++ c :: second ↔ text <+: d :: first := prefix_append_cons h
    rw [List.cons_append] at hpre ⊢
    rw [List.infix_cons_iff, hpre, ih, List.infix_cons_iff, or_assoc]

theorem infix_matchKey (hn : n < 2 ^ 256) (hm : m < 2 ^ 256) (hk : k < 2 ^ 256) :
    hexText k <:+: hexText n ++ '+' :: hexText m ↔ n = k ∨ m = k := by
  have heq : ∀ j, j < 2 ^ 256 → (hexText k <:+: hexText j ↔ j = k) := by
    intro j hj
    have hlength : (hexText k).length = (hexText j).length := by
      rw [length_hexText hk, length_hexText hj]
    rw [eq_comm, ← hexText_inj hk hj]
    constructor
    · intro h
      exact h.eq_of_length hlength
    · intro h
      rw [h]
  rw [infix_append_cons plus_not_mem_hexText, heq n hn, heq m hm]

end Keys

namespace TradeCall

variable {c : TradeCall} {calls : List TradeCall} {txid : Nat} {propertyId : PropertyId}
variable {totals : Int × Int} {e : List Char × TradeCall}

/-- The records that the exchange between properties writes, with numbers that fit. -/
def Traded : TradeCall → Prop
  | recordMatchedTrade txid1 txid2 _ _ prop1 prop2 amount1 amount2 _ fee =>
    (txid1 < 2 ^ 256 ∧ txid2 < 2 ^ 256) ∧ (prop1 < 2 ^ 32 ∧ prop2 < 2 ^ 32) ∧
      (InInt64 amount1 ∧ InInt64 amount2 ∧ InInt64 fee)
  | recordNewTrade txid .. => txid < 2 ^ 256
  | _ => False

def amounts (txid : Nat) (propertyId : PropertyId) : TradeCall → Int × Int
  | recordMatchedTrade txid1 txid2 _ _ prop1 _ amount1 amount2 _ _ =>
    if txid1 = txid ∨ txid2 = txid then
      if prop1 = propertyId then (amount1, amount2) else (amount2, amount1)
    else 0
  | _ => 0

theorem addMatch_value (hk : txid < 2 ^ 256) (htyped : c.Typed) (htraded : c.Traded) :
    addMatch (hexText txid) propertyId totals (c.key, c.value) =
      .ok (totals + c.amounts txid propertyId) := by
  have hne : c.fields ≠ [] := by cases c <;> exact List.cons_ne_nil _ _
  have hsplit : splitColons c.value = c.fields :=
    splitColons_colonLine hne (plainField_of_mem_fields htyped)
  cases c with
  | recordMatchedTrade txid1 txid2 address1 address2 prop1 prop2 amount1 amount2 blockNum fee =>
    obtain ⟨⟨h1, h2⟩, ⟨hp1, hp2⟩, ha1, ha2, hfee⟩ := htraded
    have hlength : (key (recordMatchedTrade txid1 txid2 address1 address2 prop1 prop2 amount1
        amount2 blockNum fee)).length = 129 := by
      rw [key, List.length_append, List.length_cons, length_hexText h1, length_hexText h2]
    have hkey : hexText txid <:+: key (recordMatchedTrade txid1 txid2 address1 address2 prop1 prop2
        amount1 amount2 blockNum fee) ↔ txid1 = txid ∨ txid2 = txid := infix_matchKey h1 h2 hk
    simp only [addMatch, hkey, hlength, hsplit, amounts]
    by_cases hfound : txid1 = txid ∨ txid2 = txid
    · simp only [hfound, fields, not_true_eq_false, if_false, ne_eq, List.length_cons,
        List.length_nil, List.getD_cons_zero, List.getD_cons_succ, ok_bind, if_true,
        lexicalCastUInt32_toDigits hp1, lexicalCastUInt32_toDigits hp2,
        lexicalCastInt64_integerText_of_range ha1.1 (Int.lt_add_one_of_le ha1.2),
        lexicalCastInt64_integerText_of_range ha2.1 (Int.lt_add_one_of_le ha2.2),
        lexicalCastInt64_integerText_of_range hfee.1 (Int.lt_add_one_of_le hfee.2)]
      split_ifs <;> rfl
    · simp [hfound]
  | recordNewTrade txid' address propertyIdForSale propertyIdDesired blockNum blockIndex =>
    have hlength : (hexText txid').length ≠ 129 := by
      rw [length_hexText htraded]
      decide
    simp [addMatch, key, hlength, amounts]
  | _ => exact absurd htraded id

theorem foldlM_addMatch {es : List (List Char × TradeCall)} (hk : txid < 2 ^ 256)
    (hes : ∀ e ∈ es, e.1 = e.2.key ∧ e.2.Typed ∧ e.2.Traded) :
    (es.map fun e => (e.1, e.2.value)).foldlM (addMatch (hexText txid) propertyId) totals =
      .ok (totals + (es.map fun e => e.2.amounts txid propertyId).sum) := by
  induction es generalizing totals with
  | nil => simp
  | cons e es ih =>
    obtain ⟨⟨hkey, htyped, htraded⟩, hes⟩ := List.forall_mem_cons.mp hes
    rw [List.map_cons, List.foldlM_cons, hkey, addMatch_value hk htyped htraded, ok_bind, ih hes,
      List.map_cons, List.sum_cons, add_assoc]

theorem sum_records (hnodup : (calls.map key).Nodup) (f : TradeCall → Int) :
    Keyed.sum (records calls) (fun e => f e.2) = (calls.map f).sum := by
  induction calls using List.reverseRecOn with
  | nil => rfl
  | append_singleton calls c ih =>
    rw [List.map_append, List.nodup_append] at hnodup
    have hnew : (records calls).get? c.key = none := by
      cases hget : (records calls).get? c.key with
      | none => rfl
      | some c' =>
        obtain ⟨hkey, hmem⟩ := mem_records (OrderedMap.get?_eq_some.mp hget)
        exact absurd hkey.symm (hnodup.2.2 _ (List.mem_map_of_mem hmem) _ (by simp))
    rw [records_concat, OrderedMap.sum_set, hnew, ih hnodup.1, List.map_append, List.sum_append]
    simp

theorem getMatchingTrades_tradeDb (propertyId : Nat) (hk : txid < 2 ^ 256)
    (htyped : ∀ c ∈ calls, c.Typed) (htraded : ∀ c ∈ calls, c.Traded)
    (hnodup : (calls.map key).Nodup) :
    ∃ totalReceived, getMatchingTrades (tradeDb calls) txid propertyId =
      .ok ((calls.map fun c => (c.amounts txid propertyId).1).sum, totalReceived) := by
  have hes : ∀ e ∈ (records calls).toList, e.1 = e.2.key ∧ e.2.Typed ∧ e.2.Traded := by
    intro e he
    obtain ⟨hkey, hmem⟩ := mem_records he
    exact ⟨hkey, htyped _ hmem, htraded _ hmem⟩
  have hsum := sum_records hnodup fun c => (c.amounts txid propertyId).1
  have hrun : getMatchingTrades (tradeDb calls) txid propertyId =
      .ok ((0, 0) + ((records calls).toList.map fun e => e.2.amounts txid propertyId).sum) := by
    rw [getMatchingTrades, tradeDb_eq]
    exact foldlM_addMatch hk hes
  have hfst := map_list_sum (AddMonoidHom.fst Int Int)
    ((records calls).toList.map fun e => e.2.amounts txid propertyId)
  rw [List.map_map] at hfst
  refine ⟨_, hrun.trans (congrArg Except.ok (Prod.ext ?_ rfl))⟩
  rw [← hsum, Prod.fst_add, zero_add]
  exact hfst

end TradeCall

end TradeLayer
