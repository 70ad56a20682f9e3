import TradeLayer.TextRecords

namespace TradeLayer
open Library

/-- A distribution of fees, with recipients that have no separator in their addresses. -/
structure FeeDistribution where
  propertyId : PropertyId
  block : Int
  total : Int
  feeRecipients : List (Address × Int)
  block_range : -2 ^ 31 ≤ block ∧ block < 2 ^ 31
  amount_range : ∀ x ∈ feeRecipients, -2 ^ 63 ≤ x.2 ∧ x.2 < 2 ^ 63
  plain : ∀ x ∈ feeRecipients, ':' ∉ x.1 ∧ ',' ∉ x.1 ∧ '=' ∉ x.1

namespace FeeHistory

def itemText (x : Address × Int) : List Char := x.1 ++ '=' :: integerText x.2

def recipientsText (feeRecipients : List (Address × Int)) : List Char :=
  [','].intercalate (feeRecipients.map itemText)

def value (d : FeeDistribution) : List Char :=
  integerText d.block ++ ':' :: (Nat.toDigits 10 d.propertyId ++ ':' ::
    (integerText d.total ++ ':' :: recipientsText d.feeRecipients))

def countRecords (db : TextDb) : Nat := db.toList.length

def recordFeeDistribution (db : TextDb) (d : FeeDistribution) : TextDb :=
  db.set (integerText (countRecords db + 1)) (value d)

def feeBlock (strValue : List Char) : Except RestoreError (Option Int) :=
  match splitColons strValue with
  | [block, _, _, _] => (lexicalCastInt32 block).map some
  | _ => .ok none

def rollBackRecord (block : Int) (rest : TextDb) (e : List Char × List Char) :
    Except RestoreError TextDb := do
  match ← feeBlock e.2 with
  | some feeBlock => return if block ≤ feeBlock then rest.erase e.1 else rest
  | none => return rest

def rollBackHistory (db : TextDb) (block : Int) : Except RestoreError TextDb :=
  db.toList.foldlM (rollBackRecord block) db

def feeHistoryItem (text : List Char) : Except RestoreError (Option (Address × Int)) :=
  match splitAny (· = '=') text with
  | [address, amount] => (lexicalCastInt64 amount).map fun n => some (address, n)
  | _ => .ok none

def getFeeDistribution (db : TextDb) (id : Int) : Except RestoreError (Finset (Address × Int)) :=
  match (db.get? (integerText id)).map splitColons with
  | some [_, _, _, items] => do
    let items ← (splitAny (· = ',') items).mapM feeHistoryItem
    return items.reduceOption.toFinset
  | _ => .ok ∅

inductive Call
  | recordFeeDistribution (d : FeeDistribution)
  | rollBackHistory (block : Int)

def Call.run (db : TextDb) : Call → Except RestoreError TextDb
  | recordFeeDistribution d => .ok (FeeHistory.recordFeeDistribution db d)
  | rollBackHistory block => FeeHistory.rollBackHistory db block

def Call.survivors (ds : List FeeDistribution) : Call → List FeeDistribution
  | recordFeeDistribution d => ds ++ [d]
  | rollBackHistory block => ds.filter fun d => d.block < block

/-- Blocks do not decrease, and after a rollback they go on from its block. -/
def InOrder : Int → List Call → Prop
  | _, [] => True
  | block, .recordFeeDistribution d :: calls => block ≤ d.block ∧ InOrder d.block calls
  | _, .rollBackHistory block :: calls => InOrder block calls

def Numbered (db : TextDb) (ds : List FeeDistribution) : Prop :=
  ∀ k v, db.get? k = some v ↔
    ∃ (i : Nat) (d : FeeDistribution), ds[i]? = some d ∧ k = integerText (i + 1) ∧ v = value d

variable {d : FeeDistribution} {ds : List FeeDistribution} {db db' : TextDb} {block : Int}

theorem integerText_injective : Function.Injective integerText := by
  have hdash (n : Nat) (text : List Char) : '-' :: text ≠ Nat.toDigits 10 n := fun h =>
    absurd (isDigit_of_mem_toDigits (h ▸ List.mem_cons_self)) (by decide : ¬ '-'.isDigit = true)
  have hdigits {n m : Nat} (h : Nat.toDigits 10 n = Nat.toDigits 10 m) : n = m := by
    rw [← Nat.ofDigitChars_ten_toDigits (n := n), h, Nat.ofDigitChars_ten_toDigits]
  intro k k' h
  simp only [integerText] at h
  split_ifs at h with hk hk' hk'
  · have := hdigits (List.cons.inj h).2
    omega
  · exact absurd h (hdash _ _)
  · exact absurd h.symm (hdash _ _)
  · have := hdigits h
    omega

section Codec

variable {sep : Char} {text rest : List Char}

theorem forall_ne (h : sep ∉ text) : ∀ c ∈ text, decide (c = sep) = false := by
  intro c hc
  rw [decide_eq_false_iff_not]
  rintro rfl
  exact h hc

theorem head?_any (h : sep ∉ text) (hne : text ≠ []) :
    (text ++ rest).head?.any (· = sep) = false := by
  cases text with
  | nil => exact absurd rfl hne
  | cons c text => exact forall_ne h c List.mem_cons_self

theorem splitColons_value (d : FeeDistribution) : splitColons (value d) =
    [integerText d.block, Nat.toDigits 10 d.propertyId, integerText d.total,
      recipientsText d.feeRecipients] := by
  have hitems : ':' ∉ recipientsText d.feeRecipients := by
    intro hmem
    rcases mem_fieldLine hmem with heq | ⟨text, htext, hmem⟩
    · exact absurd heq (by decide)
    · obtain ⟨x, hx, rfl⟩ := List.mem_map.mp htext
      rcases List.mem_append.mp hmem with hmem | hmem
      · exact (d.plain x hx).1 hmem
      · exact plainField_integerText.2 ((List.mem_cons.mp hmem).resolve_left (by decide))
  rw [splitColons, value, splitAny_append_cons (forall_ne plainField_integerText.2) (by decide)
    (head?_any plainField_toDigits.2 plainField_toDigits.1), splitAny_append_cons
    (forall_ne plainField_toDigits.2) (by decide) (head?_any plainField_integerText.2
    plainField_integerText.1),
    splitAny_append_cons (forall_ne plainField_integerText.2) (by decide),
    splitAny_of_forall (forall_ne hitems)]
  cases hr : recipientsText d.feeRecipients with
  | nil => rfl
  | cons c text => exact forall_ne hitems c (hr ▸ List.mem_cons_self)

theorem feeBlock_value (d : FeeDistribution) : feeBlock (value d) = .ok (some d.block) := by
  rw [feeBlock, splitColons_value]
  dsimp only
  rw [lexicalCastInt32_integerText d.block_range.1 d.block_range.2]
  rfl

theorem feeHistoryItem_itemText {x : Address × Int} (hplain : '=' ∉ x.1)
    (hrange : -2 ^ 63 ≤ x.2 ∧ x.2 < 2 ^ 63) : feeHistoryItem (itemText x) = .ok (some x) := by
  have hfree : '=' ∉ integerText x.2 :=
    fieldText_integerText.not_mem (by decide) (by decide)
  have hhead : (integerText x.2).head?.any (· = '=') = false := by
    rw [← List.append_nil (integerText x.2)]
    exact head?_any hfree plainField_integerText.1
  rw [feeHistoryItem, itemText, splitAny_append_cons (forall_ne hplain) (by decide) hhead,
    splitAny_of_forall (forall_ne hfree)]
  dsimp only
  rw [lexicalCastInt64_integerText_of_range hrange.1 hrange.2]
  rfl

theorem mapM_feeHistoryItem {rs : List (Address × Int)} (hplain : ∀ x ∈ rs, '=' ∉ x.1)
    (hrange : ∀ x ∈ rs, -2 ^ 63 ≤ x.2 ∧ x.2 < 2 ^ 63) :
    (rs.map itemText).mapM feeHistoryItem = .ok (rs.map some) := by
  induction rs with
  | nil => rfl
  | cons x rs ih =>
    obtain ⟨hx, hplain⟩ := List.forall_mem_cons.mp hplain
    obtain ⟨hx', hrange⟩ := List.forall_mem_cons.mp hrange
    rw [List.map_cons, List.mapM_cons, feeHistoryItem_itemText hx hx', ih hplain hrange]
    rfl

theorem getFeeDistribution_of_value {id : Int} (h : db.get? (integerText id) = some (value d)) :
    getFeeDistribution db id = .ok d.feeRecipients.toFinset := by
  rw [getFeeDistribution, h, Option.map_some, splitColons_value]
  dsimp only
  have hitems : (splitAny (· = ',') (recipientsText d.feeRecipients)).mapM feeHistoryItem =
      .ok (if d.feeRecipients = [] then [none] else d.feeRecipients.map some) := by
    split_ifs with hnil
    · rw [hnil]
      rfl
    · rw [recipientsText, splitAny_intercalate (by simpa using hnil) (by decide)]
      · exact mapM_feeHistoryItem (fun x hx => (d.plain x hx).2.2) d.amount_range
      · rintro text htext
        obtain ⟨x, hx, rfl⟩ := List.mem_map.mp htext
        apply forall_ne
        rintro hmem
        rcases List.mem_append.mp hmem with hmem | hmem
        · exact (d.plain x hx).2.1 hmem
        · exact fieldText_integerText.not_mem (by decide) (by decide)
            ((List.mem_cons.mp hmem).resolve_left (by decide))
      · rintro text htext
        obtain ⟨x, hx, rfl⟩ := List.mem_map.mp (List.mem_of_mem_tail htext)
        simp [itemText]
  rw [hitems]
  split_ifs with hnil
  · rw [hnil]
    rfl
  · change Except.ok ((d.feeRecipients.map some).filterMap fun x => x).toFinset = _
    simp

end Codec

theorem Numbered.countRecords_eq (h : Numbered db ds) : countRecords db = ds.length := by
  have hperm : db.toList.Perm ((List.finRange ds.length).map fun i : Fin ds.length =>
      (integerText (i.1 + 1), value (ds.get i))) := by
    refine (List.perm_ext_iff_of_nodup db.nodup ?_).mpr fun e => ?_
    · refine (List.nodup_finRange _).map fun i j hij => ?_
      have hkey : (i.1 + 1 : Int) = j.1 + 1 := integerText_injective (Prod.ext_iff.mp hij).1
      exact Fin.ext (by omega)
    · rw [← Keyed.mem_def, ← OrderedMap.get?_eq_some (m := db), h, List.mem_map]
      constructor
      · rintro ⟨i, d, hd, hk, hv⟩
        obtain ⟨hi, rfl⟩ := List.getElem?_eq_some_iff.mp hd
        exact ⟨⟨i, hi⟩, List.mem_finRange _, Prod.ext hk.symm hv.symm⟩
      · rintro ⟨i, -, rfl⟩
        exact ⟨i, ds.get i, List.getElem?_eq_getElem i.2, rfl, rfl⟩
  rw [countRecords, hperm.length_eq, List.length_map, List.length_finRange]

theorem Numbered.get?_next (h : Numbered db ds) :
    db.get? (integerText (countRecords db + 1)) = none := by
  rw [h.countRecords_eq, Option.eq_none_iff_forall_ne_some]
  intro v hv
  obtain ⟨i, d, hd, hkey, -⟩ := (h _ _).mp hv
  have hi := (List.getElem?_eq_some_iff.mp hd).1
  have hnext := integerText_injective hkey
  omega

theorem Numbered.record (h : Numbered db ds) (d : FeeDistribution) :
    Numbered (recordFeeDistribution db d) (ds ++ [d]) := by
  intro k v
  rw [recordFeeDistribution, OrderedMap.get?_set, h.countRecords_eq]
  constructor
  · intro hv
    split_ifs at hv with hk
    · cases hv
      exact ⟨ds.length, d, by simp, hk, rfl⟩
    · obtain ⟨i, d', hd', hrest⟩ := (h k v).mp hv
      exact ⟨i, d', List.getElem?_append_left (List.getElem?_eq_some_iff.mp hd').1 ▸ hd', hrest⟩
  · rintro ⟨i, d', hd', rfl, rfl⟩
    rcases lt_trichotomy i ds.length with hlt | rfl | hgt
    · rw [List.getElem?_append_left hlt] at hd'
      rw [if_neg fun hkey => by have := integerText_injective hkey; omega]
      exact (h _ _).mpr ⟨i, d', hd', rfl, rfl⟩
    · rw [List.getElem?_concat_length] at hd'
      cases hd'
      rw [if_pos rfl]
    · rw [List.getElem?_eq_none (by simp; omega)] at hd'
      cases hd'

theorem block_eq_of_value {d' : FeeDistribution} (h : value d = value d') : d.block = d'.block := by
  have hblock := (feeBlock_value d).symm.trans (h ▸ feeBlock_value d')
  exact Option.some.inj (Except.ok.inj hblock)

theorem exists_rollBack {es : List (List Char × List Char)} {m : TextDb}
    (hes : ∀ e ∈ es, ∃ d : FeeDistribution, e.2 = value d) :
    ∃ m', es.foldlM (rollBackRecord block) m = .ok m' ∧
      ∀ k v, m'.get? k = some v ↔ m.get? k = some v ∧
        ∀ d : FeeDistribution, (k, value d) ∈ es → d.block < block := by
  induction es generalizing m with
  | nil => exact ⟨m, rfl, by simp⟩
  | cons e es ih =>
    obtain ⟨⟨d, hd⟩, hes⟩ := List.forall_mem_cons.mp hes
    obtain ⟨m', hm', hget⟩ := ih (m := if block ≤ d.block then m.erase e.1 else m) hes
    refine ⟨m', ?_, fun k v => ?_⟩
    · rw [List.foldlM_cons, rollBackRecord, hd, feeBlock_value]
      exact hm'
    · have hfirst : (if block ≤ d.block then m.erase e.1 else m).get? k = some v ↔
          m.get? k = some v ∧ ∀ d' : FeeDistribution, (k, value d') = e → d'.block < block := by
        have hblock (d' : FeeDistribution) (he : (k, value d') = e) : d'.block = d.block :=
          block_eq_of_value ((congrArg Prod.snd he).trans hd)
        split_ifs with hle
        · rw [OrderedMap.get?_erase]
          split_ifs with hk
          · refine iff_of_false nofun fun hall => ?_
            exact absurd (hall.2 d (Prod.ext hk hd.symm)) (not_lt.mpr hle)
          · exact (and_iff_left fun d' he => absurd (congrArg Prod.fst he) hk).symm
        · exact (and_iff_left fun d' he => hblock d' he ▸ not_le.mp hle).symm
      rw [hget, hfirst, and_assoc, ← forall_and]
      simp only [List.mem_cons, or_imp]

theorem getElem?_filter_of_sorted (hds : ds.Pairwise fun d d' => d.block ≤ d'.block) (i : Nat) :
    (ds.filter fun d => d.block < block)[i]? = ds[i]?.filter fun d => d.block < block := by
  induction ds generalizing i with
  | nil => rfl
  | cons d ds ih =>
    obtain ⟨hd, hds⟩ := List.pairwise_cons.mp hds
    by_cases hlt : d.block < block
    · rw [List.filter_cons_of_pos (by simpa using hlt)]
      cases i with
      | zero => simp [Option.filter, hlt]
      | succ i => exact ih hds i
    · have hlate : ∀ d' ∈ d :: ds, ¬ d'.block < block := by
        rw [List.forall_mem_cons]
        exact ⟨hlt, fun d' hd' hlt' => hlt ((hd d' hd').trans_lt hlt')⟩
      rw [List.filter_eq_nil_iff.mpr (by simpa using hlate), List.getElem?_nil, eq_comm,
        Option.filter_eq_none_iff]
      intro d' hd'
      simpa using hlate d' (List.mem_of_getElem? hd')

theorem Numbered.rollBack (h : Numbered db ds)
    (hds : ds.Pairwise fun d d' => d.block ≤ d'.block) (block : Int) :
    ∃ db', rollBackHistory db block = .ok db' ∧
      Numbered db' (ds.filter fun d => d.block < block) := by
  have hes : ∀ e ∈ db.toList, ∃ d : FeeDistribution, e.2 = value d := by
    intro e he
    obtain ⟨i, d, -, -, hv⟩ := (h e.1 e.2).mp (OrderedMap.get?_eq_some.mpr he)
    exact ⟨d, hv⟩
  obtain ⟨db', hdb', hget⟩ := exists_rollBack hes
  refine ⟨db', hdb', fun k v => ?_⟩
  rw [hget]
  simp only [getElem?_filter_of_sorted hds, Option.filter_eq_some_iff]
  constructor
  · rintro ⟨hv, hall⟩
    obtain ⟨i, d, hd, hk, rfl⟩ := (h k v).mp hv
    exact ⟨i, d, ⟨hd, by simpa using hall d (OrderedMap.get?_eq_some.mp hv)⟩, hk, rfl⟩
  · rintro ⟨i, d, ⟨hd, hlt⟩, hk, rfl⟩
    have hv := (h k (value d)).mpr ⟨i, d, hd, hk, rfl⟩
    refine ⟨hv, fun d' hd' => ?_⟩
    have hsame : value d' = value d :=
      Option.some.inj ((OrderedMap.get?_eq_some (m := db)).mpr hd' ▸ hv)
    rw [block_eq_of_value hsame]
    simpa using hlt

theorem exists_run {calls : List Call} {floor : Int} (hcalls : InOrder floor calls)
    (hds : ds.Pairwise fun d d' => d.block ≤ d'.block) (hfloor : ∀ d ∈ ds, d.block ≤ floor)
    (h : Numbered db ds) :
    ∃ db', calls.foldlM Call.run db = .ok db' ∧ Numbered db' (calls.foldl Call.survivors ds) := by
  induction calls generalizing floor ds db with
  | nil => exact ⟨db, rfl, h⟩
  | cons call calls ih =>
    rw [List.foldlM_cons, List.foldl_cons]
    cases call with
    | recordFeeDistribution d =>
      refine ih hcalls.2 ?_ ?_ (h.record d)
      · rw [Call.survivors, List.pairwise_append]
        refine ⟨hds, List.pairwise_singleton _ _, fun d' hd' x hx => ?_⟩
        rw [List.mem_singleton.mp hx]
        exact (hfloor d' hd').trans hcalls.1
      · rw [Call.survivors, List.forall_mem_append, List.forall_mem_singleton]
        exact ⟨fun d' hd' => (hfloor d' hd').trans hcalls.1, le_rfl⟩
    | rollBackHistory block =>
      obtain ⟨db', hdb', hrest⟩ := h.rollBack hds block
      rw [Call.run, hdb']
      refine ih hcalls (hds.filter _) (fun d hd => ?_) hrest
      exact le_of_lt (by simpa using (List.mem_filter.mp hd).2)

theorem InOrder.of_prefix {before calls : List Call} {floor : Int} (h : InOrder floor calls)
    (hdone : before <+: calls) : InOrder floor before := by
  induction before generalizing floor calls with
  | nil => trivial
  | cons call before ih =>
    obtain ⟨rest, rfl⟩ := hdone
    cases call with
    | recordFeeDistribution d => exact ⟨h.1, ih h.2 (List.prefix_append before rest)⟩
    | rollBackHistory block => exact ih h (List.prefix_append before rest)

/-- Every history of calls in order leaves the surviving records under the numbers from one on, a
record is put under a number that is free, and the recipients of every record are read back. -/
theorem feeHistory_sound {calls : List Call} {floor : Int} (hcalls : InOrder floor calls) :
    ∃ db, calls.foldlM Call.run ∅ = .ok db ∧ Numbered db (calls.foldl Call.survivors []) ∧
      countRecords db = (calls.foldl Call.survivors []).length ∧
      (∀ before d, before ++ [.recordFeeDistribution d] <+: calls →
        ∃ db', before.foldlM Call.run ∅ = .ok db' ∧
          db'.get? (integerText (countRecords db' + 1)) = none) ∧
      ∀ (i : Nat) (d : FeeDistribution), (calls.foldl Call.survivors [])[i]? = some d →
        getFeeDistribution db (i + 1) = .ok d.feeRecipients.toFinset := by
  have hempty : Numbered ∅ [] := by simp [Numbered]
  obtain ⟨db, hdb, hnumbered⟩ := exists_run hcalls .nil (by simp) hempty
  refine ⟨db, hdb, hnumbered, hnumbered.countRecords_eq, fun before d hdone => ?_,
    fun i d hd => ?_⟩
  · have hbefore := hcalls.of_prefix ((List.prefix_append before _).trans hdone)
    obtain ⟨db', hdb', hnumbered'⟩ := exists_run hbefore .nil (by simp) hempty
    exact ⟨db', hdb', hnumbered'.get?_next⟩
  · exact getFeeDistribution_of_value ((hnumbered _ _).mpr ⟨i, d, hd, rfl, rfl⟩)

def sampleDistribution : FeeDistribution where
  propertyId := 3
  block := 5
  total := 7
  feeRecipients := [(['a'], 3), (['b'], 4)]
  block_range := by decide
  amount_range := by decide
  plain := by decide

theorem feeHistory_sound_sample :
    ∃ db, [Call.recordFeeDistribution sampleDistribution, .rollBackHistory 5,
        .recordFeeDistribution sampleDistribution].foldlM Call.run ∅ = .ok db ∧
      getFeeDistribution db 1 = .ok {(['a'], 3), (['b'], 4)} := by
  obtain ⟨db, hdb, -, -, -, hread⟩ := @feeHistory_sound [.recordFeeDistribution sampleDistribution,
    .rollBackHistory 5, .recordFeeDistribution sampleDistribution] 0 ⟨by decide, by decide, trivial⟩
  exact ⟨db, hdb, hread 0 sampleDistribution rfl⟩

end FeeHistory

end TradeLayer
