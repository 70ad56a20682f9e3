import TradeLayer.StateFiles

namespace TradeLayer
open Library

structure Channel where
  multisig : Address
  first : Address
  second : Address
  expiryHeight : Int
  lastExchangeBlock : Int
  deriving DecidableEq, Repr

structure WithdrawalAccepted where
  address : Address
  deadlineBlock : Int
  propertyId : PropertyId
  amount : UInt64
  deriving DecidableEq, Repr

abbrev ChannelsMap := OrderedMap Address Channel

abbrev WithdrawalMap := OrderedMap Address (List WithdrawalAccepted)

/-- The file of a line that was put together, as the lines that are read from it. -/
def lineFile (hash : List Char → List Char) (lineOut : List Char) : List (List Char) :=
  lineOut.splitOn '\n' ++ ['!' :: hash lineOut]

def cachefeeText (e : PropertyId × Int) : List Char :=
  fieldLine [Nat.toDigits 10 e.1, integerText e.2]

def withdrawalText (chnAddr : Address) (w : WithdrawalAccepted) : List Char :=
  fieldLine [chnAddr, w.address, integerText w.deadlineBlock, Nat.toDigits 10 w.propertyId,
    Nat.toDigits 10 w.amount.toNat]

def channelText (e : Address × Channel) : List Char :=
  fieldLine [e.1, e.2.multisig, e.2.first, e.2.second, integerText e.2.expiryHeight,
    integerText e.2.lastExchangeBlock]

def writeMpCachefees (cachefees : OrderedMap PropertyId Int) : List Char :=
  cachefees.toList.flatMap cachefeeText

def writeMpWithdrawals (withdrawalMap : WithdrawalMap) : List Char :=
  withdrawalMap.toList.flatMap fun e => e.2.flatMap (withdrawalText e.1)

def writeMpActiveChannels (channelsMap : ChannelsMap) : List Char :=
  channelsMap.toList.flatMap channelText

def inputCachefeesString : InputLine (OrderedMap PropertyId Int) := fun cachefees s => do
  let vstr := splitAny separates s
  let propertyId ← lexicalCastUInt32 (← fieldAt vstr 0)
  let amount ← lexicalCastInt64 (← fieldAt vstr 1)
  return insertEntry cachefees propertyId amount

/-- A second withdrawal of a channel is added to a copy of its withdrawals. -/
def inputWithdrawalsString : InputLine WithdrawalMap := fun withdrawalMap s => do
  let vstr := splitAny separates s
  let chnAddr ← fieldAt vstr 0
  let address ← fieldAt vstr 1
  let deadlineBlock ← lexicalCastInt32 (← fieldAt vstr 2)
  let propertyId ← lexicalCastUInt32 (← fieldAt vstr 3)
  let amount ← lexicalCastInt64 (← fieldAt vstr 4)
  match withdrawalMap.get? chnAddr with
  | some _ => return (0, withdrawalMap)
  | none =>
    return insertEntry withdrawalMap chnAddr [⟨address, deadlineBlock, propertyId, .ofInt amount⟩]

def inputActivechannelsString : InputLine ChannelsMap := fun channelsMap s => do
  let vstr := splitAny separates s
  let chnAddr ← fieldAt vstr 0
  let multisig ← fieldAt vstr 1
  let first ← fieldAt vstr 2
  let second ← fieldAt vstr 3
  let expiryHeight ← lexicalCastInt32 (← fieldAt vstr 4)
  let lastExchangeBlock ← lexicalCastInt32 (← fieldAt vstr 5)
  return insertEntry channelsMap chnAddr ⟨multisig, first, second, expiryHeight, lastExchangeBlock⟩

def CleanText (text : List Char) : Prop :=
  ∀ c ∈ text, separates c = false ∧ c ≠ '\r' ∧ c ≠ '\n'

instance {text : List Char} : Decidable (CleanText text) :=
  List.decidableBAll (fun c => separates c = false ∧ c ≠ '\r' ∧ c ≠ '\n') text

section Lines

variable {σ : Type} {input : InputLine σ} {hash : List Char → List Char} {verifyHash : Bool}
variable {s s' : σ} {rc : Int} {text lineOut : List Char} {fields : List (List Char)}
variable {file : List (List Char)} {P : σ → Prop}
variable {vstr : List (List Char)}

theorem FieldText.cleanText (h : FieldText text) : CleanText text := fun c hc =>
  ⟨h.separates_eq_false c hc, fun hr => h.not_mem (by decide) (by decide) (hr ▸ hc),
    fun hn => h.not_mem (by decide) (by decide) (hn ▸ hc)⟩

theorem splitAny_of_cleanText (hne : fields ≠ []) (h : ∀ text ∈ fields, CleanText text)
    (htail : ∀ text ∈ fields.tail, text ≠ []) :
    splitAny separates (fieldLine fields) = fields :=
  splitAny_intercalate hne rfl (fun text ht c hc => (h text ht c hc).1) htail

theorem feeds_fieldLine (h : ∀ text ∈ fields, CleanText text) :
    ∀ c ∈ fieldLine fields, c ≠ '\r' ∧ c ≠ '\n' := by
  intro c hc
  rcases mem_fieldLine hc with rfl | ⟨text, ht, hct⟩
  · decide
  · exact (h text ht c hct).2

theorem cleanText_of_mem_splitAny (hline : ∀ c ∈ lineOut, c ≠ '\r' ∧ c ≠ '\n')
    (h : text ∈ splitAny separates lineOut) : CleanText text := by
  intro c hc
  obtain ⟨hmem, hsep⟩ := mem_of_mem_splitAny h hc
  exact ⟨hsep, hline c hmem⟩

theorem loadLines_invariant {hashed fileHash hashed' fileHash' : List Char} (hs : P s)
    (hstep : ∀ line m m' rc, (∀ c ∈ line, c ≠ '\r' ∧ c ≠ '\n') → P m →
      input m line = .ok (rc, m') → P m')
    (hfile : ∀ line ∈ file, '\n' ∉ line ∨ line.head? = some '!')
    (h : loadLines input file hashed fileHash s = .ok (rc, hashed', fileHash', s')) : P s' := by
  induction file generalizing hashed fileHash s with
  | nil =>
    cases h
    exact hs
  | cons line file ih =>
    obtain ⟨hline, hrest⟩ := List.forall_mem_cons.mp hfile
    rw [loadLines] at h
    dsimp only at h
    split_ifs at h with hskip hhash
    · exact ih hs hrest h
    · exact ih hs hrest h
    · obtain ⟨⟨rc', m⟩, hm, hnext⟩ := bind_eq_ok.mp h
      have hkept : P m := by
        refine hstep _ _ _ _ ?_ hs hm
        intro c hc
        obtain ⟨hmem, hfeed⟩ := List.mem_filter.mp hc
        refine ⟨of_decide_eq_true hfeed, ?_⟩
        rintro rfl
        rcases hline with hline | hline
        · exact hline hmem
        · apply hhash
          cases line with
          | nil => cases hline
          | cons x line =>
            cases hline
            rfl
      dsimp only at hnext
      split_ifs at hnext
      · cases hnext
        exact hkept
      · exact ih hkept hrest hnext

theorem loadFile_invariant (hs : P s)
    (hstep : ∀ line m m' rc, (∀ c ∈ line, c ≠ '\r' ∧ c ≠ '\n') → P m →
      input m line = .ok (rc, m') → P m')
    (h : loadFile input hash verifyHash (lineFile hash lineOut) s = .ok (rc, s')) : P s' := by
  obtain ⟨rc', hashed, fileHash, hlines⟩ := loadLines_of_loadFile h
  apply loadLines_invariant hs hstep _ hlines
  intro line hline
  rcases List.mem_append.mp hline with hline | hline
  · left
    intro hfeed
    rw [List.splitOn_eq_splitOnP] at hline
    cases (mem_of_mem_splitOnP hline hfeed).2
  · rw [List.mem_singleton.mp hline]
    exact .inr rfl

theorem lineFile_eq (hline : '\n' ∉ lineOut) :
    lineFile hash lineOut = stateFile hash [lineOut] := by
  have hsplit : lineOut.splitOn '\n' = [lineOut] := by
    rw [List.splitOn_eq_splitOnP]
    apply List.splitOnP_eq_singleton
    intro c hc
    rw [beq_eq_false_iff_ne]
    rintro rfl
    exact hline hc
  rw [lineFile, hsplit, stateFile, List.flatten_singleton]

theorem loadLines_hashLine {hashed fileHash : List Char} :
    loadLines input ['!' :: text] hashed fileHash s =
      .ok (0, hashed, text.filter (· ≠ '\r'), s) := by
  rw [loadLines, if_neg (by simp)]
  rfl

theorem input_of_loadFile (hline : ∀ c ∈ lineOut, c ≠ '\r' ∧ c ≠ '\n')
    (h : loadFile input hash verifyHash (lineFile hash lineOut) s = .ok (rc, s')) :
    s' = s ∨ PlainLine lineOut ∧ ∃ rc, input s lineOut = .ok (rc, s') := by
  have hfilter : lineOut.filter (· ≠ '\r') = lineOut := by
    rw [List.filter_eq_self]
    exact fun c hc => decide_eq_true (hline c hc).1
  obtain ⟨rc', hashed, fileHash, hlines⟩ := loadLines_of_loadFile h
  rw [lineFile_eq fun hn => (hline _ hn).2 rfl, stateFile, List.flatten_singleton,
    List.singleton_append, loadLines] at hlines
  dsimp only at hlines
  rw [hfilter] at hlines
  split_ifs at hlines with hskip hhash
  · rw [loadLines_hashLine] at hlines
    cases hlines
    exact .inl rfl
  · rw [loadLines_hashLine] at hlines
    cases hlines
    exact .inl rfl
  · obtain ⟨hne, hcomment⟩ := not_or.mp hskip
    obtain ⟨⟨res, m⟩, hm, hnext⟩ := bind_eq_ok.mp hlines
    refine .inr ⟨⟨hne, hcomment, hhash, fun hr => (hline _ hr).1 rfl⟩, res, ?_⟩
    dsimp only at hnext
    rw [loadLines_hashLine] at hnext
    split_ifs at hnext
    · cases hnext
      exact hm
    · cases hnext
      exact hm

theorem loadFile_of_input (hhash : ∀ text, '\r' ∉ hash text)
    (hline : ∀ c ∈ lineOut, c ≠ '\r' ∧ c ≠ '\n') (hplain : PlainLine lineOut)
    (h : input s lineOut = .ok (0, s')) :
    loadFile input hash verifyHash (lineFile hash lineOut) s = .ok (0, s') := by
  rw [lineFile_eq fun hn => (hline _ hn).2 rfl, loadFile_of_plain hhash]
  · rw [inputLines, h]
    rfl
  · intro line hmem
    rw [List.mem_singleton.mp hmem]
    exact hplain

theorem loadFile_nil (hhash : ∀ text, '\r' ∉ hash text) :
    loadFile input hash verifyHash (lineFile hash []) s = .ok (0, s) := by
  rw [lineFile_eq List.not_mem_nil, loadFile_stateFile hhash (by simp)]
  rfl

theorem plainLine_iff {first next : List Char} (h : ∀ text ∈ first :: next :: fields,
      CleanText text) : PlainLine (fieldLine (first :: next :: fields)) ↔
    first.head? ≠ some '#' ∧ first.head? ≠ some '!' := by
  have hfeeds := feeds_fieldLine h
  have hline : fieldLine (first :: next :: fields) =
      first ++ ',' :: fieldLine (next :: fields) := by
    rw [fieldLine, List.intercalate_cons_cons, List.append_assoc]
    rfl
  have hhead : ∀ c, c ≠ ',' → ((first ++ ',' :: fieldLine (next :: fields)).head? = some c ↔
      first.head? = some c) := by
    intro c hc
    cases first with
    | nil => simp [hc.symm]
    | cons x first => rfl
  rw [hline] at hfeeds ⊢
  constructor
  · intro hplain
    exact ⟨fun hfirst => hplain.comment ((hhead '#' (by decide)).mpr hfirst),
      fun hfirst => hplain.hash ((hhead '!' (by decide)).mpr hfirst)⟩
  · rintro ⟨hcomment, hhash⟩
    exact ⟨by simp, fun hfirst => hcomment ((hhead '#' (by decide)).mp hfirst),
      fun hfirst => hhash ((hhead '!' (by decide)).mp hfirst), fun hr => (hfeeds _ hr).1 rfl⟩

theorem fieldAt_eq_ok {i : Nat} : fieldAt vstr i = .ok text ↔ vstr[i]? = some text := by
  rw [fieldAt]
  cases vstr[i]? with
  | none => simp
  | some other => simp

theorem mem_tail_dropLast {i j : Nat} {last : List Char}
    (hi : vstr[i + 1]? = some text) (hj : vstr[j]? = some last) (hlt : i + 1 < j) :
    text ∈ vstr.tail.dropLast := by
  have hlength : j < vstr.length := (List.getElem?_eq_some_iff.mp hj).1
  apply List.mem_of_getElem? (i := i)
  rw [List.getElem?_dropLast, if_pos, List.getElem?_tail, hi]
  rw [List.length_tail]
  omega

end Lines

end TradeLayer
