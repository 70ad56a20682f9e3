import TradeLayer.Persistence

namespace TradeLayer
open Library

variable {σ : Type}

/-- A function that reads one line of a file into a part of the state. -/
abbrev InputLine (σ : Type) := σ → List Char → Except RestoreError (Int × σ)

/-- The loop over the lines of a file: the result, the lines that were hashed, the hash in the
file and the state. -/
def loadLines (inputLineFunc : InputLine σ) : List (List Char) → List Char → List Char → σ →
    Except RestoreError (Int × List Char × List Char × σ)
  | [], hashed, fileHash, s => .ok (0, hashed, fileHash, s)
  | line :: lines, hashed, fileHash, s =>
    if line = [] ∨ line.head? = some '#' then loadLines inputLineFunc lines hashed fileHash s
    else
      let line := line.filter (· ≠ '\r')
      if line.head? = some '!' then loadLines inputLineFunc lines hashed line.tail s
      else do
        let (res, s) ← inputLineFunc s line
        if res < 0 then return (-1, hashed ++ line, fileHash, s)
        else loadLines inputLineFunc lines (hashed ++ line) fileHash s

/-- Loads a file into a part of the state that has been cleared for it. -/
def loadFile (inputLineFunc : InputLine σ) (hash : List Char → List Char) (verifyHash : Bool)
    (file : List (List Char)) (s : σ) : Except RestoreError (Int × σ) := do
  let (res, hashed, fileHash, s) ← loadLines inputLineFunc file [] [] s
  if verifyHash ∧ res = 0 ∧ (hash hashed).map Char.toLower ≠ fileHash.map Char.toLower then
    return (-1, s)
  else return (res, s)

def inputLines (inputLineFunc : InputLine σ) :
    List (List Char) → σ → Except RestoreError (Int × σ)
  | [], s => .ok (0, s)
  | line :: lines, s => do
    let (res, s) ← inputLineFunc s line
    if res < 0 then return (-1, s) else inputLines inputLineFunc lines s

/-- A line that is neither empty nor a comment nor a hash and has no carriage return. -/
structure PlainLine (line : List Char) : Prop where
  nonempty : line ≠ []
  comment : line.head? ≠ some '#'
  hash : line.head? ≠ some '!'
  feed : '\r' ∉ line

variable {input : InputLine σ} {hash : List Char → List Char} {verifyHash : Bool}
variable {lines : List (List Char)} {s : σ}

theorem PlainLine.filter_eq {line : List Char} (h : PlainLine line) :
    line.filter (· ≠ '\r') = line := by
  rw [List.filter_eq_self]
  intro c hc
  rw [decide_eq_true_iff]
  rintro rfl
  exact h.feed hc

theorem loadLines_eq (hlines : ∀ line ∈ lines, line = [] ∨ PlainLine line)
    {hashed fileHash : List Char} {rest : List (List Char)} :
    (∃ e, inputLines input (lines.filter (· ≠ [])) s = .error e ∧
        loadLines input (lines ++ rest) hashed fileHash s = .error e) ∨
      (∃ s' hashed', inputLines input (lines.filter (· ≠ [])) s = .ok (-1, s') ∧
        loadLines input (lines ++ rest) hashed fileHash s = .ok (-1, hashed', fileHash, s')) ∨
      ∃ s', inputLines input (lines.filter (· ≠ [])) s = .ok (0, s') ∧
        loadLines input (lines ++ rest) hashed fileHash s =
          loadLines input rest (hashed ++ lines.flatten) fileHash s' := by
  induction lines generalizing hashed s with
  | nil => exact .inr (.inr ⟨s, rfl, by simp⟩)
  | cons line lines ih =>
    obtain ⟨hline, hrest⟩ := List.forall_mem_cons.mp hlines
    rw [List.cons_append, loadLines]
    rcases hline with rfl | hline
    · rw [if_pos (.inl rfl), List.filter_cons_of_neg (by simp), List.flatten_cons, List.nil_append]
      exact ih hrest
    · rw [if_neg (not_or.mpr ⟨hline.nonempty, hline.comment⟩),
        List.filter_cons_of_pos (by simpa using hline.nonempty), inputLines]
      dsimp only
      rw [hline.filter_eq, if_neg hline.hash]
      cases input s line with
      | error e => exact .inl ⟨e, rfl, rfl⟩
      | ok r =>
        obtain ⟨res, m⟩ := r
        rw [ok_bind, ok_bind]
        dsimp only
        by_cases hres : res < 0
        · rw [if_pos hres, if_pos hres]
          exact .inr (.inl ⟨m, _, rfl, rfl⟩)
        · rw [if_neg hres, if_neg hres, List.flatten_cons, ← List.append_assoc]
          exact ih hrest

theorem loadLines_of_loadFile {file : List (List Char)} {rc : Int} {s' : σ}
    (h : loadFile input hash verifyHash file s = .ok (rc, s')) :
    ∃ rc' hashed fileHash, loadLines input file [] [] s = .ok (rc', hashed, fileHash, s') := by
  obtain ⟨⟨rc', hashed, fileHash, m⟩, hm, hnext⟩ := bind_eq_ok.mp h
  refine ⟨rc', hashed, fileHash, ?_⟩
  dsimp only at hnext
  split_ifs at hnext
  · cases hnext
    exact hm
  · cases hnext
    exact hm

theorem loadFile_stateFile (hhash : ∀ text, '\r' ∉ hash text)
    (hlines : ∀ line ∈ lines, line = [] ∨ PlainLine line) :
    loadFile input hash verifyHash (stateFile hash lines) s =
      inputLines input (lines.filter (· ≠ [])) s := by
  have hfeed : ('!' :: hash lines.flatten).filter (· ≠ '\r') = '!' :: hash lines.flatten := by
    rw [List.filter_eq_self]
    intro c hc
    rw [decide_eq_true_iff]
    rintro rfl
    cases hc with
    | tail _ hc => exact hhash _ hc
  have hlast : ∀ s' : σ, loadLines input ['!' :: hash lines.flatten] lines.flatten [] s' =
      .ok (0, lines.flatten, hash lines.flatten, s') := by
    intro s'
    rw [loadLines, if_neg (by simp)]
    dsimp only
    rw [hfeed, if_pos (by rfl)]
    rfl
  rw [loadFile, stateFile]
  rcases @loadLines_eq σ input lines s hlines [] [] ['!' :: hash lines.flatten] with
    ⟨e, hinput, hload⟩ | ⟨s', hashed', hinput, hload⟩ | ⟨s', hinput, hload⟩
  · rw [hinput, hload]
    rfl
  · rw [hinput, hload, ok_bind]
    dsimp only
    rw [if_neg (by simp)]
    rfl
  · rw [hinput, hload, List.nil_append, hlast, ok_bind]
    dsimp only
    rw [if_neg (by simp)]
    rfl

theorem loadFile_of_plain (hhash : ∀ text, '\r' ∉ hash text)
    (hlines : ∀ line ∈ lines, PlainLine line) :
    loadFile input hash verifyHash (stateFile hash lines) s = inputLines input lines s := by
  have hfilter : lines.filter (· ≠ []) = lines := by
    rw [List.filter_eq_self]
    intro line hline
    exact decide_eq_true (hlines line hline).nonempty
  rw [loadFile_stateFile hhash fun line hline => .inr (hlines line hline), hfilter]

theorem inputLines_invariant {P : σ → Prop} {rc : Int} {s' : σ} (hs : P s)
    (hstep : ∀ line ∈ lines, ∀ m m' rc, P m → input m line = .ok (rc, m') → P m')
    (h : inputLines input lines s = .ok (rc, s')) : P s' := by
  induction lines generalizing s with
  | nil =>
    cases h
    exact hs
  | cons line lines ih =>
    obtain ⟨hline, hrest⟩ := List.forall_mem_cons.mp hstep
    obtain ⟨⟨rc', m⟩, hm, h⟩ := bind_eq_ok.mp h
    have hkept := hline s m rc' hs hm
    dsimp only at h
    split_ifs at h
    · cases h
      exact hkept
    · exact ih hkept hrest h

/-- The number of characters of a text in place of its hash. -/
def lengthHash (text : List Char) : List Char := Nat.toDigits 10 text.length

theorem feed_not_mem_lengthHash (text : List Char) : '\r' ∉ lengthHash text := by
  intro h
  exact absurd (isDigit_of_mem_toDigits h) (by decide)

section Entries

variable {κ V : Type} [LinearOrder κ] {m : OrderedMap κ V} {key key' : κ} {value v : V}

def insertEntry (m : OrderedMap κ V) (key : κ) (value : V) : Int × OrderedMap κ V :=
  if (m.get? key).isSome then (-1, m) else (0, m.set key value)

theorem get?_insertEntry (h : (insertEntry m key value).2.get? key' = some v) :
    m.get? key' = some v ∨ key' = key ∧ v = value := by
  rw [insertEntry] at h
  split_ifs at h
  · exact .inl h
  · rw [OrderedMap.get?_set] at h
    split_ifs at h with hkey
    · cases h
      exact .inr ⟨hkey, rfl⟩
    · exact .inl h

end Entries

section Fields

variable {text : List Char} {fields : List (List Char)} {n : Nat} {k : Int}
variable {c : Char}

/-- What ends the fields of a line. -/
def separates (c : Char) : Bool := c = ' ' || c = ',' || c = '='

def fieldLine (fields : List (List Char)) : List Char := [','].intercalate fields

/-- Reads a field by its number, which must be one that the line has. -/
def fieldAt (vstr : List (List Char)) (i : Nat) : Except RestoreError (List Char) :=
  match vstr[i]? with
  | some text => .ok text
  | none => .error (.abort .undefined)

def lexicalCastInt32 (text : List Char) : Except RestoreError Int :=
  match readSigned 32 text with
  | some n => .ok n
  | none => .error .badLexicalCast

def lexicalCastUInt64 (text : List Char) : Except RestoreError Nat :=
  match readUnsigned 64 text with
  | some n => .ok n
  | none => .error .badLexicalCast

/-- The number at the start of a text, undefined when it is out of range. -/
def atoi (text : List Char) : Except RestoreError Int :=
  let (negative, digits) := readSign (text.dropWhile Char.isWhitespace)
  let n : Int := Nat.ofDigitChars 10 (digits.takeWhile Char.isDigit) 0
  let n := if negative then -n else n
  if -2 ^ 31 ≤ n ∧ n < 2 ^ 31 then .ok n else .error (.abort .undefined)

/-- The text of a hash, which has two digits for each of its bytes. -/
def hexText (n : Nat) : List Char :=
  List.replicate (64 - (Nat.toDigits 16 n).length) '0' ++ Nat.toDigits 16 n

def hexDigitValue (c : Char) : Nat :=
  if c.isDigit then c.toNat - '0'.toNat else c.toLower.toNat - 'a'.toNat + 10

def isHexDigit (c : Char) : Bool :=
  c.isDigit || ('a' ≤ c.toLower && c.toLower ≤ 'f')

def uint256S (text : List Char) : Nat :=
  let digits := match text.dropWhile Char.isWhitespace with
    | '0' :: 'x' :: digits => digits
    | '0' :: 'X' :: digits => digits
    | digits => digits
  (digits.takeWhile isHexDigit).foldl (fun n c => 16 * n + hexDigitValue c) 0 % 2 ^ 256

theorem lexicalCastInt64_integerText_of_range (hlo : -2 ^ 63 ≤ k) (hhi : k < 2 ^ 63) :
    lexicalCastInt64 (integerText k) = .ok k := by
  rw [lexicalCastInt64, readSigned_integerText hlo hhi]

theorem lexicalCastInt32_integerText (hlo : -2 ^ 31 ≤ k) (hhi : k < 2 ^ 31) :
    lexicalCastInt32 (integerText k) = .ok k := by
  rw [lexicalCastInt32, readSigned_integerText hlo hhi]

theorem lexicalCastUInt32_toDigits (h : n < 2 ^ 32) :
    lexicalCastUInt32 (Nat.toDigits 10 n) = .ok n := by
  rw [lexicalCastUInt32, readUnsigned_toDigits h]

def FieldText (text : List Char) : Prop :=
  text ≠ [] ∧ ∀ c ∈ text, c.isAlphanum = true ∨ c = '-'

/-- An address: letters and digits, more of them than an identifier of a property has. -/
def EncodedAddress (a : Address) : Prop :=
  10 < a.length ∧ ∀ c ∈ a, c.isAlphanum = true

theorem EncodedAddress.fieldText {a : Address} (h : EncodedAddress a) : FieldText a := by
  refine ⟨?_, fun c hc => .inl (h.2 c hc)⟩
  rintro rfl
  exact absurd h.1 (by decide)

theorem isAlphanum_of_isDigit (h : c.isDigit = true) : c.isAlphanum = true := by
  rw [Char.isAlphanum, h, Bool.or_true]

theorem fieldText_toDigits : FieldText (Nat.toDigits 10 n) :=
  ⟨Nat.toDigits_ne_nil, fun _ hc => .inl (isAlphanum_of_isDigit (isDigit_of_mem_toDigits hc))⟩

theorem fieldText_integerText : FieldText (integerText k) := by
  rw [integerText]
  split_ifs
  · refine ⟨List.cons_ne_nil _ _, ?_⟩
    intro c hc
    cases hc with
    | head => exact .inr rfl
    | tail _ hc => exact fieldText_toDigits.2 c hc
  · exact fieldText_toDigits

theorem FieldText.not_mem (h : FieldText text) (hc : c.isAlphanum = false)
    (hdash : c ≠ '-') : c ∉ text := by
  intro hmem
  rcases h.2 c hmem with halnum | heq
  · rw [hc] at halnum
    cases halnum
  · exact hdash heq

theorem FieldText.separates_eq_false (h : FieldText text) : ∀ c ∈ text, separates c = false := by
  intro c hc
  have hne : ∀ d : Char, d.isAlphanum = false → d ≠ '-' → c ≠ d := by
    rintro d hd hdash rfl
    exact h.not_mem hd hdash hc
  simp [separates, hne ' ' (by decide) (by decide), hne ',' (by decide) (by decide),
    hne '=' (by decide) (by decide)]

theorem splitAny_fieldLine (hne : fields ≠ []) (h : ∀ text ∈ fields, FieldText text) :
    splitAny separates (fieldLine fields) = fields :=
  splitAny_intercalate hne rfl (fun text ht => (h text ht).separates_eq_false)
    fun text ht => (h text (List.mem_of_mem_tail ht)).1

theorem mem_fieldLine (h : c ∈ fieldLine fields) : c = ',' ∨ ∃ text ∈ fields, c ∈ text := by
  induction fields with
  | nil => cases h
  | cons text fields ih =>
    cases fields with
    | nil =>
      rw [fieldLine, List.intercalate_singleton] at h
      exact .inr ⟨text, List.mem_cons_self, h⟩
    | cons next fields =>
      rw [fieldLine, List.intercalate_cons_cons, List.append_assoc, List.mem_append,
        List.mem_append, List.mem_singleton] at h
      rcases h with h | h | h
      · exact .inr ⟨text, List.mem_cons_self, h⟩
      · exact .inl h
      · rcases ih h with h | ⟨text', htext', hc⟩
        · exact .inl h
        · exact .inr ⟨text', List.mem_cons_of_mem _ htext', hc⟩

theorem plainLine_of_chars (hne : text ≠ [])
    (h : ∀ c ∈ text, c = ',' ∨ c.isAlphanum = true ∨ c = '-') : PlainLine text := by
  have hno : ∀ c : Char, c.isAlphanum = false → c ≠ '-' → c ≠ ',' → c ∉ text := by
    intro c hc hdash hcomma hmem
    rcases h c hmem with heq | halnum | heq
    · exact hcomma heq
    · rw [hc] at halnum
      cases halnum
    · exact hdash heq
  refine ⟨hne, ?_, ?_, hno '\r' (by decide) (by decide) (by decide)⟩
  · intro hhead
    exact hno '#' (by decide) (by decide) (by decide) (List.mem_of_mem_head? hhead)
  · intro hhead
    exact hno '!' (by decide) (by decide) (by decide) (List.mem_of_mem_head? hhead)

theorem chars_fieldLine (h : ∀ text ∈ fields, FieldText text) :
    ∀ c ∈ fieldLine fields, c = ',' ∨ c.isAlphanum = true ∨ c = '-' := by
  intro c hc
  rcases mem_fieldLine hc with hcomma | ⟨text, ht, hct⟩
  · exact .inl hcomma
  · exact .inr ((h text ht).2 c hct)

theorem fieldLine_ne_nil (hne : fields ≠ []) (h : ∀ text ∈ fields, FieldText text) :
    fieldLine fields ≠ [] := by
  intro hnil
  have hsplit := splitAny_fieldLine hne h
  rw [hnil] at hsplit
  have hempty : ([] : List Char) ∈ fields := by
    rw [← hsplit]
    exact List.mem_cons_self
  exact (h [] hempty).1 rfl

theorem plainLine_fieldLine (hne : fields ≠ []) (h : ∀ text ∈ fields, FieldText text) :
    PlainLine (fieldLine fields) :=
  plainLine_of_chars (fieldLine_ne_nil hne h) (chars_fieldLine h)

end Fields

end TradeLayer
