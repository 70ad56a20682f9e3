import TradeLayer.Library.Decimal

namespace Library

section Split

universe u

variable {α : Type u} {p : α → Bool} {sep : α} {token text : List α}

/-- Keeps the last one of adjacent separators. -/
def squeeze (p : α → Bool) : List α → List α
  | [] => []
  | c :: text => if p c && text.head?.any p then squeeze p text else c :: squeeze p text

/-- The tokens between separators, adjacent ones counting as one. -/
def splitAny (p : α → Bool) (text : List α) : List (List α) :=
  (squeeze p text).splitOnP p

theorem squeeze_eq_self (h : ∀ c ∈ token, p c = false) : squeeze p token = token := by
  induction token with
  | nil => rfl
  | cons c token ih =>
    obtain ⟨hc, htoken⟩ := List.forall_mem_cons.mp h
    rw [squeeze, hc, Bool.false_and, if_neg Bool.false_ne_true, ih htoken]

theorem squeeze_append_cons (h : ∀ c ∈ token, p c = false) (hnext : text.head?.any p = false) :
    squeeze p (token ++ sep :: text) = token ++ sep :: squeeze p text := by
  induction token with
  | nil => rw [List.nil_append, squeeze, hnext, Bool.and_false, if_neg Bool.false_ne_true,
      List.nil_append]
  | cons c token ih =>
    obtain ⟨hc, htoken⟩ := List.forall_mem_cons.mp h
    rw [List.cons_append, squeeze, hc, Bool.false_and, if_neg Bool.false_ne_true, ih htoken,
      List.cons_append]

theorem splitAny_of_forall (h : ∀ c ∈ token, p c = false) : splitAny p token = [token] := by
  rw [splitAny, squeeze_eq_self h]
  exact List.splitOnP_eq_singleton h

theorem splitAny_append_cons (h : ∀ c ∈ token, p c = false) (hsep : p sep = true)
    (hnext : text.head?.any p = false) :
    splitAny p (token ++ sep :: text) = token :: splitAny p text := by
  rw [splitAny, squeeze_append_cons h hnext]
  exact List.splitOnP_append_cons_of_forall_mem h sep hsep _

theorem splitAny_intercalate {tokens : List (List α)} (hne : tokens ≠ []) (hsep : p sep = true)
    (h : ∀ token ∈ tokens, ∀ c ∈ token, p c = false)
    (htail : ∀ token ∈ tokens.tail, token ≠ []) :
    splitAny p ([sep].intercalate tokens) = tokens := by
  induction tokens with
  | nil => exact absurd rfl hne
  | cons token tokens ih =>
    obtain ⟨htoken, htokens⟩ := List.forall_mem_cons.mp h
    cases tokens with
    | nil =>
      rw [List.intercalate_singleton]
      exact splitAny_of_forall htoken
    | cons next tokens =>
      obtain ⟨hfree, -⟩ := List.forall_mem_cons.mp htokens
      obtain ⟨hnext, hrest⟩ := List.forall_mem_cons.mp htail
      have hhead : ([sep].intercalate (next :: tokens)).head?.any p = false := by
        cases next with
        | nil => exact absurd rfl hnext
        | cons c next =>
          have hc := hfree c List.mem_cons_self
          cases tokens with
          | nil => simpa using hc
          | cons => simpa [List.intercalate_cons_cons] using hc
      rw [List.intercalate_cons_cons, List.append_assoc, List.singleton_append,
        splitAny_append_cons htoken hsep hhead, ih (List.cons_ne_nil _ _) htokens hrest]

theorem mem_of_mem_splitOnP {c : α} (h : token ∈ text.splitOnP p) (hc : c ∈ token) :
    c ∈ text ∧ p c = false := by
  induction text generalizing token with
  | nil =>
    rw [List.splitOnP_nil, List.mem_singleton] at h
    rw [h] at hc
    cases hc
  | cons x text ih =>
    rw [List.splitOnP_cons_eq_if_modifyHead] at h
    split_ifs at h with hx
    · rcases List.mem_cons.mp h with rfl | h
      · cases hc
      · exact (ih h hc).imp_left (List.mem_cons_of_mem _)
    · cases hsplit : text.splitOnP p with
      | nil => exact absurd hsplit (List.splitOnP_ne_nil p text)
      | cons first rest =>
        rw [hsplit] at h
        rcases List.mem_cons.mp h with rfl | h
        · rcases List.mem_cons.mp hc with rfl | hc
          · exact ⟨List.mem_cons_self, Bool.eq_false_iff.mpr hx⟩
          · exact (ih (hsplit ▸ List.mem_cons_self) hc).imp_left (List.mem_cons_of_mem _)
        · have hrest := ih (hsplit ▸ List.mem_cons_of_mem _ h) hc
          exact hrest.imp_left (List.mem_cons_of_mem _)

theorem mem_of_mem_squeeze {c : α} (h : c ∈ squeeze p text) : c ∈ text := by
  induction text with
  | nil => cases h
  | cons x text ih =>
    rw [squeeze] at h
    split_ifs at h
    · exact List.mem_cons_of_mem _ (ih h)
    · rcases List.mem_cons.mp h with rfl | h
      · exact List.mem_cons_self
      · exact List.mem_cons_of_mem _ (ih h)

theorem mem_of_mem_splitAny {c : α} (h : token ∈ splitAny p text) (hc : c ∈ token) :
    c ∈ text ∧ p c = false :=
  (mem_of_mem_splitOnP h hc).imp_left mem_of_mem_squeeze

theorem splitAny_cons {c : α} : splitAny p (c :: text) =
    if p c && text.head?.any p then splitAny p text
    else if p c then [] :: splitAny p text else (splitAny p text).modifyHead (c :: ·) := by
  rw [splitAny, squeeze]
  split_ifs with hboth hc
  · rfl
  · rw [List.splitOnP_cons_eq_if_modifyHead, if_pos hc]
    rfl
  · rw [List.splitOnP_cons_eq_if_modifyHead, if_neg hc]
    rfl

theorem head?_splitAny {rest : List (List α)} (h : splitAny p text = token :: rest) :
    token.head? = text.head?.filter fun c => !p c := by
  induction text generalizing token rest with
  | nil =>
    cases h
    rfl
  | cons c text ih =>
    rw [splitAny_cons] at h
    split_ifs at h with hboth hc
    · obtain ⟨hc, hnext⟩ := Bool.and_eq_true_iff.mp hboth
      rw [ih h]
      cases text with
      | nil => cases hnext
      | cons d text =>
        rw [List.head?_cons, Option.any_some] at hnext
        simp [Option.filter_some, hc, hnext]
    · cases h
      simp [Option.filter_some, hc]
    · cases hsplit : splitAny p text with
      | nil =>
        rw [hsplit] at h
        cases h
      | cons first others =>
        rw [hsplit] at h
        cases h
        simp [Option.filter_some, hc]

theorem ne_nil_of_mem_splitAny (h : token ∈ (splitAny p text).tail.dropLast) : token ≠ [] := by
  induction text with
  | nil => cases h
  | cons c text ih =>
    rw [splitAny_cons] at h
    split_ifs at h with hboth hc
    · exact ih h
    · rw [List.tail_cons] at h
      cases hsplit : splitAny p text with
      | nil =>
        rw [hsplit] at h
        cases h
      | cons first rest =>
        rw [hsplit] at h ih
        cases rest with
        | nil => cases h
        | cons next rest =>
          rw [List.dropLast_cons_cons] at h
          rcases List.mem_cons.mp h with rfl | h
          · cases text with
            | nil => cases hsplit
            | cons d text =>
              have hd : p d = false := by simpa [hc] using hboth
              rintro rfl
              simpa [Option.filter_some, hd] using head?_splitAny hsplit
          · exact ih h
    · cases hsplit : splitAny p text with
      | nil =>
        rw [hsplit] at h
        cases h
      | cons first rest =>
        rw [hsplit] at h ih
        exact ih h

end Split

section Numbers

variable {text : List Char} {n bits : Nat} {k : Int}

def readDigits (text : List Char) : Option Nat :=
  if text ≠ [] ∧ text.all Char.isDigit then some (Nat.ofDigitChars 10 text 0) else none

def readSign : List Char → Bool × List Char
  | '-' :: text => (true, text)
  | '+' :: text => (false, text)
  | text => (false, text)

/-- Reads an unsigned number. A negative one wraps around. -/
def readUnsigned (bits : Nat) (text : List Char) : Option Nat :=
  ((readDigits (readSign text).2).filter (· < 2 ^ bits)).map fun n =>
    if (readSign text).1 then (2 ^ bits - n) % 2 ^ bits else n

def readSigned (bits : Nat) (text : List Char) : Option Int :=
  (readDigits (readSign text).2).bind fun n =>
    if (readSign text).1 then if n ≤ 2 ^ (bits - 1) then some (-n) else none
    else if n < 2 ^ (bits - 1) then some n else none

def integerText (k : Int) : List Char :=
  if k < 0 then '-' :: Nat.toDigits 10 k.natAbs else Nat.toDigits 10 k.natAbs

theorem isDigit_of_mem_toDigits {c : Char} (h : c ∈ Nat.toDigits 10 n) : c.isDigit = true :=
  Nat.isDigit_of_mem_toDigits (by decide) (by decide) h

theorem readDigits_toDigits : readDigits (Nat.toDigits 10 n) = some n := by
  have hall : (Nat.toDigits 10 n).all Char.isDigit = true := by
    rw [List.all_eq_true]
    exact fun c hc => isDigit_of_mem_toDigits hc
  rw [readDigits, if_pos ⟨Nat.toDigits_ne_nil, hall⟩, Nat.ofDigitChars_ten_toDigits]

theorem readSign_toDigits : readSign (Nat.toDigits 10 n) = (false, Nat.toDigits 10 n) := by
  have hdigit : ∀ c ∈ Nat.toDigits 10 n, c.isDigit = true := fun _ => isDigit_of_mem_toDigits
  generalize Nat.toDigits 10 n = text at hdigit
  rw [readSign.eq_def]
  split
  · exact absurd (hdigit '-' List.mem_cons_self) (by decide)
  · exact absurd (hdigit '+' List.mem_cons_self) (by decide)
  · rfl

theorem readUnsigned_toDigits (h : n < 2 ^ bits) :
    readUnsigned bits (Nat.toDigits 10 n) = some n := by
  rw [readUnsigned, readSign_toDigits, readDigits_toDigits]
  simp [h]

theorem readSigned_integerText (hlo : -2 ^ (bits - 1) ≤ k) (hhi : k < 2 ^ (bits - 1)) :
    readSigned bits (integerText k) = some k := by
  rw [readSigned, integerText]
  by_cases hneg : k < 0
  · rw [if_pos hneg]
    have hsign : readSign ('-' :: Nat.toDigits 10 k.natAbs) = (true, Nat.toDigits 10 k.natAbs) :=
      rfl
    have hle : k.natAbs ≤ 2 ^ (bits - 1) := by
      zify
      rw [abs_of_neg hneg]
      omega
    rw [hsign, readDigits_toDigits, Option.bind_some, if_pos rfl, if_pos hle]
    congr 1
    omega
  · rw [if_neg hneg]
    have hlt : k.natAbs < 2 ^ (bits - 1) := by
      zify
      rw [abs_of_nonneg (not_lt.mp hneg)]
      exact hhi
    rw [readSign_toDigits, readDigits_toDigits, Option.bind_some, if_neg Bool.false_ne_true,
      if_pos hlt]
    congr 1
    omega

end Numbers

end Library
