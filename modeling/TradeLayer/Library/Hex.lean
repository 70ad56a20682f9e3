import Mathlib.Data.List.Infix
import Mathlib.Data.Nat.Digits.Defs
import Mathlib.Tactic.IntervalCases

namespace Library

/-- Two digits for each byte, the higher one first. -/
def hexStr (bytes : List UInt8) : List Char :=
  bytes.flatMap fun b => [(b.toNat / 16).digitChar, (b.toNat % 16).digitChar]

def hexDigit (c : Char) : Option Nat :=
  if '0' ≤ c ∧ c ≤ '9' then some (c.toNat - '0'.toNat)
  else if 'a' ≤ c ∧ c ≤ 'f' then some (c.toNat - 'a'.toNat + 10)
  else if 'A' ≤ c ∧ c ≤ 'F' then some (c.toNat - 'A'.toNat + 10)
  else none

def isSpace (c : Char) : Bool :=
  [' ', '\x0c', '\n', '\r', '\t', '\x0b'].contains c

/-- The bytes up to the first pair that is not two digits. -/
def parseHex : List Char → List UInt8
  | [] => []
  | [_] => []
  | c :: d :: text =>
    if isSpace c then parseHex (d :: text)
    else
      match hexDigit c, hexDigit d with
      | some high, some low => UInt8.ofNat (16 * high + low) :: parseHex text
      | _, _ => []

def isHex (text : List Char) : Bool :=
  text.all (fun c => (hexDigit c).isSome) && text ≠ [] && text.length % 2 == 0

variable {n : Nat} {b : UInt8} {bytes part : List UInt8}

theorem hexDigit_digitChar (h : n < 16) : hexDigit n.digitChar = some n := by
  interval_cases n <;> rfl

theorem isSpace_digitChar (h : n < 16) : isSpace n.digitChar = false := by
  interval_cases n <;> rfl

theorem high_digit_lt (b : UInt8) : b.toNat / 16 < 16 := by
  have := b.toNat_lt
  omega

theorem low_digit_lt (b : UInt8) : b.toNat % 16 < 16 := Nat.mod_lt _ (by decide)

theorem hexStr_cons : hexStr (b :: bytes) =
    (b.toNat / 16).digitChar :: (b.toNat % 16).digitChar :: hexStr bytes := rfl

theorem hexStr_append : hexStr (part ++ bytes) = hexStr part ++ hexStr bytes :=
  List.flatMap_append

theorem length_hexStr (bytes : List UInt8) : (hexStr bytes).length = 2 * bytes.length := by
  induction bytes with
  | nil => rfl
  | cons b bytes ih =>
    rw [hexStr_cons, List.length_cons, List.length_cons, ih, List.length_cons]
    omega

theorem hexStr_eq_nil : hexStr bytes = [] ↔ bytes = [] := by
  rw [← List.length_eq_zero_iff, ← List.length_eq_zero_iff, length_hexStr]
  omega

theorem parseHex_map_hexStr {f : Char → Char}
    (hf : ∀ n < 16, isSpace (f n.digitChar) = false ∧ hexDigit (f n.digitChar) = some n)
    (bytes : List UInt8) : parseHex ((hexStr bytes).map f) = bytes := by
  induction bytes with
  | nil => rfl
  | cons b bytes ih =>
    obtain ⟨hspace, hhigh⟩ := hf _ (high_digit_lt b)
    have hlow := (hf _ (low_digit_lt b)).2
    have hdigits : 16 * (b.toNat / 16) + b.toNat % 16 = b.toNat := Nat.div_add_mod _ _
    rw [hexStr_cons, List.map_cons, List.map_cons, parseHex, hspace, if_neg Bool.false_ne_true,
      hhigh, hlow]
    simp only [hdigits, ih, UInt8.ofNat_toNat]

theorem parseHex_hexStr (bytes : List UInt8) : parseHex (hexStr bytes) = bytes := by
  have h := parseHex_map_hexStr (f := id)
    (fun n hn => ⟨isSpace_digitChar hn, hexDigit_digitChar hn⟩) bytes
  rwa [List.map_id] at h

theorem hexStr_injective : Function.Injective hexStr :=
  Function.LeftInverse.injective parseHex_hexStr

theorem parseHex_map_toUpper_hexStr (bytes : List UInt8) :
    parseHex ((hexStr bytes).map Char.toUpper) = bytes := by
  apply parseHex_map_hexStr
  intro n hn
  interval_cases n <;> exact ⟨rfl, rfl⟩

theorem drop_hexStr (n : Nat) (bytes : List UInt8) :
    (hexStr bytes).drop (2 * n) = hexStr (bytes.drop n) := by
  induction n generalizing bytes with
  | zero => rfl
  | succ n ih =>
    cases bytes with
    | nil => rfl
    | cons b bytes =>
      rw [hexStr_cons, Nat.mul_succ, List.drop_succ_cons, List.drop_succ_cons, ih,
        List.drop_succ_cons]

theorem hexDigit_isSome_of_mem {c : Char} (h : c ∈ hexStr bytes) : (hexDigit c).isSome := by
  obtain ⟨b, -, hc⟩ := List.mem_flatMap.mp h
  rcases List.mem_pair.mp hc with rfl | rfl
  · rw [hexDigit_digitChar (high_digit_lt b)]
    rfl
  · rw [hexDigit_digitChar (low_digit_lt b)]
    rfl

theorem isHex_hexStr (h : bytes ≠ []) : isHex (hexStr bytes) = true := by
  have hall : (hexStr bytes).all (fun c => (hexDigit c).isSome) = true :=
    List.all_eq_true.mpr fun _ hc => hexDigit_isSome_of_mem hc
  have hne : hexStr bytes ≠ [] := mt hexStr_eq_nil.mp h
  rw [isHex, hall, length_hexStr]
  simp [hne]

theorem hexStr_isInfix (h : part <:+: bytes) : hexStr part <:+: hexStr bytes := by
  obtain ⟨before, after, rfl⟩ := h
  exact ⟨hexStr before, hexStr after, by rw [hexStr_append, hexStr_append]⟩

end Library
