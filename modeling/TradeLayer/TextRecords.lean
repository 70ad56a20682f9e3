import Mathlib.Data.List.TakeWhile
import TradeLayer.Library.Sweep
import TradeLayer.StateFiles

namespace TradeLayer
open Library

/-- A database of texts, which is gone through by increasing key. -/
abbrev TextDb := OrderedMap (List Char) (List Char)

def colonLine (fields : List (List Char)) : List Char := [':'].intercalate fields

def splitColons (text : List Char) : List (List Char) := splitAny (· = ':') text

/-- The number at the start of a text. It is cut off at the range of a long number, of which the
lower half is kept. -/
def atoiInt (text : List Char) : Int :=
  let signed := readSign (text.dropWhile Char.isWhitespace)
  let digits : Int := Nat.ofDigitChars 10 (signed.2.takeWhile Char.isDigit) 0
  let long := if signed.1 then max (-2 ^ 63) (-digits) else min (2 ^ 63 - 1) digits
  (long + 2 ^ 31) % 2 ^ 32 - 2 ^ 31

def PlainField (text : List Char) : Prop := text ≠ [] ∧ ':' ∉ text

variable {text : List Char} {fields : List (List Char)} {k : Int} {n : Nat}

theorem FieldText.plainField (h : FieldText text) : PlainField text :=
  ⟨h.1, h.not_mem (by decide) (by decide)⟩

theorem plainField_integerText : PlainField (integerText k) := fieldText_integerText.plainField

theorem plainField_toDigits : PlainField (Nat.toDigits 10 n) := fieldText_toDigits.plainField

theorem splitColons_colonLine (hne : fields ≠ []) (h : ∀ text ∈ fields, PlainField text) :
    splitColons (colonLine fields) = fields := by
  refine splitAny_intercalate hne (by decide) (fun text ht c hc => ?_) fun text ht => ?_
  · have hcolon : c ≠ ':' := fun heq => (h text ht).2 (heq ▸ hc)
    simpa using hcolon
  · exact (h text (List.mem_of_mem_tail ht)).1

theorem dropWhile_isWhitespace_digits (h : ∀ c ∈ text, c.isDigit = true) :
    text.dropWhile Char.isWhitespace = text := by
  cases text with
  | nil => rfl
  | cons c text =>
    have hc := h c List.mem_cons_self
    rw [List.dropWhile_cons_of_neg]
    intro hspace
    simp only [Char.isWhitespace, Bool.or_eq_true, decide_eq_true_eq] at hspace
    rcases hspace with ((rfl | rfl) | rfl) | rfl <;> exact absurd hc (by decide)

theorem atoiInt_integerText (hlo : -2 ^ 31 ≤ k) (hhi : k < 2 ^ 31) :
    atoiInt (integerText k) = k := by
  have hdigits : ∀ c ∈ Nat.toDigits 10 k.natAbs, c.isDigit = true := fun _ =>
    isDigit_of_mem_toDigits
  have hread : ((Nat.toDigits 10 k.natAbs).takeWhile Char.isDigit) = Nat.toDigits 10 k.natAbs :=
    List.takeWhile_eq_self_iff.mpr hdigits
  rw [integerText]
  split_ifs with hneg
  · have hsign : readSign (('-' :: Nat.toDigits 10 k.natAbs).dropWhile Char.isWhitespace) =
        (true, Nat.toDigits 10 k.natAbs) := rfl
    simp only [atoiInt, hsign, hread, Nat.ofDigitChars_ten_toDigits, if_true]
    omega
  · have hsign : readSign ((Nat.toDigits 10 k.natAbs).dropWhile Char.isWhitespace) =
        (false, Nat.toDigits 10 k.natAbs) := by
      rw [dropWhile_isWhitespace_digits hdigits, readSign_toDigits]
    simp only [atoiInt, hsign, hread, Nat.ofDigitChars_ten_toDigits, Bool.false_eq_true, if_false]
    omega

end TradeLayer
