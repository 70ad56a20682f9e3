import Mathlib.Data.Char
import Mathlib.Data.List.Lex
import Mathlib.Tactic.Linarith
import Mathlib.Tactic.Ring

namespace Library

variable {l l' m m' : List Char} {width k n : Nat}
variable {c : Char}

/-- The decimal digits of a number, padded with zeros on the left. -/
def paddedDigits (width n : Nat) : List Char :=
  let digits := Nat.toDigits 10 n
  List.replicate (width - digits.length) '0' ++ digits

theorem ofDigitChars_paddedDigits : Nat.ofDigitChars 10 (paddedDigits width n) 0 = n := by
  simp [paddedDigits, Nat.ofDigitChars_append]

theorem isDigit_of_mem_paddedDigits (h : c ∈ paddedDigits width n) : c.isDigit = true := by
  rcases List.mem_append.mp h with h | h
  · rw [List.eq_of_mem_replicate h]
    rfl
  · exact Nat.isDigit_of_mem_toDigits (by decide) (by decide) h

theorem length_paddedDigits (hw : 0 < width) (h : n < 10 ^ width) :
    (paddedDigits width n).length = width := by
  have hlen := (Nat.length_toDigits_le_iff (by decide : 1 < 10) hw).mpr h
  simp only [paddedDigits, List.length_append, List.length_replicate]
  omega

theorem zero_le_toNat_of_isDigit (h : c.isDigit = true) : '0'.toNat ≤ c.toNat := by
  simp only [Char.isDigit, Bool.and_eq_true, decide_eq_true_eq] at h
  exact h.1

theorem toNat_lt_of_isDigit (h : c.isDigit = true) : c.toNat - '0'.toNat < 10 := by
  simp only [Char.isDigit, Bool.and_eq_true, decide_eq_true_eq] at h
  have hle : c.toNat ≤ 57 := h.2
  have hzero : '0'.toNat = 48 := rfl
  omega

theorem ofDigitChars_lt_pow (h : ∀ c ∈ l, c.isDigit = true) :
    Nat.ofDigitChars 10 l 0 < 10 ^ l.length := by
  induction l with
  | nil => simp
  | cons c l ih =>
    obtain ⟨hc, hl⟩ := List.forall_mem_cons.mp h
    have hd := toNat_lt_of_isDigit hc
    have hrest := ih hl
    rw [Nat.ofDigitChars_cons, Nat.ofDigitChars_eq_ofDigitChars_zero, List.length_cons,
      Nat.pow_succ]
    nlinarith

theorem lt_of_ofDigitChars_lt (hl : ∀ c ∈ l, c.isDigit = true) (hl' : ∀ c ∈ l', c.isDigit = true)
    (hlen : l.length = l'.length) (h : Nat.ofDigitChars 10 l 0 < Nat.ofDigitChars 10 l' 0) :
    l < l' := by
  induction l generalizing l' with
  | nil =>
    rw [List.length_nil, eq_comm, List.length_eq_zero_iff] at hlen
    subst hlen
    exact absurd h (lt_irrefl _)
  | cons c l ih =>
    cases l' with
    | nil => cases hlen
    | cons c' l' =>
      obtain ⟨hc, hrest⟩ := List.forall_mem_cons.mp hl
      obtain ⟨hc', hrest'⟩ := List.forall_mem_cons.mp hl'
      have hlength : l.length = l'.length := Nat.succ.inj hlen
      rw [Nat.ofDigitChars_cons, Nat.ofDigitChars_eq_ofDigitChars_zero, Nat.ofDigitChars_cons,
        Nat.ofDigitChars_eq_ofDigitChars_zero (l := l'), Nat.mul_zero, Nat.zero_add, Nat.zero_add,
        hlength] at h
      have hbound := ofDigitChars_lt_pow hrest'
      rcases lt_trichotomy c c' with hlt | rfl | hgt
      · exact List.cons_lt_cons_iff.mpr (.inl hlt)
      · refine List.cons_lt_cons_iff.mpr (.inr ⟨rfl, ih hrest hrest' hlength ?_⟩)
        omega
      · -- the first digit outweighs the rest
        have hdigit : c'.toNat - '0'.toNat + 1 ≤ c.toNat - '0'.toNat := by
          have hlt : c'.toNat < c.toNat := hgt
          have hzero : '0'.toNat ≤ c'.toNat := zero_le_toNat_of_isDigit hc'
          omega
        have hmul := Nat.mul_le_mul_left (10 ^ l'.length) hdigit
        rw [Nat.mul_add, Nat.mul_one] at hmul
        omega

theorem paddedDigits_lt_paddedDigits
    (hlen : (paddedDigits width k).length = (paddedDigits width n).length) (h : k < n) :
    paddedDigits width k < paddedDigits width n := by
  refine lt_of_ofDigitChars_lt (fun _ => isDigit_of_mem_paddedDigits)
    (fun _ => isDigit_of_mem_paddedDigits) hlen ?_
  rwa [ofDigitChars_paddedDigits, ofDigitChars_paddedDigits]

theorem append_lt_append (hlen : l.length = l'.length) (h : l < l') : l ++ m < l' ++ m' := by
  induction l generalizing l' with
  | nil =>
    rw [List.length_nil, eq_comm, List.length_eq_zero_iff] at hlen
    exact absurd h (hlen ▸ lt_irrefl _)
  | cons c l ih =>
    cases l' with
    | nil => cases hlen
    | cons c' l' =>
      rcases List.cons_lt_cons_iff.mp h with hfirst | ⟨rfl, hrest⟩
      · exact List.cons_lt_cons_iff.mpr (.inl hfirst)
      · exact List.cons_lt_cons_iff.mpr (.inr ⟨rfl, ih (Nat.succ.inj hlen) hrest⟩)

theorem append_lt_append_left (h : m < m') : l ++ m < l ++ m' := by
  induction l with
  | nil => exact h
  | cons c l ih => exact List.cons_lt_cons_iff.mpr (.inr ⟨rfl, ih⟩)

end Library
