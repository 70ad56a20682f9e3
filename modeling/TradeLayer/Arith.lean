import Mathlib.Algebra.Order.Floor.Ring
import TradeLayer.Basic
import TradeLayer.Library.Outcome

namespace TradeLayer
open Library

variable {n : Nat}

def coin : Nat := 100000000

/-- The conversion of a signed number. The 256-bit numbers of the source are natural numbers
here: no product that it forms comes near the limit. -/
def convertTo256 (number : Int) : Except Abort Nat :=
  if 0 ≤ number then .ok number.toNat else .error .rangeAssert

def convertTo64 (number : Nat) : Except Abort Int :=
  if (number : Int) ≤ int64Max then .ok number else .error .rangeAssert

/-- Division of 256-bit numbers, which throws on a zero divisor. -/
def divide256 (numerator denominator : Nat) : Except Abort Nat :=
  if denominator = 0 then .error .divisionByZero else .ok (numerator / denominator)

def divideAndRoundUp (numerator denominator : Nat) : Except Abort Nat :=
  if numerator = 0 then .ok 0
  else do
    let q ← divide256 (numerator - 1) denominator
    return 1 + q

/-- A signed 64-bit result, undefined when it does not fit. -/
def checked64 (x : Int) : Except Abort Int :=
  if InInt64 x then .ok x else .error .undefined

/-- A signed 32-bit result, undefined when it does not fit. -/
def checked32 (x : Int) : Except Abort Int :=
  if -2 ^ 31 ≤ x ∧ x < 2 ^ 31 then .ok x else .error .undefined

theorem convertTo256_eq_ok {x : Int} : convertTo256 x = .ok n ↔ x = n := by
  unfold convertTo256
  split_ifs with h
  · simp only [Except.ok.injEq]
    omega
  · simp only [false_iff]
    omega

theorem convertTo64_eq_ok {x : Int} : convertTo64 n = .ok x ↔ x = n ∧ (n : Int) ≤ int64Max := by
  unfold convertTo64
  split_ifs with h
  · simp only [Except.ok.injEq]
    tauto
  · simp only [false_iff]
    tauto

theorem convertTo256_of_nonneg {x : Int} (h : 0 ≤ x) : convertTo256 x = .ok x.toNat := if_pos h

theorem convertTo64_of_le (h : (n : Int) ≤ int64Max) : convertTo64 n = .ok n := if_pos h

theorem divide256_eq_ok {d q : Nat} : divide256 n d = .ok q ↔ d ≠ 0 ∧ q = n / d := by
  unfold divide256
  split_ifs with h
  · simp [h]
  · simp only [Except.ok.injEq, ne_eq, h, not_false_eq_true, true_and]
    exact eq_comm

theorem divideAndRoundUp_eq_ok {d q : Nat} (h : divideAndRoundUp n d = .ok q) :
    n = 0 ∧ q = 0 ∨ d ≠ 0 ∧ n ≠ 0 ∧ q = 1 + (n - 1) / d := by
  unfold divideAndRoundUp at h
  split_ifs at h with h0
  · cases h
    exact .inl ⟨h0, rfl⟩
  · rw [bind_eq_ok] at h
    obtain ⟨r, hr, h⟩ := h
    obtain ⟨hd, rfl⟩ := divide256_eq_ok.mp hr
    cases h
    exact .inr ⟨hd, h0, rfl⟩

theorem divideAndRoundUp_bounds {d q : Nat} (h : divideAndRoundUp n d = .ok q) (hn : 0 < n) :
    n ≤ q * d ∧ (q - 1) * d < n := by
  rcases divideAndRoundUp_eq_ok h with ⟨h0, -⟩ | ⟨hd, h0, rfl⟩
  · omega
  · have hdm := Nat.div_add_mod (n - 1) d
    have hml := Nat.mod_lt (n - 1) (Nat.pos_of_ne_zero hd)
    have hq : (1 + (n - 1) / d) * d = d + d * ((n - 1) / d) := by ring
    have hq' : (1 + (n - 1) / d - 1) * d = d * ((n - 1) / d) := by
      rw [Nat.add_sub_cancel_left, mul_comm]
    omega

theorem ceil_of_divideAndRoundUp {x d r : Nat} (h : divideAndRoundUp x d = .ok r) (hd : 0 < d) :
    ⌈((x : Int) : ℚ) / (d : Int)⌉ = r := by
  have hd' : (0 : ℚ) < ((d : Int) : ℚ) := by exact_mod_cast hd
  rcases Nat.eq_zero_or_pos x with rfl | hx
  · cases h
    simp
  · obtain ⟨hle, hlt⟩ := divideAndRoundUp_bounds h hx
    have hone : 1 ≤ r := by
      by_contra hzero
      rw [Nat.lt_one_iff.mp (not_le.mp hzero), Nat.zero_mul] at hle
      exact absurd hx hle.not_gt
    rw [Int.ceil_eq_iff, lt_div_iff₀ hd', div_le_iff₀ hd']
    constructor
    · have hcast : ((r - 1 : Nat) : ℚ) = r - 1 := by
        rw [Nat.cast_sub hone, Nat.cast_one]
      have hlt' : ((r - 1 : Nat) : ℚ) * d < x := by exact_mod_cast hlt
      rw [hcast] at hlt'
      exact_mod_cast hlt'
    · exact_mod_cast hle

theorem exists_divideAndRoundUp {x d : Nat} (hd : 0 < d) : ∃ r, divideAndRoundUp x d = .ok r := by
  rw [divideAndRoundUp]
  split_ifs
  · exact ⟨0, rfl⟩
  · rw [divide256, if_neg hd.ne']
    exact ⟨_, rfl⟩

theorem checked64_eq_ok {x y : Int} : checked64 x = .ok y ↔ y = x ∧ InInt64 x := by
  unfold checked64
  split_ifs with h
  · simp only [Except.ok.injEq]
    tauto
  · simp only [false_iff]
    tauto

end TradeLayer
