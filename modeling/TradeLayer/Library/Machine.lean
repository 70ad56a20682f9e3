import Mathlib.Tactic

namespace Library

variable {x : UInt64}

def int64Max : Int := 9223372036854775807

def int64Min : Int := -9223372036854775808

/-- The values a signed 64-bit variable can hold. -/
def InInt64 (x : Int) : Prop := int64Min ≤ x ∧ x ≤ int64Max

instance (x : Int) : Decidable (InInt64 x) := inferInstanceAs (Decidable (_ ∧ _))

/-- The signed reading of an unsigned 64-bit value. -/
def asInt64 (x : UInt64) : Int := x.toBitVec.toInt

theorem asInt64_of_lt (h : x.toNat < 2 ^ 63) : asInt64 x = x.toNat := by
  have hx : x.toBitVec.toNat = x.toNat := rfl
  rw [asInt64, BitVec.toInt_eq_toNat_cond, hx, if_pos (by omega)]

theorem asInt64_of_ge (h : 2 ^ 63 ≤ x.toNat) : asInt64 x = x.toNat - 2 ^ 64 := by
  have hx : x.toBitVec.toNat = x.toNat := rfl
  rw [asInt64, BitVec.toInt_eq_toNat_cond, hx, if_neg (by omega)]
  rfl

/-- The signed reading of an unsigned 32-bit value. -/
def asInt32 (x : Nat) : Int := (BitVec.ofNat 32 x).toInt

theorem asInt64_neg_of_lt (h : x.toNat < 2 ^ 63) : asInt64 (-x) = -x.toNat := by
  by_cases h0 : x = 0
  · subst h0
    rfl
  have hpos : 0 < x.toNat := by
    by_contra hx
    exact h0 (UInt64.toNat_inj.mp (by simpa using hx))
  have hn : (-x).toNat = 2 ^ 64 - x.toNat := by
    rw [UInt64.toNat_neg]
    exact Nat.mod_eq_of_lt (by simp only [UInt64.size]; omega)
  rw [asInt64_of_ge (by omega), hn]
  omega

end Library
