import Mathlib

namespace Library

/-- The number that bytes in memory stand for, the lowest one first. -/
def leNat : List UInt8 → Nat
  | [] => 0
  | b :: bytes => b.toNat + 256 * leNat bytes

/-- The bytes of a number in memory, the lowest one first. -/
def leBytes : Nat → Nat → List UInt8
  | 0, _ => []
  | n + 1, x => UInt8.ofNat x :: leBytes n (x / 256)

section Bytes

variable {bytes : List UInt8} {n x j k : Nat}

@[simp] theorem length_leBytes (n x : Nat) : (leBytes n x).length = n := by
  induction n generalizing x with
  | zero => rfl
  | succ n ih => rw [leBytes, List.length_cons, ih]

@[simp] theorem leNat_leBytes (n x : Nat) : leNat (leBytes n x) = x % 256 ^ n := by
  induction n generalizing x with
  | zero => rw [leBytes, leNat, pow_zero, Nat.mod_one]
  | succ n ih =>
    rw [leBytes, leNat, ih, UInt8.toNat_ofNat', pow_succ' 256 n, Nat.mod_mul]

theorem leBytes_leNat (bytes : List UInt8) : leBytes bytes.length (leNat bytes) = bytes := by
  induction bytes with
  | nil => rfl
  | cons b bytes ih =>
    have hb := b.toNat_lt
    have hhead : UInt8.ofNat (b.toNat + 256 * leNat bytes) = b := by
      rw [← UInt8.toNat_inj, UInt8.toNat_ofNat']
      omega
    have htail : (b.toNat + 256 * leNat bytes) / 256 = leNat bytes := by omega
    rw [List.length_cons, leNat, leBytes, hhead, htail, ih]

theorem leBytes_leNat_of_length (h : bytes.length = n) : leBytes n (leNat bytes) = bytes := by
  rw [← h, leBytes_leNat]

theorem getD_leBytes (hj : j < n) : (leBytes n x).getD j 0 = UInt8.ofNat (x >>> (8 * j)) := by
  induction n generalizing x j with
  | zero => exact absurd hj (Nat.not_lt_zero j)
  | succ n ih =>
    cases j with
    | zero => rfl
    | succ j =>
      rw [leBytes, List.getD_cons_succ, ih (Nat.lt_of_succ_lt_succ hj),
        show 8 * (j + 1) = 8 + 8 * j by ring, Nat.shiftRight_add, Nat.shiftRight_eq_div_pow x 8]

theorem testBit_leNat (hk : k < 8) :
    (leNat bytes).testBit (8 * j + k) = (bytes.getD j 0).toNat.testBit k := by
  induction bytes generalizing j with
  | nil => simp [leNat]
  | cons b bytes ih =>
    have hb := b.toNat_lt
    have hsplit : leNat (b :: bytes) = 2 ^ 8 * leNat bytes + b.toNat := by rw [leNat]; ring
    cases j with
    | zero =>
      rw [hsplit, Nat.testBit_two_pow_mul_add _ hb, if_pos (by omega), List.getD_cons_zero,
        Nat.mul_zero, Nat.zero_add]
    | succ j =>
      rw [hsplit, Nat.testBit_two_pow_mul_add _ hb, if_neg (by omega), List.getD_cons_succ, ← ih]
      congr 1
      omega

end Bytes

section Swap

variable {n j k : Nat}

theorem getLsbD_mask (w m i : Nat) :
    (BitVec.ofNat w (255 <<< m)).getLsbD i = decide (i < w ∧ m ≤ i ∧ i < m + 8) := by
  rw [BitVec.getLsbD_ofNat, Nat.testBit_shiftLeft, show 255 = 2 ^ 8 - 1 by rfl,
    Nat.testBit_two_pow_sub_one]
  by_cases hw : i < w <;> by_cases hm : m ≤ i <;> simp [hw, hm]
  omega

theorem getLsbD_shiftLeft_bytes (x : BitVec (8 * n)) (s : Nat) (hk : k < 8) (hj : j < n) :
    (x <<< (8 * s)).getLsbD (8 * j + k) = (decide (s ≤ j) && x.getLsbD (8 * (j - s) + k)) := by
  rw [BitVec.getLsbD_shiftLeft]
  by_cases hs : s ≤ j
  · have hbit : 8 * j + k - 8 * s = 8 * (j - s) + k := by omega
    simp [hs, hbit, show 8 * j + k < 8 * n by omega, show 8 * s ≤ 8 * j + k by omega]
  · simp [hs, show 8 * j + k < 8 * s by omega]

theorem getLsbD_shiftRight_bytes (x : BitVec (8 * n)) (s : Nat) :
    (x >>> (8 * s)).getLsbD (8 * j + k) =
      (decide (j + s < n) && x.getLsbD (8 * (j + s) + k)) := by
  rw [BitVec.getLsbD_ushiftRight, show 8 * s + (8 * j + k) = 8 * (j + s) + k by ring]
  by_cases hs : j + s < n
  · rw [decide_eq_true hs, Bool.true_and]
  · rw [decide_eq_false hs, Bool.false_and, BitVec.getLsbD_of_ge x _ (by omega)]

theorem getLsbD_and_mask (y : BitVec (8 * n)) (m : Nat) (hk : k < 8) (hj : j < n) :
    (y &&& BitVec.ofNat (8 * n) (255 <<< (8 * m))).getLsbD (8 * j + k) =
      (decide (j = m) && y.getLsbD (8 * j + k)) := by
  have hbyte : (8 * j + k < 8 * n ∧ 8 * m ≤ 8 * j + k ∧ 8 * j + k < 8 * m + 8) ↔ j = m := by
    omega
  rw [BitVec.getLsbD_and, getLsbD_mask, decide_eq_decide.mpr hbyte, Bool.and_comm]

theorem getLsbD_byteUp (x : BitVec (8 * n)) (s m : Nat) (hk : k < 8) (hj : j < n) :
    ((x <<< (8 * s)) &&& BitVec.ofNat (8 * n) (255 <<< (8 * m))).getLsbD (8 * j + k) =
      (decide (j = m) && (decide (s ≤ j) && x.getLsbD (8 * (j - s) + k))) := by
  rw [getLsbD_and_mask _ m hk hj, getLsbD_shiftLeft_bytes x s hk hj]

theorem getLsbD_byteDown (x : BitVec (8 * n)) (s m : Nat) (hk : k < 8) (hj : j < n) :
    ((x >>> (8 * s)) &&& BitVec.ofNat (8 * n) (255 <<< (8 * m))).getLsbD (8 * j + k) =
      (decide (j = m) && (decide (j + s < n) && x.getLsbD (8 * (j + s) + k))) := by
  rw [getLsbD_and_mask _ m hk hj, getLsbD_shiftRight_bytes x s]

theorem toNat_eq_leNat_reverse {x y : BitVec (8 * n)}
    (h : ∀ j < n, ∀ k < 8, y.getLsbD (8 * j + k) = x.getLsbD (8 * (n - 1 - j) + k)) :
    y.toNat = leNat (leBytes n x.toNat).reverse := by
  apply Nat.eq_of_testBit_eq
  intro i
  obtain ⟨j, k, hk, rfl⟩ : ∃ j k, k < 8 ∧ i = 8 * j + k :=
    ⟨i / 8, i % 8, Nat.mod_lt i (by norm_num), (Nat.div_add_mod i 8).symm⟩
  rw [testBit_leNat hk, BitVec.testBit_toNat]
  by_cases hj : j < n
  · have hlast : (leBytes n x.toNat).reverse.getD j 0 = (leBytes n x.toNat).getD (n - 1 - j) 0 := by
      rw [List.getD_eq_getElem?_getD, List.getD_eq_getElem?_getD,
        List.getElem?_reverse (by rwa [length_leBytes]), length_leBytes]
    rw [h j hj k hk, hlast, getD_leBytes (by omega), UInt8.toNat_ofNat',
      Nat.testBit_mod_two_pow, Nat.testBit_shiftRight, BitVec.testBit_toNat]
    simp [hk]
  · have hlen : (leBytes n x.toNat).reverse.length ≤ j := by
      rw [List.length_reverse, length_leBytes]
      omega
    rw [BitVec.getLsbD_of_ge y _ (by omega), List.getD_eq_default _ _ hlen]
    simp

theorem leNat_reverse_reverse {x y : Nat} (hx : x < 256 ^ n)
    (hy : y = leNat (leBytes n x).reverse) : leNat (leBytes n y).reverse = x := by
  rw [hy, leBytes_leNat_of_length (by rw [List.length_reverse, length_leBytes]),
    List.reverse_reverse, leNat_leBytes, Nat.mod_eq_of_lt hx]

end Swap

end Library
