import TradeLayer.Library.Words

namespace TradeLayer
open Library

def swapByteOrder16 (us : UInt16) : UInt16 := (us >>> 8) ||| (us <<< 8)

def swapByteOrder32 (ui : UInt32) : UInt32 :=
  (ui >>> 24) |||
  ((ui <<< 8) &&& (0x00FF0000 : UInt32)) |||
  ((ui >>> 8) &&& (0x0000FF00 : UInt32)) |||
  (ui <<< 24)

def swapByteOrder64 (ull : UInt64) : UInt64 :=
  (ull >>> 56) |||
  ((ull <<< 40) &&& (0x00FF000000000000 : UInt64)) |||
  ((ull <<< 24) &&& (0x0000FF0000000000 : UInt64)) |||
  ((ull <<< 8) &&& (0x000000FF00000000 : UInt64)) |||
  ((ull >>> 8) &&& (0x00000000FF000000 : UInt64)) |||
  ((ull >>> 24) &&& (0x0000000000FF0000 : UInt64)) |||
  ((ull >>> 40) &&& (0x000000000000FF00 : UInt64)) |||
  (ull <<< 56)

theorem getLsbD_swapByteOrder16 (x : UInt16) {j k : Nat} (hj : j < 2) (hk : k < 8) :
    (swapByteOrder16 x).toBitVec.getLsbD (8 * j + k) = x.toBitVec.getLsbD (8 * (1 - j) + k) := by
  rw [show (swapByteOrder16 x).toBitVec =
    (x.toBitVec >>> (8 * 1)) ||| (x.toBitVec <<< (8 * 1)) from rfl]
  simp only [BitVec.getLsbD_or, getLsbD_shiftRight_bytes (n := 2) x.toBitVec 1,
    getLsbD_shiftLeft_bytes (n := 2) x.toBitVec 1 hk hj]
  interval_cases j <;> simp

theorem getLsbD_swapByteOrder32 (x : UInt32) {j k : Nat} (hj : j < 4) (hk : k < 8) :
    (swapByteOrder32 x).toBitVec.getLsbD (8 * j + k) = x.toBitVec.getLsbD (8 * (3 - j) + k) := by
  rw [show (swapByteOrder32 x).toBitVec =
    (x.toBitVec >>> (8 * 3)) |||
    ((x.toBitVec <<< (8 * 1)) &&& BitVec.ofNat (8 * 4) (255 <<< (8 * 2))) |||
    ((x.toBitVec >>> (8 * 1)) &&& BitVec.ofNat (8 * 4) (255 <<< (8 * 1))) |||
    (x.toBitVec <<< (8 * 3)) from rfl]
  simp only [BitVec.getLsbD_or, getLsbD_shiftRight_bytes (n := 4) x.toBitVec 3,
    getLsbD_byteUp (n := 4) x.toBitVec 1 2 hk hj, getLsbD_byteDown (n := 4) x.toBitVec 1 1 hk hj,
    getLsbD_shiftLeft_bytes (n := 4) x.toBitVec 3 hk hj]
  interval_cases j <;> simp

theorem getLsbD_swapByteOrder64 (x : UInt64) {j k : Nat} (hj : j < 8) (hk : k < 8) :
    (swapByteOrder64 x).toBitVec.getLsbD (8 * j + k) = x.toBitVec.getLsbD (8 * (7 - j) + k) := by
  rw [show (swapByteOrder64 x).toBitVec =
    (x.toBitVec >>> (8 * 7)) |||
    ((x.toBitVec <<< (8 * 5)) &&& BitVec.ofNat (8 * 8) (255 <<< (8 * 6))) |||
    ((x.toBitVec <<< (8 * 3)) &&& BitVec.ofNat (8 * 8) (255 <<< (8 * 5))) |||
    ((x.toBitVec <<< (8 * 1)) &&& BitVec.ofNat (8 * 8) (255 <<< (8 * 4))) |||
    ((x.toBitVec >>> (8 * 1)) &&& BitVec.ofNat (8 * 8) (255 <<< (8 * 3))) |||
    ((x.toBitVec >>> (8 * 3)) &&& BitVec.ofNat (8 * 8) (255 <<< (8 * 2))) |||
    ((x.toBitVec >>> (8 * 5)) &&& BitVec.ofNat (8 * 8) (255 <<< (8 * 1))) |||
    (x.toBitVec <<< (8 * 7)) from rfl]
  simp only [BitVec.getLsbD_or, getLsbD_shiftRight_bytes (n := 8) x.toBitVec 7,
    getLsbD_byteUp (n := 8) x.toBitVec 5 6 hk hj, getLsbD_byteUp (n := 8) x.toBitVec 3 5 hk hj,
    getLsbD_byteUp (n := 8) x.toBitVec 1 4 hk hj, getLsbD_byteDown (n := 8) x.toBitVec 1 3 hk hj,
    getLsbD_byteDown (n := 8) x.toBitVec 3 2 hk hj, getLsbD_byteDown (n := 8) x.toBitVec 5 1 hk hj,
    getLsbD_shiftLeft_bytes (n := 8) x.toBitVec 7 hk hj]
  interval_cases j <;> simp

theorem toNat_swapByteOrder16 (x : UInt16) :
    (swapByteOrder16 x).toNat = leNat (leBytes 2 x.toNat).reverse :=
  toNat_eq_leNat_reverse (n := 2) fun _ hj _ hk => getLsbD_swapByteOrder16 x hj hk

theorem toNat_swapByteOrder32 (x : UInt32) :
    (swapByteOrder32 x).toNat = leNat (leBytes 4 x.toNat).reverse :=
  toNat_eq_leNat_reverse (n := 4) fun _ hj _ hk => getLsbD_swapByteOrder32 x hj hk

theorem toNat_swapByteOrder64 (x : UInt64) :
    (swapByteOrder64 x).toNat = leNat (leBytes 8 x.toNat).reverse :=
  toNat_eq_leNat_reverse (n := 8) fun _ hj _ hk => getLsbD_swapByteOrder64 x hj hk

@[simp] theorem swapByteOrder16_swapByteOrder16 (x : UInt16) :
    swapByteOrder16 (swapByteOrder16 x) = x := by
  rw [← UInt16.toNat_inj, toNat_swapByteOrder16]
  exact leNat_reverse_reverse x.toNat_lt (toNat_swapByteOrder16 x)

@[simp] theorem swapByteOrder32_swapByteOrder32 (x : UInt32) :
    swapByteOrder32 (swapByteOrder32 x) = x := by
  rw [← UInt32.toNat_inj, toNat_swapByteOrder32]
  exact leNat_reverse_reverse x.toNat_lt (toNat_swapByteOrder32 x)

@[simp] theorem swapByteOrder64_swapByteOrder64 (x : UInt64) :
    swapByteOrder64 (swapByteOrder64 x) = x := by
  rw [← UInt64.toNat_inj, toNat_swapByteOrder64]
  exact leNat_reverse_reverse x.toNat_lt (toNat_swapByteOrder64 x)

end TradeLayer
