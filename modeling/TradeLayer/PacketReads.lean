import TradeLayer.PacketParsers

namespace TradeLayer
open Library Reading

section Words

variable {memory : List UInt8} {offset reach : Nat}
variable {reach' : Nat}

def wordAt (memory : List UInt8) (offset size : Nat) : Nat :=
  leNat ((memory.drop offset).take size)

theorem memcpy8_of_le (h : offset + 1 ≤ memory.length) : memcpy8 offset memory reach =
    some (.ofNat (wordAt memory offset 1), max reach (offset + 1)) := by
  rw [memcpy8, bind_apply, bytes_of_le h]
  rfl

theorem swapped16_of_le (h : offset + 2 ≤ memory.length) : swapped16 offset memory reach =
    some (swapByteOrder16 (.ofNat (wordAt memory offset 2)), max reach (offset + 2)) := by
  rw [swapped16, memcpy16, bind_apply, bind_apply, bytes_of_le h]
  rfl

theorem swapped32_of_le (h : offset + 4 ≤ memory.length) : swapped32 offset memory reach =
    some (swapByteOrder32 (.ofNat (wordAt memory offset 4)), max reach (offset + 4)) := by
  rw [swapped32, memcpy32, bind_apply, bind_apply, bytes_of_le h]
  rfl

theorem swapped64_of_le (h : offset + 8 ≤ memory.length) : swapped64 offset memory reach =
    some (swapByteOrder64 (.ofNat (wordAt memory offset 8)), max reach (offset + 8)) := by
  rw [swapped64, memcpy64, bind_apply, bind_apply, bytes_of_le h]
  rfl

theorem memcpy8_eq_some {value : UInt8} (h : memcpy8 offset memory reach = some (value, reach')) :
    offset + 1 ≤ memory.length ∧ reach' = max reach (offset + 1) := by
  by_cases hle : offset + 1 ≤ memory.length
  · rw [memcpy8_of_le hle] at h
    cases h
    exact ⟨hle, rfl⟩
  · simp [memcpy8, bytes, hle] at h

theorem swapped32_eq_some {value : UInt32}
    (h : swapped32 offset memory reach = some (value, reach')) :
    offset + 4 ≤ memory.length ∧ reach' = max reach (offset + 4) := by
  by_cases hle : offset + 4 ≤ memory.length
  · rw [swapped32_of_le hle] at h
    cases h
    exact ⟨hle, rfl⟩
  · simp [swapped32, memcpy32, bytes, hle] at h

theorem swapped64_eq_some {value : UInt64}
    (h : swapped64 offset memory reach = some (value, reach')) :
    offset + 8 ≤ memory.length ∧ reach' = max reach (offset + 8) := by
  by_cases hle : offset + 8 ≤ memory.length
  · rw [swapped64_of_le hle] at h
    cases h
    exact ⟨hle, rfl⟩
  · simp [swapped64, memcpy64, bytes, hle] at h

theorem wordAt_append {front back : List UInt8} {size : Nat}
    (h : offset + size ≤ front.length) :
    wordAt (front ++ back) offset size = wordAt front offset size := by
  rw [wordAt, wordAt, List.drop_append_of_le_length (by omega),
    List.take_append_of_le_length (by rw [List.length_drop]; omega)]

end Words

/-- The type that a payload begins with, where it is long enough to have one. -/
def payloadType (payload : List UInt8) : Option PacketType :=
  if payload.length < 4 then none
  else PacketType.ofCode (swapByteOrder16 (.ofNat (wordAt payload 2 2)))

namespace PacketFields

variable {payload : List UInt8}

theorem interpret_eq (tx : PacketFields) (env : Environment) (behind : List UInt8)
    (hsize : 4 ≤ payload.length) : ∃ version, tx.interpret env payload behind =
      match PacketType.ofCode (swapByteOrder16 (.ofNat (wordAt payload 2 2))) with
      | some kind => (tx.setHeader version (swapByteOrder16
          (.ofNat (wordAt payload 2 2)))).interpretPayload env payload.length kind
          (packetBuffer payload ++ behind) 4
      | none => some (none, 4) := by
  have hlen : 4 ≤ (packetBuffer payload ++ behind).length := by
    rw [packetBuffer, List.length_append, List.length_append]
    omega
  have htype : wordAt (packetBuffer payload ++ behind) 2 2 = wordAt payload 2 2 := by
    rw [packetBuffer, List.append_assoc, wordAt_append (by omega)]
  refine ⟨swapByteOrder16 (.ofNat (wordAt (packetBuffer payload ++ behind) 0 2)), ?_⟩
  simp (disch := omega) only [interpret, interpretTransaction, interpretTransactionType, atLeast,
    if_neg, bind_apply, swapped16_of_le, Option.bind_some, pure_apply, htype, setHeader_type]
  cases PacketType.ofCode (swapByteOrder16 (.ofNat (wordAt payload 2 2))) <;> rfl

theorem interpret_of_payloadType {kind : PacketType} (h : payloadType payload = some kind)
    (tx : PacketFields) (env : Environment) (behind : List UInt8) :
    ∃ version type, tx.interpret env payload behind =
      (tx.setHeader version type).interpretPayload env payload.length kind
        (packetBuffer payload ++ behind) 4 := by
  rw [payloadType] at h
  split_ifs at h with hsize
  obtain ⟨version, hinterpret⟩ := tx.interpret_eq env behind (Nat.not_lt.mp hsize)
  rw [h] at hinterpret
  exact ⟨version, _, hinterpret⟩

theorem interpret_of_payloadType_none (h : payloadType payload = none) (tx : PacketFields)
    (env : Environment) (behind : List UInt8) :
    ∃ reach, tx.interpret env payload behind = some (none, reach) := by
  rw [payloadType] at h
  split_ifs at h with hsize
  · refine ⟨0, ?_⟩
    simp only [interpret, interpretTransaction, interpretTransactionType, atLeast, if_pos hsize,
      bind_apply, pure_apply, Option.bind_some]
  · obtain ⟨version, hinterpret⟩ := tx.interpret_eq env behind (Nat.not_lt.mp hsize)
    rw [h] at hinterpret
    exact ⟨4, hinterpret⟩

end PacketFields

end TradeLayer
