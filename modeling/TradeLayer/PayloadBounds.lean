import TradeLayer.IssuancePayload

namespace TradeLayer
open Library Reading

section Within

variable {n offset : Nat}

@[grind ←] theorem within_memcpy8 (h : offset + 1 ≤ n) : Within n (memcpy8 offset) :=
  within_bind (within_bytes h) fun _ => within_pure _

@[grind ←] theorem within_memcpy32 (h : offset + 4 ≤ n) : Within n (memcpy32 offset) :=
  within_bind (within_bytes h) fun _ => within_pure _

@[grind ←] theorem within_memcpy64 (h : offset + 8 ≤ n) : Within n (memcpy64 offset) :=
  within_bind (within_bytes h) fun _ => within_pure _

@[grind ←] theorem within_swapped16 (h : offset + 2 ≤ n) : Within n (swapped16 offset) :=
  within_bind (within_bind (within_bytes h) fun _ => within_pure _) fun _ => within_pure _

@[grind ←] theorem within_swapped32 (h : offset + 4 ≤ n) : Within n (swapped32 offset) :=
  within_bind (within_memcpy32 h) fun _ => within_pure _

@[grind ←] theorem within_swapped64 (h : offset + 8 ≤ n) : Within n (swapped64 offset) :=
  within_bind (within_memcpy64 h) fun _ => within_pure _

end Within

/-- The least size of a message that ends with texts of any length, where they begin, and how many
there are. -/
def textLayout : PacketType → Option (Nat × Nat × Nat)
  | .createContract | .createOracleContract => some (17, 21, 1)
  | .contractdexTrade => some (17, 29, 1)
  | .alert => some (11, 10, 1)
  | .createChannel => some (5, 5, 1)
  | .newIdRegistration => some (7, 8, 2)
  | .peggedCurrency => some (25, 25, 1)
  | _ => none

namespace PacketFields

variable {tx tx' : PacketFields} {env : Environment} {kind : PacketType} {memory : List UInt8}
  {least offset count size reach reach' : Nat} {parse : Reading (Option PacketFields)}
variable {n : Nat}

theorem reach_le_of_atLeast (hparse : Within least parse) (hreach : reach ≤ least)
    (h : atLeast size least parse memory reach = some (some tx', reach')) : reach' ≤ size := by
  by_cases hsize : size < least
  · cases (atLeast_of_lt hsize).symm.trans h
  · rw [atLeast_of_le (not_lt.mp hsize)] at h
    exact (hparse memory reach _ reach' h hreach).trans (not_lt.mp hsize)

@[grind ←] theorem within_readPropertyAndValue (h : 16 ≤ n) (tx : PacketFields) :
    Within n tx.readPropertyAndValue := by
  rw [readPropertyAndValue]
  grind

@[grind ←] theorem within_readEcosystem (h : 5 ≤ n) (tx : PacketFields) :
    Within n tx.readEcosystem := by
  rw [readEcosystem]
  grind

@[grind ←] theorem within_readInstant (h : 17 ≤ n) (tx : PacketFields) :
    Within n tx.readInstant := by
  rw [readInstant]
  grind

theorem reach_le_of_fixed (htext : textLayout kind = none) (hissuance : issuanceLayout kind = none)
    (h : tx.interpretPayload env size kind memory 4 = some (some tx', reach')) :
    reach' ≤ size := by
  cases kind
  case createContract | createOracleContract | contractdexTrade | alert | createChannel
    | newIdRegistration | peggedCurrency => cases htext
  case createPropertyFixed | createPropertyVariable | createPropertyManual => cases hissuance
  case sendToOwners | tradeOffer =>
    exact reach_le_of_atLeast (by grind) (by split <;> decide) h
  all_goals exact reach_le_of_atLeast (by grind) (by decide) h

theorem reach_le_of_issuance {layout : Nat × Nat} (hissuance : issuanceLayout kind = some layout)
    (hlen : 11 ≤ memory.length)
    (h : tx.interpretPayload env size kind memory 4 = some (some tx', reach')) :
    reach' ≤ size := by
  by_cases hleast : size < layout.1
  · cases h.symm.trans (interpretPayload_of_lt hissuance hleast)
  obtain ⟨found, p, reach, htexts, -, rfl, hstop⟩ :=
    texts_of_interpretPayload hissuance hlen (not_lt.mp hleast) h
  obtain ⟨-, -, -, hp, rfl⟩ := (texts_eq_some le_rfl).mp htexts
  have hle := hstop rfl
  omega

theorem exists_bind_text_iff (g : List UInt8 × Nat → PacketFields) :
    (∃ tx', ((text offset memory offset).bind fun read => some (some (g read), read.2)) =
      some (some tx', reach')) ↔
    ∃ found stop, texts 1 offset memory offset = some ((found, stop), reach') := by
  rw [texts]
  simp only [bind_apply]
  cases text offset memory offset with
  | none => simp
  | some read =>
    simp only [Option.bind_some, texts, pure_apply, Option.some.injEq, Prod.mk.injEq]
    constructor
    · rintro ⟨tx', -, rfl⟩
      exact ⟨_, _, ⟨rfl, rfl⟩, rfl⟩
    · rintro ⟨found, stop, -, rfl⟩
      exact ⟨_, rfl, rfl⟩

theorem exists_interpretPayload_iff (hlayout : textLayout kind = some (least, offset, count))
    (hlen : 29 ≤ memory.length) (hsize : least ≤ size) :
    (∃ tx', tx.interpretPayload env size kind memory 4 = some (some tx', reach')) ↔
      ∃ found stop, texts count offset memory offset = some ((found, stop), reach') := by
  cases kind <;> cases hlayout
  case createContract =>
    simp (disch := omega) only [interpretPayload, interpretCreateContractDex, readContract,
      atLeast_of_le hsize, bind_apply, memcpy8_of_le, swapped32_of_le, Option.bind_some,
      Option.bind_assoc, pure_apply]
    exact exists_bind_text_iff _
  case createOracleContract =>
    simp (disch := omega) only [interpretPayload, interpretCreateOracleContract, readContract,
      atLeast_of_le hsize, bind_apply, memcpy8_of_le, swapped32_of_le, Option.bind_some,
      Option.bind_assoc, pure_apply]
    exact exists_bind_text_iff _
  case contractdexTrade =>
    simp (disch := omega) only [interpretPayload, interpretContractDexTrade, atLeast_of_le hsize,
      bind_apply, memcpy8_of_le, swapped64_of_le, Option.bind_some, pure_apply]
    exact exists_bind_text_iff _
  case alert =>
    have hstart : ¬ size < 10 := by omega
    simp (disch := omega) only [interpretPayload, interpretAlert, atLeast_of_le hsize,
      bind_apply, swapped16_of_le, swapped32_of_le, Option.bind_some, pure_apply, unlessOverrun,
      if_neg hstart]
    exact exists_bind_text_iff _
  case createChannel =>
    simp (disch := omega) only [interpretPayload, interpretCreateChannel, atLeast_of_le hsize,
      bind_apply, memcpy8_of_le, Option.bind_some, pure_apply]
    exact exists_bind_text_iff _
  case peggedCurrency =>
    simp (disch := omega) only [interpretPayload, interpretCreatePeggedCurrency,
      atLeast_of_le hsize, bind_apply, memcpy8_of_le, swapped32_of_le, swapped64_of_le,
      Option.bind_some, pure_apply]
    exact exists_bind_text_iff _
  case newIdRegistration =>
    simp (disch := omega) only [interpretPayload, interpretNewIdRegistration,
      atLeast_of_le hsize, bind_apply, memcpy8_of_le, Option.bind_some, pure_apply]
    constructor
    · rintro ⟨tx', h⟩
      obtain ⟨⟨⟨found, stop⟩, _⟩, htexts, hend⟩ := Option.bind_eq_some_iff.mp h
      cases hend
      exact ⟨found, stop, htexts⟩
    · rintro ⟨found, stop, htexts⟩
      exact ⟨_, Option.bind_eq_some_iff.mpr ⟨_, htexts, rfl⟩⟩

/-- Wherever the parser accepts the payload, it has read nothing behind it. -/
def StaysInPayload (tx : PacketFields) (env : Environment) (payload : List UInt8) : Prop :=
  ∀ behind tx' reach, tx.interpret env payload behind = some (some tx', reach) →
    reach ≤ payload.length

theorem interpretPayload_of_textLayout_lt
    (hlayout : textLayout kind = some (least, offset, count)) (h : size < least) :
    tx.interpretPayload env size kind memory reach = some (none, reach) := by
  cases kind <;> cases hlayout
  all_goals exact atLeast_of_lt h

end PacketFields

/-- The texts of a payload that ends with texts have their terminators in it, unless it is refused
by its size. -/
def TextsEnd (payload : List UInt8) : Prop :=
  ∀ kind least offset count, payloadType payload = some kind →
    textLayout kind = some (least, offset, count) →
    payload.length < least ∨ count ≤ (payload.drop offset).count 0

open PacketFields

section Bounds

variable {payload behind : List UInt8} {kind : PacketType} {least offset count : Nat}

theorem count_pos_of_textLayout (h : textLayout kind = some (least, offset, count)) :
    1 ≤ count ∧ count ≤ 2 ∧ offset ≤ 29 := by
  cases kind <;> cases h <;> decide

theorem exists_texts (hoffset : offset ≤ 29) (hcount : count ≤ 2)
    (hsize : payload.length < CMPTransaction.maxPacketSize) :
    ∃ found, texts count offset (packetBuffer payload ++ [0, 0]) offset =
      some ((found, offset + (terminated found).length), offset + (terminated found).length) := by
  have hbuffer := length_packetBuffer hsize.le
  have hmax : CMPTransaction.maxPacketSize = 7906 := rfl
  have hzeros : count ≤ ((packetBuffer payload ++ [0, 0]).drop offset).count 0 := by
    rw [List.drop_append_of_le_length (by omega), List.count_append]
    exact hcount.trans (Nat.le_add_left 2 _)
  obtain ⟨found, hlen, hclean, hdrop⟩ := exists_terminated _ hzeros
  exact ⟨found, (texts_eq_some le_rfl).mpr ⟨hlen, hclean, hdrop, rfl,
    (max_eq_right (Nat.le_add_right _ _)).symm⟩⟩

theorem reach_le_iff {found : List (List UInt8)} {stop reach : Nat} (hcount : 1 ≤ count)
    (h : texts count offset (packetBuffer payload ++ behind) offset =
      some ((found, stop), reach)) :
    reach ≤ payload.length ↔ count ≤ (payload.drop offset).count 0 := by
  obtain ⟨hlen, hclean, hdrop, rfl, rfl⟩ := (texts_eq_some le_rfl).mp h
  constructor
  · intro hle
    have hoffset : offset ≤ payload.length := by omega
    have hzeros := (exists_terminated_iff hoffset).mp ⟨found, hlen, hclean, hdrop, by omega⟩
    rwa [take_packetBuffer] at hzeros
  · intro hle
    have hoffset : offset ≤ payload.length := by
      by_contra hlt
      rw [List.drop_eq_nil_of_le (by omega), List.count_nil] at hle
      omega
    rw [← take_packetBuffer payload behind] at hle
    obtain ⟨found', hlen', hclean', hdrop', hstop'⟩ := (exists_terminated_iff hoffset).mpr hle
    -- The texts in the payload are those that are read, as reading has one outcome.
    have h' := (texts_eq_some le_rfl).mpr ⟨hlen', hclean', hdrop', rfl, rfl⟩
    cases h.symm.trans h'
    omega

end Bounds

section Payload

variable {payload : List UInt8} {tx : PacketFields} {env : Environment}

theorem le_length_buffer (hsize : payload.length < CMPTransaction.maxPacketSize)
    (behind : List UInt8) : 29 ≤ (packetBuffer payload ++ behind).length := by
  have hmax : CMPTransaction.maxPacketSize = 7906 := rfl
  rw [List.length_append, length_packetBuffer hsize.le]
  omega

theorem textsEnd_of_staysInPayload (hsize : payload.length < CMPTransaction.maxPacketSize)
    (h : tx.StaysInPayload env payload) : TextsEnd payload := by
  intro kind least offset count htype hlayout
  by_cases hleast : payload.length < least
  · exact .inl hleast
  obtain ⟨hpos, hcount, hoffset⟩ := count_pos_of_textLayout hlayout
  obtain ⟨found, htexts⟩ := exists_texts hoffset hcount hsize
  obtain ⟨version, type, hinterpret⟩ := interpret_of_payloadType htype tx env [0, 0]
  obtain ⟨tx', hparse⟩ := (exists_interpretPayload_iff hlayout (le_length_buffer hsize _)
    (not_lt.mp hleast)).mpr ⟨found, _, htexts⟩
  exact .inr ((reach_le_iff hpos htexts).mp (h _ tx' _ (hinterpret.trans hparse)))

theorem staysInPayload_of_textsEnd (hsize : payload.length < CMPTransaction.maxPacketSize)
    (h : TextsEnd payload) : tx.StaysInPayload env payload := by
  intro behind tx' reach hparse
  have hlen := le_length_buffer hsize behind
  cases htype : payloadType payload with
  | none =>
    obtain ⟨reach', hrefused⟩ := interpret_of_payloadType_none htype tx env behind
    cases hparse.symm.trans hrefused
  | some kind =>
    obtain ⟨version, type, hinterpret⟩ := interpret_of_payloadType htype tx env behind
    rw [hinterpret] at hparse
    cases hlayout : textLayout kind with
    | none =>
      cases hissuance : issuanceLayout kind with
      | none => exact reach_le_of_fixed hlayout hissuance hparse
      | some layout => exact reach_le_of_issuance hissuance (by omega) hparse
    | some layout =>
      obtain ⟨least, offset, count⟩ := layout
      by_cases hleast : payload.length < least
      · cases hparse.symm.trans (interpretPayload_of_textLayout_lt hlayout hleast)
      obtain ⟨found, stop, htexts⟩ := (exists_interpretPayload_iff hlayout hlen
        (not_lt.mp hleast)).mp ⟨tx', hparse⟩
      exact (reach_le_iff (count_pos_of_textLayout hlayout).1 htexts).mpr
        ((h kind least offset count htype hlayout).resolve_left hleast)

end Payload

/-- No byte behind the payload is read for what is accepted, exactly where a message that ends with
texts has their terminators in its payload. -/
theorem staysInPayload_iff_textsEnd {payload : List UInt8}
    (hsize : payload.length < CMPTransaction.maxPacketSize) (tx : PacketFields)
    (env : Environment) : tx.StaysInPayload env payload ↔ TextsEnd payload :=
  ⟨textsEnd_of_staysInPayload hsize, staysInPayload_of_textsEnd hsize⟩

theorem staysInPayload_of_sampleRegistration :
    (default : PacketFields).StaysInPayload (.plain .main)
      [0, 0, 0, 115, 1, 0, 0, 0, 65, 0, 66, 67, 0] := by
  refine (staysInPayload_iff_textsEnd (by decide) default (.plain .main)).mpr ?_
  intro kind least offset count htype hlayout
  have hkind : payloadType [0, 0, 0, 115, 1, 0, 0, 0, 65, 0, 66, 67, 0] =
    some .newIdRegistration := by decide
  cases htype.symm.trans hkind
  cases hlayout
  exact .inr (by decide)

/-- A contract of the least size, which ends before the margin requirement and the name. -/
theorem not_staysInPayload_of_sampleContract :
    ¬ (default : PacketFields).StaysInPayload (.plain .main)
      [0, 0, 0, 41, 1, 0, 0, 0, 1, 0, 0, 0, 1, 0, 0, 0, 4] := by
  intro h
  exact absurd (textsEnd_of_staysInPayload (by decide) h .createContract 17 21 1 (by decide) rfl)
    (by decide)

end TradeLayer
