import TradeLayer.PacketReads
import TradeLayer.PayloadRoundTrip

namespace TradeLayer
open Library Reading

/-- The texts of a new property: short, without a zero byte and not all of them empty. -/
structure IssuanceTexts where
  category : List UInt8
  subcategory : List UInt8
  name : List UInt8
  url : List UInt8
  data : List UInt8
  short : ∀ text ∈ [category, subcategory, name, url, data], text.length ≤ 255
  clean : ∀ text ∈ [category, subcategory, name, url, data], 0 ∉ text
  nonempty : ∃ text ∈ [category, subcategory, name, url, data], text ≠ []

namespace IssuanceTexts

def toList (t : IssuanceTexts) : List (List UInt8) :=
  [t.category, t.subcategory, t.name, t.url, t.data]

theorem length_terminated_pos (t : IssuanceTexts) : 6 ≤ (terminated t.toList).length := by
  obtain ⟨text, htext, hne⟩ := t.nonempty
  have hpos := List.length_pos_iff.mpr hne
  simp only [List.mem_cons, List.not_mem_nil, or_false] at htext
  simp only [toList, terminated_cons, terminated_nil, List.length_append, List.length_cons,
    List.length_nil]
  rcases htext with rfl | rfl | rfl | rfl | rfl <;> omega

end IssuanceTexts

inductive IssuanceEnd where
  | fixed (amount : UInt64)
  | crowdsale (propertyIdDesired : UInt32) (amountPerUnit deadline : UInt64)
    (earlyBonus issuerPercentage : UInt8)
  | managed

/-- The messages that create a property, by the parameters of their builders. -/
structure Issuance where
  ecosystem : UInt8
  propertyType : UInt16
  previousPropertyId : UInt32
  texts : IssuanceTexts
  ending : IssuanceEnd

namespace Issuance

def payload (m : Issuance) : List UInt8 :=
  let t := m.texts
  match m.ending with
  | .fixed amount => createPayloadIssuanceFixed m.ecosystem m.propertyType m.previousPropertyId
    t.category t.subcategory t.name t.url t.data amount
  | .crowdsale propertyIdDesired amountPerUnit deadline earlyBonus issuerPercentage =>
    createPayloadIssuanceVariable m.ecosystem m.propertyType m.previousPropertyId t.category
      t.subcategory t.name t.url t.data propertyIdDesired amountPerUnit deadline earlyBonus
      issuerPercentage
  | .managed => createPayloadIssuanceManaged m.ecosystem m.propertyType m.previousPropertyId
    t.category t.subcategory t.name t.url t.data

def kind (m : Issuance) : PacketType :=
  match m.ending with
  | .fixed .. => .createPropertyFixed
  | .crowdsale .. => .createPropertyVariable
  | .managed => .createPropertyManual

def trailer (m : Issuance) : List UInt8 :=
  match m.ending with
  | .fixed amount => push64 (swapByteOrder64 amount)
  | .crowdsale propertyIdDesired amountPerUnit deadline earlyBonus issuerPercentage =>
    push32 (swapByteOrder32 propertyIdDesired) ++ (push64 (swapByteOrder64 amountPerUnit) ++
      (push64 (swapByteOrder64 deadline) ++ [earlyBonus, issuerPercentage]))
  | .managed => []

/-- The members hold the parameters that the three messages have in common. -/
def StoredFront (m : Issuance) (tx : PacketFields) : Prop :=
  tx.ecosystem = m.ecosystem ∧ tx.propType = m.propertyType ∧
    tx.prevPropId = m.previousPropertyId ∧
    tx.category = m.texts.category ∧ tx.subcategory = m.texts.subcategory ∧
    tx.name = m.texts.name ∧ tx.url = m.texts.url ∧ tx.data = m.texts.data

def StoredIn (m : Issuance) (tx : PacketFields) : Prop :=
  m.StoredFront tx ∧
    match m.ending with
    | .fixed amount => tx.nValue = amount
    | .crowdsale propertyIdDesired amountPerUnit deadline earlyBonus issuerPercentage =>
      tx.property = propertyIdDesired ∧ tx.nValue = amountPerUnit ∧ tx.deadline = deadline ∧
        tx.earlyBird = earlyBonus ∧ tx.percentage = issuerPercentage
    | .managed => True

def front (m : Issuance) : List UInt8 :=
  m.ecosystem :: (push16 (swapByteOrder16 m.propertyType) ++
    push32 (swapByteOrder32 m.previousPropertyId))

theorem payload_eq (m : Issuance) : m.payload =
    header 0 m.kind.code ++ (m.front ++ (terminated m.texts.toList ++ m.trailer)) := by
  have hshort := m.texts.short
  simp only [List.forall_mem_cons, List.not_mem_nil, false_imp_iff, implies_true,
    and_true] at hshort
  obtain ⟨hcategory, hsubcategory, hname, hurl, hdata⟩ := hshort
  rw [payload, kind, trailer, front, IssuanceTexts.toList]
  cases m.ending with
  | fixed amount =>
    simp [createPayloadIssuanceFixed, pushIssuance, pushText, PacketType.code,
      List.take_of_length_le, *]
  | crowdsale propertyIdDesired amountPerUnit deadline earlyBonus issuerPercentage =>
    simp [createPayloadIssuanceVariable, pushIssuance, pushText, PacketType.code,
      List.take_of_length_le, *]
  | managed =>
    simp [createPayloadIssuanceManaged, pushIssuance, pushText, PacketType.code,
      List.take_of_length_le, *]

theorem drop_memory (m : Issuance) (rest : List UInt8) :
    (header 0 m.kind.code ++ (m.front ++ rest)).drop 11 = rest := by
  simp [front, List.drop_append, List.drop_of_length_le]

theorem readIssuance_eq (m : Issuance) (tx : PacketFields) (rest : List UInt8)
    (htx : tx.category = [] ∧ tx.subcategory = [] ∧ tx.name = [] ∧ tx.url = [] ∧ tx.data = []) :
    ∃ tx' reach, tx.readIssuance
      (header 0 m.kind.code ++ (m.front ++ (terminated m.texts.toList ++ rest))) 4 =
        some ((tx', 11 + (terminated m.texts.toList).length), reach) ∧
      tx'.type = tx.type ∧ tx'.version = tx.version ∧ m.StoredFront tx' := by
  obtain ⟨hcategory, hsubcategory, hname, hurl, hdata⟩ := htx
  have hdrop := m.drop_memory (terminated m.texts.toList ++ rest)
  generalize hmemory : header 0 m.kind.code ++ (m.front ++ (terminated m.texts.toList ++ rest)) =
    memory at hdrop ⊢
  have hecosystem : memcpy8 4 memory 4 = some (m.ecosystem, 5) := by
    simp [← hmemory, front]
  have hpropType : swapped16 5 memory 5 = some (m.propertyType, 7) := by
    simp [← hmemory, front, List.drop_append, List.drop_of_length_le]
  have hprev : swapped32 7 memory 7 = some (m.previousPropertyId, 11) := by
    simp [← hmemory, front, List.drop_append, List.drop_of_length_le]
  have htexts : Reading.texts 5 11 memory 11 = some ((m.texts.toList,
      11 + (terminated m.texts.toList).length), 11 + (terminated m.texts.toList).length) :=
    (texts_eq_some (le_refl 11)).mpr ⟨rfl, m.texts.clean, ⟨rest, hdrop⟩, rfl,
      (max_eq_right (Nat.le_add_right 11 _)).symm⟩
  have hshort : ∀ text ∈ m.texts.toList, text.take 255 = text := fun text htext =>
    List.take_of_length_le (m.texts.short text htext)
  simp only [IssuanceTexts.toList, List.forall_mem_cons] at hshort
  obtain ⟨h₁, h₂, h₃, h₄, h₅, -⟩ := hshort
  simp only [PacketFields.readIssuance, bind_apply, hecosystem, hpropType, hprev, htexts,
    Option.bind_some, pure_apply, hcategory, hsubcategory, hname, hurl, hdata, copyText_nil]
  exact ⟨_, _, rfl, rfl, rfl, rfl, rfl, rfl, h₁, h₂, h₃, h₄, h₅⟩

open PacketFields

theorem interpretPayload_trailer (m : Issuance) {tx tx' : PacketFields} (env : Environment)
    {memory tail : List UInt8} {p reach : Nat} (hp : 17 ≤ p)
    (hread : tx.readIssuance memory 4 = some ((tx', p), reach))
    (hdrop : ∀ i, memory.drop (p + i) = (m.trailer ++ tail).drop i) (hfront : m.StoredFront tx') :
    ∃ tx'' reach', tx.interpretPayload env (p + m.trailer.length) m.kind memory 4 =
      some (some tx'', reach') ∧ tx''.type = tx'.type ∧ tx''.version = tx'.version ∧
        m.StoredIn tx'' := by
  have hdrop₀ : memory.drop p = m.trailer ++ tail := hdrop 0
  simp only [StoredIn]
  cases hending : m.ending with
  | fixed amount =>
    simp only [trailer, hending] at hdrop₀
    have hsize : ¬ p + 8 < 25 := by omega
    have hamount : swapped64 p memory reach = some (amount, max reach (p + 8)) :=
      swapped64_of_drop hdrop₀
    simp only [kind, trailer, hending, length_push64, interpretPayload,
      interpretCreatePropertyFixed, atLeast, if_neg hsize, bind_apply, hread, hamount,
      Option.bind_some, pure_apply, unlessOverrun, lt_irrefl, if_false]
    exact ⟨_, _, rfl, rfl, rfl, hfront, rfl⟩
  | crowdsale propertyIdDesired amountPerUnit deadline earlyBonus issuerPercentage =>
    simp only [trailer, hending, List.append_assoc] at hdrop hdrop₀
    have hsize : ¬ p + 22 < 39 := by omega
    have hproperty : swapped32 p memory reach = some (propertyIdDesired, max reach (p + 4)) :=
      swapped32_of_drop hdrop₀
    have h₄ : memory.drop (p + 4) = push64 (swapByteOrder64 amountPerUnit) ++
        (push64 (swapByteOrder64 deadline) ++ [earlyBonus, issuerPercentage] ++ tail) := by
      simp [hdrop]
    have h₁₂ : memory.drop (p + 12) = push64 (swapByteOrder64 deadline) ++
        ([earlyBonus, issuerPercentage] ++ tail) := by
      simp [hdrop, List.drop_append, List.drop_of_length_le]
    have h₂₀ : memory.drop (p + 20) = earlyBonus :: issuerPercentage :: tail := by
      simp [hdrop, List.drop_append, List.drop_of_length_le]
    have h₂₁ : memory.drop (p + 21) = issuerPercentage :: tail := by
      simp [hdrop, List.drop_append, List.drop_of_length_le]
    have hlength : (push32 (swapByteOrder32 propertyIdDesired) ++
        (push64 (swapByteOrder64 amountPerUnit) ++ (push64 (swapByteOrder64 deadline) ++
          [earlyBonus, issuerPercentage]))).length = 22 := by
      simp
    simp only [kind, trailer, hending, hlength, interpretPayload,
      interpretCreatePropertyVariable, atLeast, if_neg hsize, bind_apply, hread,
      swapped32_of_drop hdrop₀, swapped64_of_drop h₄, swapped64_of_drop h₁₂, memcpy8_of_drop h₂₀,
      memcpy8_of_drop h₂₁, Option.bind_some, pure_apply, unlessOverrun, lt_irrefl, if_false]
    exact ⟨_, _, rfl, rfl, rfl, hfront, rfl, rfl, rfl, rfl, rfl⟩
  | managed =>
    have hsize : ¬ p < 17 := by omega
    simp only [kind, trailer, hending, List.length_nil, Nat.add_zero, interpretPayload,
      interpretCreatePropertyManaged, atLeast, if_neg hsize, bind_apply, hread, Option.bind_some,
      pure_apply, unlessOverrun, lt_irrefl, if_false]
    exact ⟨_, _, rfl, rfl, rfl, hfront, trivial⟩

theorem interpret_issuance (m : Issuance) {tx : PacketFields} (env : Environment)
    (behind : List UInt8)
    (htx : tx.category = [] ∧ tx.subcategory = [] ∧ tx.name = [] ∧ tx.url = [] ∧ tx.data = []) :
    ∃ tx' reach, tx.interpret env m.payload behind = some (some tx', reach) ∧
      tx'.type = m.kind.code ∧ tx'.version = 0 ∧ m.StoredIn tx' := by
  obtain ⟨tail, h⟩ := tx.interpret_header env 0 m.kind
    (m.front ++ (terminated m.texts.toList ++ m.trailer)) behind
  rw [List.append_assoc, List.append_assoc] at h
  obtain ⟨tx', reach, hread, htype, hversion, hfront⟩ :=
    m.readIssuance_eq (tx.setHeader 0 m.kind.code) (m.trailer ++ tail) htx
  have hdrop : ∀ i, (header 0 m.kind.code ++ (m.front ++ (terminated m.texts.toList ++
      (m.trailer ++ tail)))).drop (11 + (terminated m.texts.toList).length + i) =
        (m.trailer ++ tail).drop i := by
    intro i
    rw [Nat.add_assoc, ← List.drop_drop, m.drop_memory, ← List.drop_drop, List.drop_left]
  have hpos := m.texts.length_terminated_pos
  obtain ⟨tx'', reach', hparse, htype', hversion', hstored⟩ :=
    m.interpretPayload_trailer env (by omega) hread hdrop hfront
  have hsize : 4 + (m.front ++ (terminated m.texts.toList ++ m.trailer)).length =
      11 + (terminated m.texts.toList).length + m.trailer.length := by
    simp only [front, List.length_append, List.length_cons, length_push16, length_push32]
    omega
  rw [m.payload_eq, h, hsize]
  exact ⟨tx'', reach', hparse, htype'.trans htype, hversion'.trans hversion, hstored⟩

end Issuance

/-- The least size of a message that creates a property, and what it has behind its texts. -/
def issuanceLayout : PacketType → Option (Nat × Nat)
  | .createPropertyFixed => some (25, 8)
  | .createPropertyVariable => some (39, 22)
  | .createPropertyManual => some (17, 0)
  | _ => none

namespace PacketFields

variable {tx tx' : PacketFields} {env : Environment} {kind : PacketType} {memory : List UInt8}
  {least tail size p reach reach' : Nat}
variable {found : List (List UInt8)}

theorem texts_of_readIssuance (hlen : 11 ≤ memory.length)
    (h : tx.readIssuance memory 4 = some ((tx', p), reach)) :
    ∃ found, texts 5 11 memory 11 = some ((found, p), reach) := by
  simp (disch := omega) only [readIssuance, bind_apply, memcpy8_of_le, swapped16_of_le,
    swapped32_of_le, Option.bind_some, pure_apply] at h
  obtain ⟨⟨⟨found, stop⟩, reach₁⟩, htexts, hend⟩ := Option.bind_eq_some_iff.mp h
  simp only [Option.some.injEq, Prod.mk.injEq] at hend
  obtain ⟨⟨-, rfl⟩, rfl⟩ := hend
  exact ⟨found, htexts⟩

theorem readIssuance_of_texts (hlen : 11 ≤ memory.length)
    (h : texts 5 11 memory 11 = some ((found, p), reach)) (tx : PacketFields) :
    ∃ tx', tx.readIssuance memory 4 = some ((tx', p), reach) := by
  simp (disch := omega) only [readIssuance, bind_apply, memcpy8_of_le, swapped16_of_le,
    swapped32_of_le, Option.bind_some, pure_apply]
  exact ⟨_, Option.bind_eq_some_iff.mpr ⟨_, h, rfl⟩⟩

theorem interpretPayload_of_lt (hkind : issuanceLayout kind = some (least, tail))
    (h : size < least) :
    tx.interpretPayload env size kind memory reach = some (none, reach) := by
  cases kind <;> cases hkind
  case createPropertyFixed => exact atLeast_of_lt h
  case createPropertyVariable => exact atLeast_of_lt h
  case createPropertyManual => exact atLeast_of_lt h

theorem le_of_unlessOverrun (h : (tx.unlessOverrun size p).isSome) : p ≤ size := by
  by_contra hlt
  rw [unlessOverrun, if_pos (not_le.mp hlt)] at h
  exact Bool.false_ne_true h

/-- A message that creates a property is read through its texts and what follows them, and it is
accepted only where all of that stands in the payload. -/
theorem texts_of_interpretPayload {result : Option PacketFields}
    (hkind : issuanceLayout kind = some (least, tail)) (hlen : 11 ≤ memory.length)
    (hsize : least ≤ size)
    (h : tx.interpretPayload env size kind memory 4 = some (result, reach')) :
    ∃ found p reach, texts 5 11 memory 11 = some ((found, p), reach) ∧
      p + tail ≤ memory.length ∧ reach' = max reach (p + tail) ∧
      (result.isSome → p + tail ≤ size) := by
  cases kind <;> cases hkind
  case createPropertyFixed =>
    simp only [interpretPayload, interpretCreatePropertyFixed, atLeast_of_le hsize,
      bind_apply, Option.bind_eq_some_iff, Prod.exists, pure_apply, Option.some.injEq,
      Prod.mk.injEq] at h
    obtain ⟨tx', p, reach, hread, nValue, _, hvalue, rfl, rfl⟩ := h
    obtain ⟨found, htexts⟩ := texts_of_readIssuance hlen hread
    obtain ⟨hle, rfl⟩ := swapped64_eq_some hvalue
    exact ⟨found, p, reach, htexts, hle, rfl, le_of_unlessOverrun⟩
  case createPropertyVariable =>
    simp only [interpretPayload, interpretCreatePropertyVariable, atLeast_of_le hsize, bind_apply,
      Option.bind_eq_some_iff, Prod.exists, pure_apply, Option.some.injEq, Prod.mk.injEq] at h
    obtain ⟨tx', p, reach, hread, _, _, h₁, _, _, h₂, _, _, h₃, _, _, h₄, _, _, h₅, rfl, rfl⟩ := h
    obtain ⟨found, htexts⟩ := texts_of_readIssuance hlen hread
    obtain ⟨-, rfl⟩ := swapped32_eq_some h₁
    obtain ⟨-, rfl⟩ := swapped64_eq_some h₂
    obtain ⟨-, rfl⟩ := swapped64_eq_some h₃
    obtain ⟨-, rfl⟩ := memcpy8_eq_some h₄
    obtain ⟨hle, rfl⟩ := memcpy8_eq_some h₅
    exact ⟨found, p, reach, htexts, hle, by omega, le_of_unlessOverrun⟩
  case createPropertyManual =>
    simp only [interpretPayload, interpretCreatePropertyManaged, atLeast_of_le hsize, bind_apply,
      Option.bind_eq_some_iff, Prod.exists, pure_apply, Option.some.injEq, Prod.mk.injEq] at h
    obtain ⟨tx', p, _, hread, rfl, rfl⟩ := h
    obtain ⟨found, htexts⟩ := texts_of_readIssuance hlen hread
    obtain ⟨hstop, hreach⟩ := texts_bounds hlen (le_refl 11) htexts
    exact ⟨found, p, _, htexts, hstop, by omega, le_of_unlessOverrun⟩

theorem interpretPayload_of_texts (tx : PacketFields)
    (env : Environment) (hkind : issuanceLayout kind = some (least, tail))
    (hlen : 11 ≤ memory.length) (hsize : least ≤ size)
    (htexts : texts 5 11 memory 11 = some ((found, p), reach)) (htail : p + tail ≤ memory.length) :
    ∃ result, tx.interpretPayload env size kind memory 4 =
      some (result, max reach (p + tail)) := by
  obtain ⟨hstop, hreach⟩ := texts_bounds hlen (le_refl 11) htexts
  obtain ⟨tx', hread⟩ := readIssuance_of_texts hlen htexts tx
  cases kind <;> cases hkind
  case createPropertyFixed =>
    simp (disch := omega) only [interpretPayload, interpretCreatePropertyFixed,
      atLeast_of_le hsize, bind_apply, hread, Option.bind_some, swapped64_of_le, pure_apply]
    exact ⟨_, rfl⟩
  case createPropertyVariable =>
    simp (disch := omega) only [interpretPayload, interpretCreatePropertyVariable,
      atLeast_of_le hsize, bind_apply, hread, Option.bind_some, swapped32_of_le, swapped64_of_le,
      memcpy8_of_le, pure_apply]
    refine ⟨_, congrArg some (Prod.ext rfl ?_)⟩
    show max (max (max (max (max reach (p + 4)) (p + 4 + 8)) (p + 12 + 8)) (p + 20 + 1))
      (p + 21 + 1) = max reach (p + 22)
    omega
  case createPropertyManual =>
    simp only [interpretPayload, interpretCreatePropertyManaged, atLeast_of_le hsize, bind_apply,
      hread, Option.bind_some, pure_apply]
    refine ⟨_, congrArg some (Prod.ext rfl ?_)⟩
    show reach = max reach (p + 0)
    omega

end PacketFields

/-- The parser returns without reading behind the buffer, whatever the memory holds there. -/
def PacketFields.StaysInBuffer (tx : PacketFields) (env : Environment) (payload : List UInt8) :
    Prop :=
  ∀ behind, ∃ result reach, tx.interpret env payload behind = some (result, reach) ∧
    reach ≤ CMPTransaction.maxPacketSize

/-- The zero bytes of the buffer in which the five texts can end: those behind the numbers that
precede the texts and before the place that what follows the texts needs. -/
def terminators (payload : List UInt8) (tail : Nat) : Nat :=
  (((packetBuffer payload).take (CMPTransaction.maxPacketSize - tail)).drop 11).count 0

open PacketFields

theorem staysInBuffer_iff {payload : List UInt8} {kind : PacketType} {least tail : Nat}
    (hsize : payload.length < CMPTransaction.maxPacketSize)
    (htype : payloadType payload = some kind)
    (hkind : issuanceLayout kind = some (least, tail)) (tx : PacketFields) (env : Environment) :
    tx.StaysInBuffer env payload ↔ payload.length < least ∨ 5 ≤ terminators payload tail := by
  have hmax : CMPTransaction.maxPacketSize = 7906 := rfl
  have hbuffer := length_packetBuffer hsize.le
  have htail : tail ≤ 22 := by cases kind <;> cases hkind <;> decide
  have hlen : ∀ behind, 11 ≤ (packetBuffer payload ++ behind).length := by
    intro behind
    rw [List.length_append]
    omega
  rw [terminators, ← exists_terminated_iff (by omega)]
  constructor
  · intro h
    by_cases hleast : payload.length < least
    · exact .inl hleast
    obtain ⟨result, reach, hparse, -⟩ := h []
    obtain ⟨version, type, hinterpret⟩ := interpret_of_payloadType htype tx env []
    rw [hinterpret] at hparse
    obtain ⟨found, p, reach₁, htexts, hle, -⟩ :=
      texts_of_interpretPayload hkind (hlen []) (not_lt.mp hleast) hparse
    rw [List.append_nil] at htexts hle
    obtain ⟨hcount, hclean, hdrop, hp, -⟩ := (texts_eq_some (le_refl 11)).mp htexts
    exact .inr ⟨found, hcount, hclean, hdrop, by omega⟩
  · intro h behind
    obtain ⟨version, type, hinterpret⟩ := interpret_of_payloadType htype tx env behind
    rw [hinterpret]
    by_cases hleast : payload.length < least
    · exact ⟨none, 4, interpretPayload_of_lt hkind hleast, by omega⟩
    obtain ⟨found, hcount, hclean, ⟨rest, hdrop⟩, hstop⟩ := h.resolve_left hleast
    have hdrop' : (packetBuffer payload ++ behind).drop 11 =
        terminated found ++ (rest ++ behind) := by
      rw [List.drop_append_of_le_length (by omega), hdrop, List.append_assoc]
    have htexts := (texts_eq_some (le_refl 11)).mpr ⟨hcount, hclean, ⟨_, hdrop'⟩, rfl, rfl⟩
    obtain ⟨result, hparse⟩ := (tx.setHeader version type).interpretPayload_of_texts env hkind
      (hlen behind) (not_lt.mp hleast) htexts (by rw [List.length_append]; omega)
    exact ⟨result, _, hparse, by omega⟩

/-- A transaction that was set up with the payload of the message is parsed to the type and to
the values of the message. -/
def Issuance.RoundTrips (m : Issuance) : Prop :=
  ∀ (left : PacketFields) (sender receiver : Address) (nValue : UInt64) (block idx : UInt32)
    (env : Environment) (behind : List UInt8), ∃ tx reach,
    (left.setNull.set sender receiver nValue block idx).interpret env m.payload behind =
      some (some tx, reach) ∧ tx.type = m.kind.code ∧ tx.version = 0 ∧ m.StoredIn tx

/-- The payloads that the builders make are parsed to the values they were built from. An arbitrary
payload keeps the parser in the buffer exactly where it is refused by its size or the buffer has
five zero bytes where the texts can end. -/
theorem issuance_codec (m : Issuance) (tx : PacketFields) (env : Environment)
    {payload : List UInt8} {kind : PacketType} {least tail : Nat}
    (hsize : payload.length < CMPTransaction.maxPacketSize)
    (htype : payloadType payload = some kind)
    (hkind : issuanceLayout kind = some (least, tail)) :
    m.RoundTrips ∧
      (tx.StaysInBuffer env payload ↔
        payload.length < least ∨ 5 ≤ terminators payload tail) :=
  ⟨fun _ _ _ _ _ _ env behind => m.interpret_issuance env behind ⟨rfl, rfl, rfl, rfl, rfl⟩,
    staysInBuffer_iff hsize htype hkind tx env⟩

def sampleIssuance : Issuance where
  ecosystem := 1
  propertyType := 1
  previousPropertyId := 0
  texts :=
    { category := [], subcategory := [], name := [65], url := [], data := []
      short := by decide
      clean := by decide
      nonempty := ⟨[65], by decide, by decide⟩ }
  ending := .managed

theorem staysInBuffer_of_sampleTexts : sampleIssuance.RoundTrips ∧
    (default : PacketFields).StaysInBuffer (.plain .main)
      [0, 0, 0, 54, 1, 0, 1, 0, 0, 0, 0, 65, 0, 66, 0, 67, 0, 0] := by
  obtain ⟨hround, hstays⟩ := @issuance_codec sampleIssuance default (.plain .main)
    [0, 0, 0, 54, 1, 0, 1, 0, 0, 0, 0, 65, 0, 66, 0, 67, 0, 0] .createPropertyManual 17 0
    (by decide) (by decide) rfl
  exact ⟨hround, hstays.mpr (.inr (by decide +kernel))⟩

def sampleUnterminated : List UInt8 := [0, 0, 0, 50] ++ List.replicate 7901 1

theorem length_sampleUnterminated : sampleUnterminated.length = 7905 := by
  rw [sampleUnterminated, List.length_append, List.length_replicate]
  rfl

theorem payloadType_sampleUnterminated :
    payloadType sampleUnterminated = some .createPropertyFixed := by
  rw [payloadType, if_neg (by rw [length_sampleUnterminated]; decide), wordAt,
    sampleUnterminated, List.drop_append_of_le_length (by decide),
    List.take_append_of_le_length (by decide)]
  decide

theorem terminators_sampleUnterminated : terminators sampleUnterminated 8 = 0 := by
  rw [terminators, packetBuffer, List.take_append_of_le_length
    (by rw [length_sampleUnterminated]; decide), sampleUnterminated, List.drop_take,
    List.drop_append, List.drop_replicate, List.count_eq_zero]
  intro hmem
  exact absurd (List.eq_of_mem_replicate (List.mem_of_mem_take hmem)) (by decide)

theorem not_staysInBuffer_of_sampleUnterminated :
    sampleUnterminated.length = 7905 ∧
      ¬ (default : PacketFields).StaysInBuffer (.plain .main) sampleUnterminated := by
  refine ⟨length_sampleUnterminated, fun h => ?_⟩
  have hsize : sampleUnterminated.length < CMPTransaction.maxPacketSize := by
    rw [length_sampleUnterminated]
    decide
  rw [staysInBuffer_iff hsize payloadType_sampleUnterminated rfl, length_sampleUnterminated,
    terminators_sampleUnterminated] at h
  exact absurd h (by decide)

end TradeLayer
