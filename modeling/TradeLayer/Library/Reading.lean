import TradeLayer.Library.Words

namespace Library

/-- A computation that reads a memory. It fails where it reads outside of it, and it keeps the
end of the furthest byte it has read. -/
def Reading (α : Type) : Type := List UInt8 → Nat → Option (α × Nat)

namespace Reading

variable {α β : Type}

instance : Monad Reading where
  pure a := fun _ reach => some (a, reach)
  bind x f := fun memory reach => (x memory reach).bind fun read => f read.1 memory read.2

@[simp] theorem pure_apply (a : α) (memory : List UInt8) (reach : Nat) :
    (pure a : Reading α) memory reach = some (a, reach) := rfl

@[simp] theorem bind_apply (x : Reading α) (f : α → Reading β) (memory : List UInt8)
    (reach : Nat) :
    (x >>= f) memory reach = (x memory reach).bind fun read => f read.1 memory read.2 := rfl

def bytes (offset size : Nat) : Reading (List UInt8) := fun memory reach =>
  if offset + size ≤ memory.length then
    some ((memory.drop offset).take size, max reach (offset + size))
  else none

/-- Copies the bytes up to the next zero byte, which is read too. -/
def text (offset : Nat) : Reading (List UInt8) := fun memory reach =>
  let text := (memory.drop offset).takeWhile (· != 0)
  if offset + text.length < memory.length then
    some (text, max reach (offset + text.length + 1))
  else none

/-- Copies texts that follow one another, and returns where the last one ends. -/
def texts : Nat → Nat → Reading (List (List UInt8) × Nat)
  | 0, offset => pure ([], offset)
  | count + 1, offset => do
    let first ← text offset
    let (others, stop) ← texts count (offset + first.length + 1)
    return (first :: others, stop)

def terminated (texts : List (List UInt8)) : List UInt8 := texts.flatMap (· ++ [0])

section Reads

variable {memory word rest : List UInt8} {offset size reach reach' count stop limit : Nat}
variable {found : List (List UInt8)}

theorem bytes_of_le (h : offset + size ≤ memory.length) :
    bytes offset size memory reach =
      some ((memory.drop offset).take size, max reach (offset + size)) := if_pos h

theorem bytes_apply (hsize : 0 < size) : bytes offset size memory reach =
    if ((memory.drop offset).take size).length = size then
      some ((memory.drop offset).take size, max reach (offset + size))
    else none := by
  have hle : offset + size ≤ memory.length ↔ ((memory.drop offset).take size).length = size := by
    rw [List.length_take, List.length_drop]
    omega
  simp only [bytes, hle]

theorem text_eq_some : text offset memory reach = some (word, reach') ↔
    0 ∉ word ∧ (∃ rest, memory.drop offset = word ++ 0 :: rest) ∧
      reach' = max reach (offset + word.length + 1) := by
  constructor
  · intro h
    rw [text] at h
    split_ifs at h with hlt
    cases h
    -- The scan stops inside of the memory, so what it stops at is a zero byte.
    have hstop : (memory.drop offset).takeWhile (· != 0) ≠ memory.drop offset := by
      intro heq
      rw [heq, List.length_drop] at hlt
      omega
    obtain ⟨b, rest, hdrop⟩ := List.exists_cons_of_ne_nil
      (mt List.dropWhile_eq_nil_iff.mp (mt List.takeWhile_eq_self_iff.mpr hstop))
    have hb : b = 0 := by
      have hhead := List.head_dropWhile_not (· != (0 : UInt8))
        (by rw [hdrop]; exact List.cons_ne_nil b rest)
      simpa [hdrop] using hhead
    subst hb
    refine ⟨fun hmem => ?_, ⟨rest, ?_⟩, rfl⟩
    · simpa using List.mem_takeWhile_imp hmem
    · rw [← hdrop, List.takeWhile_append_dropWhile]
  · rintro ⟨hword, ⟨rest, hdrop⟩, rfl⟩
    have htake : (memory.drop offset).takeWhile (· != 0) = word := by
      rw [hdrop, List.takeWhile_append_of_pos (fun b hb => by
        simpa using ne_of_mem_of_not_mem hb hword), List.takeWhile_cons]
      simp
    have hlen := congrArg List.length hdrop
    rw [List.length_drop, List.length_append, List.length_cons] at hlen
    rw [text, htake, if_pos (by omega)]

@[simp] theorem terminated_cons (first : List UInt8) (others : List (List UInt8)) :
    terminated (first :: others) = first ++ 0 :: terminated others := by
  rw [terminated, List.flatMap_cons, List.append_assoc]
  rfl

@[simp] theorem terminated_nil : terminated [] = [] := rfl

theorem texts_eq_some (hreach : offset ≤ reach) :
    texts count offset memory reach = some ((found, stop), reach') ↔
      found.length = count ∧ (∀ word ∈ found, 0 ∉ word) ∧
        (∃ rest, memory.drop offset = terminated found ++ rest) ∧
        stop = offset + (terminated found).length ∧ reach' = max reach stop := by
  induction count generalizing offset reach found stop reach' with
  | zero =>
    constructor
    · intro h
      simp only [texts, pure_apply, Option.some.injEq, Prod.mk.injEq] at h
      obtain ⟨⟨rfl, rfl⟩, rfl⟩ := h
      exact ⟨rfl, by simp, ⟨memory.drop offset, rfl⟩, rfl, (max_eq_left hreach).symm⟩
    · rintro ⟨hlen, -, -, rfl, rfl⟩
      cases List.length_eq_zero_iff.mp hlen
      rw [terminated_nil, List.length_nil, Nat.add_zero, max_eq_left hreach]
      rfl
  | succ count ih =>
    have hchain : ∀ {first : List UInt8},
        offset + first.length + 1 ≤ max reach (offset + first.length + 1) := le_max_right _ _
    constructor
    · intro h
      simp only [texts, bind_apply, Option.bind_eq_some_iff, pure_apply, Prod.exists,
        Option.some.injEq, Prod.mk.injEq] at h
      obtain ⟨first, _, hfirst, others, _, _, hothers, ⟨rfl, rfl⟩, rfl⟩ := h
      obtain ⟨hword, ⟨rest, hdrop⟩, rfl⟩ := text_eq_some.mp hfirst
      obtain ⟨hlen, hwords, ⟨rest', hrest⟩, rfl, rfl⟩ := (ih hchain).mp hothers
      have hnext : memory.drop (offset + first.length + 1) = rest := by
        rw [Nat.add_assoc, ← List.drop_drop, hdrop, ← List.drop_drop, List.drop_left]
        rfl
      refine ⟨by rw [List.length_cons, hlen], List.forall_mem_cons.mpr ⟨hword, hwords⟩,
        ⟨rest', ?_⟩, ?_, ?_⟩
      · rw [hdrop, ← hnext, hrest, terminated_cons, List.append_assoc, List.cons_append]
      · rw [terminated_cons, List.length_append, List.length_cons]
        omega
      · omega
    · rintro ⟨hlen, hwords, ⟨rest, hdrop⟩, rfl, rfl⟩
      obtain ⟨first, others, rfl⟩ := List.exists_cons_of_length_eq_add_one hlen
      obtain ⟨hfirst, hothers⟩ := List.forall_mem_cons.mp hwords
      rw [terminated_cons, List.append_assoc, List.cons_append] at hdrop
      have hread : text offset memory reach =
          some (first, max reach (offset + first.length + 1)) :=
        text_eq_some.mpr ⟨hfirst, ⟨_, hdrop⟩, rfl⟩
      have hnext : memory.drop (offset + first.length + 1) = terminated others ++ rest := by
        rw [Nat.add_assoc, ← List.drop_drop, hdrop, ← List.drop_drop, List.drop_left]
        rfl
      have hchained := (ih hchain).mpr
        ⟨Nat.succ.inj hlen, hothers, ⟨rest, hnext⟩, rfl, rfl⟩
      simp only [texts, bind_apply, hread, Option.bind_some, hchained, pure_apply,
        terminated_cons, List.length_append, List.length_cons, Option.some.injEq, Prod.mk.injEq,
        true_and]
      omega

theorem texts_bounds (hoffset : offset ≤ memory.length) (hreach : offset ≤ reach)
    (h : texts count offset memory reach = some ((found, stop), reach')) :
    stop ≤ memory.length ∧ reach' = max reach stop := by
  obtain ⟨-, -, ⟨rest, hdrop⟩, rfl, rfl⟩ := (texts_eq_some hreach).mp h
  have hlen := congrArg List.length hdrop
  rw [List.length_drop, List.length_append] at hlen
  exact ⟨by omega, rfl⟩

theorem count_terminated (h : ∀ word ∈ found, 0 ∉ word) :
    (terminated found).count 0 = found.length := by
  induction found with
  | nil => rfl
  | cons first others ih =>
    obtain ⟨hfirst, hothers⟩ := List.forall_mem_cons.mp h
    rw [terminated_cons, List.count_append, List.count_eq_zero.mpr hfirst, List.count_cons_self,
      ih hothers, List.length_cons, Nat.zero_add]

theorem exists_terminated (region : List UInt8) (h : count ≤ region.count 0) :
    ∃ found : List (List UInt8), found.length = count ∧ (∀ word ∈ found, 0 ∉ word) ∧
      ∃ rest, region = terminated found ++ rest := by
  induction count generalizing region with
  | zero => exact ⟨[], rfl, by simp, region, rfl⟩
  | succ count ih =>
    have hmem : 0 ∈ region := List.count_pos_iff.mp (by omega)
    obtain ⟨first, region', rfl, hfirst⟩ := List.eq_append_cons_of_mem hmem
    rw [List.count_append, List.count_eq_zero.mpr hfirst, List.count_cons_self] at h
    obtain ⟨others, hlen, hothers, rest, rfl⟩ := ih region' (by omega)
    refine ⟨first :: others, by rw [List.length_cons, hlen],
      List.forall_mem_cons.mpr ⟨hfirst, hothers⟩, rest, ?_⟩
    rw [terminated_cons, List.append_assoc, List.cons_append]

theorem exists_terminated_iff (hoffset : offset ≤ limit) :
    (∃ found : List (List UInt8), found.length = count ∧ (∀ word ∈ found, 0 ∉ word) ∧
      (∃ rest, memory.drop offset = terminated found ++ rest) ∧
      offset + (terminated found).length ≤ limit) ↔
    count ≤ ((memory.take limit).drop offset).count 0 := by
  rw [List.drop_take]
  constructor
  · rintro ⟨found, rfl, hfound, ⟨rest, hdrop⟩, hstop⟩
    rw [hdrop, List.take_append, List.take_of_length_le (by omega), List.count_append,
      count_terminated hfound]
    exact Nat.le_add_right _ _
  · intro h
    obtain ⟨found, hlen, hfound, rest, hregion⟩ := exists_terminated _ h
    refine ⟨found, hlen, hfound, ⟨rest ++ (memory.drop offset).drop (limit - offset), ?_⟩, ?_⟩
    · rw [← List.append_assoc, ← hregion, List.take_append_drop]
    · have hbound := congrArg List.length hregion
      rw [List.length_take, List.length_append] at hbound
      omega

end Reads

section Within

variable {α β : Type} {n : Nat}

/-- A computation that reads nothing at or behind a position. -/
def Within (n : Nat) (x : Reading α) : Prop :=
  ∀ memory reach a reach', x memory reach = some (a, reach') → reach ≤ n → reach' ≤ n

@[grind ←] theorem within_pure (a : α) : Within n (pure a : Reading α) := by
  intro memory reach b reach' h hreach
  cases h
  exact hreach

@[grind ←] theorem within_bytes {offset size : Nat} (h : offset + size ≤ n) :
    Within n (bytes offset size) := by
  intro memory reach a reach' hread hreach
  rw [bytes] at hread
  split_ifs at hread
  cases hread
  exact max_le hreach h

@[grind ←] theorem within_bind {x : Reading α} {f : α → Reading β} (hx : Within n x)
    (hf : ∀ a, Within n (f a)) : Within n (x >>= f) := by
  intro memory reach b reach' h hreach
  rw [bind_apply] at h
  obtain ⟨⟨a, reach₁⟩, hread, hnext⟩ := Option.bind_eq_some_iff.mp h
  exact hf a memory reach₁ b reach' hnext (hx memory reach a reach₁ hread hreach)

end Within

end Reading

end Library
