import Mathlib.Algebra.BigOperators.Group.List.Basic
import Mathlib.Data.List.Lex
import Mathlib.Data.Prod.Lex
import Mathlib.Tactic

namespace Library

universe u v w

/-- A finite collection listed in strictly increasing order of a key of its elements, as the
ordered sets and maps of a standard library are. -/
structure Keyed {α : Type u} {κ : Type v} [LinearOrder κ] (key : α → κ) where
  toList : List α
  sorted : toList.Pairwise fun a b => key a < key b

namespace Keyed

variable {α : Type u} {κ : Type v} [LinearOrder κ] {key : α → κ} {a b : α} {k k' : κ}
variable {s t : Keyed key}

instance : Membership α (Keyed key) := ⟨fun s a => a ∈ s.toList⟩

instance [DecidableEq α] : Decidable (a ∈ s) := inferInstanceAs (Decidable (a ∈ s.toList))

theorem mem_def : a ∈ s ↔ a ∈ s.toList := Iff.rfl

theorem toList_injective : s.toList = t.toList → s = t := by
  cases s
  cases t
  simp

instance [DecidableEq α] : DecidableEq (Keyed key) := fun s t =>
  decidable_of_iff (s.toList = t.toList) ⟨toList_injective, fun h => h ▸ rfl⟩

theorem nodup (s : Keyed key) : s.toList.Nodup :=
  s.sorted.imp fun h he => absurd (he ▸ h) (lt_irrefl _)

theorem eq_of_key_eq (ha : a ∈ s) (hb : b ∈ s) (h : key a = key b) : a = b := by
  have hn : (s.toList.map key).Nodup := List.pairwise_map.mpr (s.sorted.imp fun h => h.ne)
  exact List.inj_on_of_nodup_map hn ha hb h

theorem ext_mem (h : ∀ a, a ∈ s ↔ a ∈ t) : s = t := by
  apply toList_injective
  have hp : s.toList.Perm t.toList := (List.perm_ext_iff_of_nodup s.nodup t.nodup).mpr h
  refine hp.eq_of_pairwise ?_ s.sorted t.sorted
  intro a b _ _ hab hba
  exact absurd (hab.trans hba) (lt_irrefl _)

def empty : Keyed key := ⟨[], .nil⟩

instance : EmptyCollection (Keyed key) := ⟨empty⟩

@[simp] theorem toList_empty : (∅ : Keyed key).toList = [] := rfl

@[simp] theorem not_mem_empty : ¬ a ∈ (∅ : Keyed key) := List.not_mem_nil

def find? (s : Keyed key) (k : κ) : Option α :=
  s.toList.find? fun a => key a = k

theorem find?_eq_some : s.find? k = some a ↔ a ∈ s ∧ key a = k := by
  constructor
  · intro h
    exact ⟨List.mem_of_find?_eq_some h, by simpa using List.find?_some h⟩
  · rintro ⟨hm, rfl⟩
    cases hf : s.find? (key a) with
    | none => simpa using List.find?_eq_none.mp hf a hm
    | some b =>
      have hb : key b = key a := by simpa using List.find?_some hf
      rw [eq_of_key_eq (List.mem_of_find?_eq_some hf) hm hb]

theorem find?_eq_none : s.find? k = none ↔ ∀ a ∈ s, key a ≠ k := by
  simp [find?, mem_def]

theorem mem_iff_find? : a ∈ s ↔ s.find? (key a) = some a := by
  simp [find?_eq_some]

theorem ext_find? (h : ∀ k, s.find? k = t.find? k) : s = t :=
  ext_mem fun a => by rw [mem_iff_find?, mem_iff_find?, h]

@[simp] theorem find?_empty : (∅ : Keyed key).find? k = none := rfl

def contains (s : Keyed key) (k : κ) : Bool :=
  (s.find? k).isSome

theorem contains_eq_true : s.contains k = true ↔ ∃ a ∈ s, key a = k := by
  simp only [contains, Option.isSome_iff_exists, find?_eq_some]

def filter (s : Keyed key) (p : α → Bool) : Keyed key :=
  ⟨s.toList.filter p, s.sorted.filter p⟩

@[simp] theorem mem_filter {p : α → Bool} : a ∈ s.filter p ↔ a ∈ s ∧ p a = true :=
  List.mem_filter

theorem takeWhile_eq_filter {p : α → Bool} (hp : ∀ a b, key a < key b → p b = true → p a = true) :
    s.toList.takeWhile p = (s.filter p).toList := by
  have hlist : ∀ l : List α,
      l.Pairwise (fun a b => key a < key b) → l.takeWhile p = l.filter p := by
    intro l hl
    induction hl with
    | nil => rfl
    | @cons a l ha _ ih =>
      by_cases h : p a = true
      · rw [List.takeWhile_cons_of_pos h, List.filter_cons_of_pos h, ih]
      · rw [List.takeWhile_cons_of_neg h, eq_comm, List.filter_eq_nil_iff]
        rintro b hb hpb
        rcases List.mem_cons.mp hb with rfl | hb
        · exact h hpb
        · exact h (hp a b (ha b hb) hpb)
  exact hlist s.toList s.sorted

/-- Removes the element with a key, if there is one. -/
def erase (s : Keyed key) (k : κ) : Keyed key :=
  s.filter fun a => key a ≠ k

@[simp] theorem mem_erase : a ∈ s.erase k ↔ a ∈ s ∧ key a ≠ k := by
  simp [erase]

theorem find?_erase : (s.erase k').find? k = if k = k' then none else s.find? k := by
  ext a
  by_cases hk : k = k'
  · simp only [hk, find?_eq_some, mem_erase, if_true, reduceCtorEq, iff_false]
    rintro ⟨⟨-, hne⟩, he⟩
    exact hne he
  · simp only [hk, if_false, find?_eq_some, mem_erase]
    constructor
    · rintro ⟨⟨hm, -⟩, he⟩
      exact ⟨hm, he⟩
    · rintro ⟨hm, rfl⟩
      exact ⟨⟨hm, hk⟩, rfl⟩

theorem erase_of_find?_eq_none (h : s.find? k = none) : s.erase k = s :=
  ext_mem fun a => by simpa using find?_eq_none.mp h a

def insertList (key : α → κ) (a : α) : List α → List α
  | [] => [a]
  | b :: l =>
    if key a < key b then a :: b :: l
    else if key a = key b then b :: l
    else b :: insertList key a l

theorem mem_of_mem_insertList {l : List α} (h : b ∈ insertList key a l) : b = a ∨ b ∈ l := by
  induction l with
  | nil => simpa [insertList] using h
  | cons c l ih =>
    simp only [insertList] at h
    split_ifs at h with h₁ h₂
    · simpa using h
    · exact .inr h
    · rcases List.mem_cons.mp h with rfl | h
      · exact .inr List.mem_cons_self
      · exact (ih h).imp_right (List.mem_cons_of_mem _)

theorem insertList_sorted {l : List α} (h : l.Pairwise fun a b => key a < key b) :
    (insertList key a l).Pairwise fun a b => key a < key b := by
  induction l with
  | nil => simp [insertList]
  | cons c l ih =>
    have hc := List.pairwise_cons.mp h
    simp only [insertList]
    split_ifs with h₁ h₂
    · refine List.pairwise_cons.mpr ⟨?_, h⟩
      intro b hb
      rcases List.mem_cons.mp hb with rfl | hb
      · exact h₁
      · exact h₁.trans (hc.1 b hb)
    · exact h
    · refine List.pairwise_cons.mpr ⟨?_, ih hc.2⟩
      intro b hb
      rcases mem_of_mem_insertList hb with rfl | hb
      · exact lt_of_le_of_ne (not_lt.mp h₁) (Ne.symm h₂)
      · exact hc.1 b hb

theorem insertList_perm {l : List α} (h : ∀ b ∈ l, key b ≠ key a) :
    (insertList key a l).Perm (a :: l) := by
  induction l with
  | nil => exact .refl _
  | cons c l ih =>
    simp only [insertList]
    split_ifs with h₁ h₂
    · exact .refl _
    · exact absurd h₂.symm (h c List.mem_cons_self)
    · exact ((ih fun b hb => h b (List.mem_cons_of_mem _ hb)).cons c).trans (.swap a c l)

theorem insertList_of_mem {l : List α} (hs : l.Pairwise fun a b => key a < key b)
    (h : ∃ b ∈ l, key b = key a) : insertList key a l = l := by
  induction l with
  | nil => simp at h
  | cons c l ih =>
    have hc := List.pairwise_cons.mp hs
    obtain ⟨b, hb, he⟩ := h
    simp only [insertList]
    rcases List.mem_cons.mp hb with rfl | hb
    · simp [he]
    · have hlt : key c < key a := he ▸ hc.1 b hb
      rw [if_neg hlt.asymm, if_neg hlt.ne', ih hc.2 ⟨b, hb, he⟩]

/-- Adds an element unless one with the same key is there already. -/
def insert (s : Keyed key) (a : α) : Keyed key :=
  ⟨insertList key a s.toList, insertList_sorted s.sorted⟩

theorem insert_of_find?_ne_none (h : s.find? (key a) ≠ none) : s.insert a = s := by
  apply toList_injective
  apply insertList_of_mem s.sorted
  obtain ⟨b, hb⟩ := Option.ne_none_iff_exists'.mp h
  exact ⟨b, find?_eq_some.mp hb⟩

theorem mem_insert : b ∈ s.insert a ↔ b ∈ s ∨ b = a ∧ s.find? (key a) = none := by
  by_cases h : s.find? (key a) = none
  · have hp := insertList_perm (find?_eq_none.mp h)
    have hm : b ∈ s.insert a ↔ b ∈ a :: s.toList := hp.mem_iff
    simpa [h, or_comm, mem_def] using hm
  · simp [insert_of_find?_ne_none h, h]

theorem mem_insert_self (hk : Function.Injective key) : a ∈ s.insert a := by
  rw [mem_insert]
  cases h : s.find? (key a) with
  | none => exact .inr ⟨rfl, rfl⟩
  | some b =>
    obtain ⟨hm, he⟩ := find?_eq_some.mp h
    exact .inl (hk he ▸ hm)

theorem find?_insert : (s.insert a).find? k =
    if k = key a ∧ s.find? k = none then some a else s.find? k := by
  ext b
  by_cases hk : k = key a
  · subst hk
    by_cases h : s.find? (key a) = none
    · simp only [h, and_self, if_true, find?_eq_some, mem_insert, and_true]
      constructor
      · rintro ⟨hb | rfl, he⟩
        · exact absurd he (find?_eq_none.mp h b hb)
        · rfl
      · rintro ⟨rfl⟩
        exact ⟨.inr rfl, rfl⟩
    · simp [insert_of_find?_ne_none h, h]
  · simp only [hk, false_and, if_false, find?_eq_some, mem_insert]
    constructor
    · rintro ⟨hb | ⟨rfl, -⟩, he⟩
      · exact ⟨hb, he⟩
      · exact absurd he.symm hk
    · rintro ⟨hb, he⟩
      exact ⟨.inl hb, he⟩

/-- Adds an element in place of one with the same key. -/
def assign (s : Keyed key) (a : α) : Keyed key :=
  (s.erase (key a)).insert a

theorem find?_assign : (s.assign a).find? k = if k = key a then some a else s.find? k := by
  rw [assign, find?_insert, find?_erase]
  by_cases hk : k = key a <;> simp [hk]

theorem mem_assign : b ∈ s.assign a ↔ b = a ∨ b ∈ s ∧ key b ≠ key a := by
  simp only [mem_iff_find?, find?_assign]
  by_cases hk : key b = key a
  · simp only [hk, if_true, Option.some.injEq, ne_eq, not_true_eq_false, and_false, or_false]
    exact eq_comm
  · have hne : b ≠ a := fun h => hk (h ▸ rfl)
    simp [hk, hne]

section Sum

variable {M : Type w}

def sum [AddCommMonoid M] (s : Keyed key) (f : α → M) : M :=
  (s.toList.map f).sum

variable [AddCommMonoid M] {f g : α → M}

@[simp] theorem sum_empty : (∅ : Keyed key).sum f = 0 := rfl

theorem sum_congr (h : ∀ a ∈ s, f a = g a) : s.sum f = s.sum g := by
  rw [sum, sum, List.map_congr_left h]

theorem sum_insert (h : s.find? (key a) = none) : (s.insert a).sum f = f a + s.sum f := by
  exact ((insertList_perm (find?_eq_none.mp h)).map f).sum_eq

theorem insert_erase_of_mem (h : a ∈ s) : (s.erase (key a)).insert a = s := by
  apply ext_find?
  intro k
  rw [find?_insert, find?_erase]
  by_cases hk : k = key a
  · subst hk
    simp [mem_iff_find?.mp h]
  · simp [hk]

theorem sum_erase (h : a ∈ s) : f a + (s.erase (key a)).sum f = s.sum f := by
  conv_rhs => rw [← insert_erase_of_mem h]
  rw [sum_insert (by simp [find?_erase])]

theorem sum_assign : (s.assign a).sum f + ((s.find? (key a)).map f).getD 0 = f a + s.sum f := by
  rw [assign, sum_insert (by simp [find?_erase])]
  cases h : s.find? (key a) with
  | none => simp [erase_of_find?_eq_none h]
  | some b =>
    obtain ⟨hb, hk⟩ := find?_eq_some.mp h
    rw [← hk, ← sum_erase hb]
    simp only [Option.map_some, Option.getD_some]
    rw [add_assoc, add_comm ((s.erase (key b)).sum f)]

theorem sum_nonneg {f : α → Int} (h : ∀ a ∈ s, 0 ≤ f a) : 0 ≤ s.sum f := by
  apply List.sum_nonneg
  intro x hx
  obtain ⟨a, ha, rfl⟩ := List.mem_map.mp hx
  exact h a ha

theorem le_sum {f : α → Int} (h : ∀ a ∈ s, 0 ≤ f a) (ha : a ∈ s) : f a ≤ s.sum f := by
  rw [← sum_erase ha]
  exact le_add_of_nonneg_right (sum_nonneg fun b hb => h b (mem_erase.mp hb).1)

end Sum

end Keyed

/-- An ordered map, listed by increasing key. -/
abbrev OrderedMap (κ : Type u) (ν : Type v) [LinearOrder κ] :=
  Keyed (Prod.fst : κ × ν → κ)

namespace OrderedMap

variable {κ : Type u} {ν : Type v} [LinearOrder κ] {m n : OrderedMap κ ν} {k k' : κ} {x : ν}

def get? (m : OrderedMap κ ν) (k : κ) : Option ν :=
  (m.find? k).map Prod.snd

def set (m : OrderedMap κ ν) (k : κ) (x : ν) : OrderedMap κ ν :=
  m.assign (k, x)

def erase (m : OrderedMap κ ν) (k : κ) : OrderedMap κ ν :=
  Keyed.erase m k

@[simp] theorem get?_empty : (∅ : OrderedMap κ ν).get? k = none := rfl

theorem get?_eq_some : m.get? k = some x ↔ (k, x) ∈ m := by
  simp only [get?, Option.map_eq_some_iff, Keyed.find?_eq_some]
  constructor
  · rintro ⟨⟨_, _⟩, ⟨hm, rfl⟩, rfl⟩
    exact hm
  · intro h
    exact ⟨(k, x), ⟨h, rfl⟩, rfl⟩

theorem get?_eq_none : m.get? k = none ↔ m.find? k = none := by
  simp [get?]

theorem ext_get? (h : ∀ k, m.get? k = n.get? k) : m = n :=
  Keyed.ext_mem fun ⟨k, x⟩ => by rw [← get?_eq_some, ← get?_eq_some, h]

theorem get?_set : (m.set k x).get? k' = if k' = k then some x else m.get? k' := by
  simp only [get?, set, Keyed.find?_assign]
  split_ifs <;> rfl

theorem get?_erase : (m.erase k).get? k' = if k' = k then none else m.get? k' := by
  simp only [get?, erase, Keyed.find?_erase]
  split_ifs <;> rfl

theorem sum_set_entries (f : κ × ν → Int) : Keyed.sum (m.set k x) f =
    Keyed.sum m f + f (k, x) - ((m.get? k).map fun y => f (k, y)).getD 0 := by
  have h := Keyed.sum_assign (s := m) (a := (k, x)) (f := f)
  cases hm : m.get? k with
  | none =>
    rw [get?_eq_none.mp hm] at h
    simp only [set, Option.map_none, Option.getD_none] at h ⊢
    omega
  | some y =>
    have hfind : m.find? k = some (k, y) := Keyed.find?_eq_some.mpr ⟨get?_eq_some.mp hm, rfl⟩
    rw [hfind] at h
    simp only [set, Option.map_some, Option.getD_some] at h ⊢
    omega

theorem sum_erase_entries (f : κ × ν → Int) : Keyed.sum (m.erase k) f =
    Keyed.sum m f - ((m.get? k).map fun y => f (k, y)).getD 0 := by
  cases hm : m.get? k with
  | none =>
    rw [erase, Keyed.erase_of_find?_eq_none (get?_eq_none.mp hm)]
    simp
  | some y =>
    have h : f (k, y) + Keyed.sum (m.erase k) f = Keyed.sum m f :=
      Keyed.sum_erase (get?_eq_some.mp hm)
    rw [Option.map_some, Option.getD_some]
    omega

theorem sum_set (g : ν → Int) : Keyed.sum (m.set k x) (fun e => g e.2) =
    Keyed.sum m (fun e => g e.2) + g x - ((m.get? k).map g).getD 0 :=
  sum_set_entries fun e => g e.2

end OrderedMap

end Library
