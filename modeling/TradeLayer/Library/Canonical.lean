import Mathlib.Data.List.Sort
import Mathlib.Data.List.Flatten
import TradeLayer.Library.Keyed

namespace Library

section Sorted

variable {α : Type*} [LinearOrder α] {l l' : List α}

theorem insertionSort_eq_of_perm (h : l.Perm l') :
    l.insertionSort (· ≤ ·) = l'.insertionSort (· ≤ ·) := by
  apply List.Perm.eq_of_pairwise
  · exact fun a b _ _ hab hba => le_antisymm hab hba
  · exact List.pairwise_insertionSort _ l
  · exact List.pairwise_insertionSort _ l'
  · exact ((List.perm_insertionSort _ l).trans h).trans (List.perm_insertionSort _ l').symm

theorem eq_of_ascending (hl : l.Pairwise (· < ·)) (hl' : l'.Pairwise (· < ·))
    (h : ∀ a, a ∈ l ↔ a ∈ l') : l = l' := by
  apply List.Perm.eq_of_pairwise _ hl hl'
  · exact (List.perm_ext_iff_of_nodup (hl.imp ne_of_lt) (hl'.imp ne_of_lt)).mpr h
  · exact fun a b _ _ hab hba => absurd hab hba.asymm

theorem mem_range'_sub {a b n : Nat} : n ∈ List.range' a (b - a) ↔ a ≤ n ∧ n < b := by
  rw [List.mem_range'_1]
  omega

end Sorted

section Texts

variable {α β : Type*} {l l' : List α} {f g : α → List β}

theorem flatMap_eq_flatMap_filter [DecidablePred fun a => f a ≠ []] :
    l.flatMap f = (l.filter fun a => f a ≠ []).flatMap f := by
  induction l with
  | nil => rfl
  | cons a l ih =>
    by_cases ha : f a = []
    · rw [List.flatMap_cons, ha, List.nil_append, ih, List.filter_cons_of_neg (by simpa using ha)]
    · rw [List.flatMap_cons, ih, List.filter_cons_of_pos (by simpa using ha), List.flatMap_cons]

theorem flatMap_eq_of_support [LinearOrder α] [DecidableEq β] (hl : l.Pairwise (· < ·))
    (hl' : l'.Pairwise (· < ·)) (hmem : ∀ a, a ∈ l ∧ f a ≠ [] ↔ a ∈ l' ∧ g a ≠ [])
    (heq : ∀ a ∈ l, a ∈ l' → f a = g a) : l.flatMap f = l'.flatMap g := by
  have hfilter : (l.filter fun a => f a ≠ []) = l'.filter fun a => g a ≠ [] := by
    apply eq_of_ascending (hl.filter _) (hl'.filter _)
    intro a
    simpa using hmem a
  rw [flatMap_eq_flatMap_filter, flatMap_eq_flatMap_filter (l := l'), ← hfilter]
  apply List.flatMap_congr
  intro a ha
  obtain ⟨hal, hfa⟩ := List.mem_filter.mp ha
  exact heq a hal ((hmem a).mp ⟨hal, by simpa using hfa⟩).1

theorem starts_of_flatMap_ne_nil {name : List β} {mark : β} (h : ∀ a ∈ l, f a = [] ∨
    ∃ rest, f a = name ++ mark :: rest) (hne : l.flatMap f ≠ []) :
    ∃ rest, l.flatMap f = name ++ mark :: rest := by
  induction l with
  | nil => exact absurd rfl hne
  | cons a l ih =>
    obtain ⟨ha, hl⟩ := List.forall_mem_cons.mp h
    rw [List.flatMap_cons] at hne ⊢
    rcases ha with ha | ⟨rest, ha⟩
    · rw [ha, List.nil_append] at hne ⊢
      exact ih hl hne
    · exact ⟨rest ++ l.flatMap f, by rw [ha, List.append_assoc, List.cons_append]⟩

variable [DecidableEq β] {names names' : List (List β)} {text : List β → List β} {mark : β}

theorem takeWhile_name {name rest : List β} (h : mark ∉ name) :
    (name ++ mark :: rest).takeWhile (· ≠ mark) = name := by
  rw [List.takeWhile_append_of_pos, List.takeWhile_cons_of_neg (by simp), List.append_nil]
  intro b hb
  simpa using ne_of_mem_of_not_mem hb h

theorem eq_of_flatMap_eq (mark : β)
    (h : ∀ a ∈ names, mark ∉ a ∧ ∃ rest, text a = a ++ mark :: rest)
    (h' : ∀ a ∈ names', mark ∉ a ∧ ∃ rest, text a = a ++ mark :: rest)
    (heq : names.flatMap text = names'.flatMap text) : names = names' := by
  induction names generalizing names' with
  | nil =>
    cases names' with
    | nil => rfl
    | cons b names' =>
      obtain ⟨⟨-, rest, hb⟩, -⟩ := List.forall_mem_cons.mp h'
      rw [List.flatMap_cons, hb] at heq
      simp at heq
  | cons a names ih =>
    obtain ⟨⟨ha, rest, hta⟩, hnames⟩ := List.forall_mem_cons.mp h
    cases names' with
    | nil =>
      rw [List.flatMap_cons, hta] at heq
      simp at heq
    | cons b names' =>
      obtain ⟨⟨hb, rest', htb⟩, hnames'⟩ := List.forall_mem_cons.mp h'
      rw [List.flatMap_cons, List.flatMap_cons] at heq
      have hname : a = b := by
        have hread := congrArg (List.takeWhile (· ≠ mark)) heq
        rwa [hta, htb, List.append_assoc, List.append_assoc, List.cons_append, List.cons_append,
          takeWhile_name ha, takeWhile_name hb] at hread
      rw [← hname] at heq
      rw [hname, ih hnames hnames' (List.append_cancel_left heq)]

end Texts

namespace Keyed

variable {α κ : Type*} [LinearOrder κ] {key : α → κ} {l : List α} {s : Keyed key} {a : α}

theorem mem_foldl_insert (hl : l.Pairwise fun a b => key a ≠ key b)
    (hs : ∀ b ∈ l, s.find? (key b) = none) : a ∈ l.foldl insert s ↔ a ∈ s ∨ a ∈ l := by
  induction l generalizing s with
  | nil => simp
  | cons b l ih =>
    obtain ⟨hb, hl⟩ := List.pairwise_cons.mp hl
    obtain ⟨hnew, hs⟩ := List.forall_mem_cons.mp hs
    have hrest : ∀ c ∈ l, (s.insert b).find? (key c) = none := by
      intro c hc
      rw [find?_insert, if_neg fun h => hb c hc h.1.symm, hs c hc]
    rw [List.foldl_cons, ih hl hrest, mem_insert, List.mem_cons]
    simp only [hnew, and_true, or_assoc]

theorem foldl_insert_of_perm (h : l.Perm s.toList) : l.foldl insert (∅ : Keyed key) = s := by
  apply ext_mem
  intro a
  have hkeys : l.Pairwise fun a b => key a ≠ key b :=
    h.symm.pairwise (s.sorted.imp fun hlt => hlt.ne) fun hne => hne.symm
  rw [mem_foldl_insert hkeys fun b _ => find?_empty, h.mem_iff]
  simp only [not_mem_empty, false_or]
  exact mem_def.symm

end Keyed

end Library
