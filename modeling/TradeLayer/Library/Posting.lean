import Mathlib.Algebra.BigOperators.Group.List.Basic
import Mathlib.Tactic

namespace Library

universe u v

structure Posting (κ : Type u) where
  account : κ
  amount : Int
  deriving DecidableEq, Repr

namespace Posting

variable {κ : Type u} {P Q : κ → Prop} [DecidablePred P] [DecidablePred Q]
variable {x : Posting κ} {ps qs : List (Posting κ)} {k k' : κ} {n : Int}

def net (P : κ → Prop) [DecidablePred P] (ps : List (Posting κ)) : Int :=
  (ps.map fun x => if P x.account then x.amount else 0).sum

@[simp] theorem net_nil : net P [] = 0 := rfl

@[simp] theorem net_cons :
    net P (x :: ps) = (if P x.account then x.amount else 0) + net P ps := by
  simp [net]

@[simp] theorem net_append : net P (ps ++ qs) = net P ps + net P qs := by
  simp [net]

theorem net_eq_zero (h : ∀ x ∈ ps, ¬ P x.account) : net P ps = 0 := by
  induction ps with
  | nil => rfl
  | cons x ps ih =>
    rw [net_cons, if_neg (h x List.mem_cons_self), ih fun y hy => h y (List.mem_cons_of_mem _ hy),
      zero_add]

theorem net_nonneg (h : ∀ x ∈ ps, P x.account → 0 ≤ x.amount) : 0 ≤ net P ps := by
  induction ps with
  | nil => exact le_refl 0
  | cons x ps ih =>
    rw [net_cons]
    have hx := h x List.mem_cons_self
    have hps := ih fun y hy => h y (List.mem_cons_of_mem _ hy)
    split_ifs with hP
    · exact add_nonneg (hx hP) hps
    · simpa using hps

section Totals

variable [DecidableEq κ]

theorem net_eq_sum {S : Finset κ} (h : ∀ x ∈ ps, x.account ∈ S) :
    net P ps = ∑ k ∈ S with P k, net (· = k) ps := by
  induction ps with
  | nil => simp
  | cons x ps ih =>
    obtain ⟨hx, hps⟩ := List.forall_mem_cons.mp h
    simp only [net_cons, Finset.sum_add_distrib, ← ih hps]
    congr 1
    by_cases hP : P x.account
    · rw [if_pos hP, Finset.sum_ite_eq, if_pos (Finset.mem_filter.mpr ⟨hx, hP⟩)]
    · rw [if_neg hP, Finset.sum_ite_eq, if_neg fun hmem => hP (Finset.mem_filter.mp hmem).2]

theorem net_congr (h : ∀ k, P k → net (· = k) ps = net (· = k) qs) : net P ps = net P qs := by
  have hps : ∀ x ∈ ps, x.account ∈ ((ps ++ qs).map account).toFinset := by
    intro x hx
    exact List.mem_toFinset.mpr (List.mem_map_of_mem (List.mem_append_left _ hx))
  have hqs : ∀ x ∈ qs, x.account ∈ ((ps ++ qs).map account).toFinset := by
    intro x hx
    exact List.mem_toFinset.mpr (List.mem_map_of_mem (List.mem_append_right _ hx))
  rw [net_eq_sum hps, net_eq_sum hqs]
  apply Finset.sum_congr rfl
  intro k hk
  exact h k (Finset.mem_filter.mp hk).2

end Totals

section FlatMap

variable {α : Type v} {as : List α} {a : α} {f : α → List (Posting κ)}

theorem net_flatMap_eq_zero (h : ∀ b ∈ as, net P (f b) = 0) : net P (as.flatMap f) = 0 := by
  induction as with
  | nil => rfl
  | cons b as ih =>
    obtain ⟨hb, has⟩ := List.forall_mem_cons.mp h
    rw [List.flatMap_cons, net_append, hb, ih has, add_zero]

theorem net_flatMap_of_mem (hnodup : as.Nodup) (ha : a ∈ as)
    (h : ∀ b ∈ as, b ≠ a → net P (f b) = 0) : net P (as.flatMap f) = net P (f a) := by
  induction as with
  | nil => cases ha
  | cons b as ih =>
    obtain ⟨hb, hnodup⟩ := List.nodup_cons.mp hnodup
    obtain ⟨hfirst, hrest⟩ := List.forall_mem_cons.mp h
    rw [List.flatMap_cons, net_append]
    cases ha with
    | head =>
      have hzero : net P (as.flatMap f) = 0 := by
        apply net_flatMap_eq_zero
        intro c hc
        apply hrest c hc
        rintro rfl
        exact hb hc
      rw [hzero, add_zero]
    | tail _ ha =>
      have hne : b ≠ a := by
        rintro rfl
        exact hb ha
      rw [hfirst hne, ih hnodup ha hrest, zero_add]

end FlatMap

def transfer (k k' : κ) (n : Int) : List (Posting κ) := [⟨k, -n⟩, ⟨k', n⟩]

theorem net_transfer_eq : net P (transfer k k' n) =
    (if P k' then n else 0) - if P k then n else 0 := by
  rw [transfer, net_cons, net_cons, net_nil]
  dsimp only
  split_ifs <;> omega

theorem net_transfer (h : P k ↔ P k') : net P (transfer k k' n) = 0 := by
  by_cases hk : P k <;> simp [transfer, h.mp, hk, h.not.mp]

end Posting

end Library
