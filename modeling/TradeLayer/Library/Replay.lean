import Mathlib.Data.List.Sort
import Mathlib.Tactic

namespace Library

universe u v w

variable {σ : Type u} {ι : Type v} {κ : Type w}

/-- Events that act on a state key by key: `same k` compares two states as far as the key `k`
is concerned, and an event only matters to its own key. -/
structure LocalAction (key : ι → κ) (act : σ → ι → σ) (same : κ → σ → σ → Prop) : Prop where
  congr : ∀ {k s t} e, same k s t → same k (act s e) (act t e)
  frame : ∀ {k s t e}, key e ≠ k → same k s t → same k (act s e) t

theorem LocalAction.foldl_filter [DecidableEq κ] {key : ι → κ} {act : σ → ι → σ}
    {same : κ → σ → σ → Prop} (h : LocalAction key act same) {k : κ} {s t : σ} {l : List ι}
    (hs : same k s t) :
    same k (l.foldl act s) ((l.filter fun e => key e = k).foldl act t) := by
  induction l generalizing s t with
  | nil => exact hs
  | cons e l ih =>
    by_cases he : key e = k
    · rw [List.filter_cons_of_pos (by simpa using he)]
      exact ih (h.congr e hs)
    · rw [List.filter_cons_of_neg (by simpa using he)]
      exact ih (h.frame he hs)

variable [LinearOrder κ] {rank : ι → κ}

theorem filter_insertionSort {l : List ι} {p : ι → Bool}
    (h : (l.filter p).Pairwise fun a b => rank a < rank b) :
    (l.insertionSort fun a b => rank a ≤ rank b).filter p = l.filter p := by
  have htotal : Std.Total fun a b : ι => rank a ≤ rank b := ⟨fun a b => le_total _ _⟩
  have htrans : IsTrans ι fun a b => rank a ≤ rank b := ⟨fun _ _ _ => le_trans⟩
  have hperm := (List.perm_insertionSort (fun a b => rank a ≤ rank b) l).filter p
  have hnodup : ((l.filter p).map rank).Nodup := List.pairwise_map.mpr (h.imp fun h => h.ne)
  refine hperm.eq_of_pairwise ?_ ((List.pairwise_insertionSort _ l).filter p) (h.imp fun h => h.le)
  intro a b ha hb hab hba
  exact List.inj_on_of_nodup_map hnodup (hperm.mem_iff.mp ha) hb (le_antisymm hab hba)

end Library
