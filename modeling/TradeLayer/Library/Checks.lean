import TradeLayer.Library.Outcome

namespace Library

universe u v

/-- A check of a computation. The error that a fatal check raises is of a class of errors, and the
error that another one raises is not. -/
inductive Check where
  | fatal (P : Prop)
  | other (P : Prop)

def Check.Holds : Check → Prop
  | fatal P => P
  | other P => P

def Check.IsFatal : Check → Prop
  | fatal _ => True
  | other _ => False

variable {ε : Type u} {α β : Type v} {E : ε → Prop} {Q : α → Prop} {P P' : Prop}
variable {c : Check} {cs ds : List Check} {x : Except ε α} {f : α → Except ε β}

/-- A computation that makes checks one after the other: it fails at the first one that does not
hold, and returns a result of a kind if there is none. -/
def Follows (E : ε → Prop) (Q : α → Prop) : List Check → Except ε α → Prop
  | [], x => ∃ a, x = .ok a ∧ Q a
  | c :: cs, x => (c.Holds → Follows E Q cs x) ∧
      (¬ c.Holds → ∃ e, x = .error e ∧ (E e ↔ c.IsFatal))

namespace Follows

theorem fatal (h : P → Follows E Q cs x) (h' : ¬ P → ∃ e, x = .error e ∧ E e) :
    Follows E Q (.fatal P :: cs) x := by
  refine ⟨h, fun hc => ?_⟩
  obtain ⟨e, he, hfatal⟩ := h' hc
  exact ⟨e, he, iff_of_true hfatal trivial⟩

theorem other (h : P → Follows E Q cs x) (h' : ¬ P → ∃ e, x = .error e ∧ ¬ E e) :
    Follows E Q (.other P :: cs) x := by
  refine ⟨h, fun hc => ?_⟩
  obtain ⟨e, he, hother⟩ := h' hc
  exact ⟨e, he, iff_of_false hother not_false⟩

theorem fatal_and (h : Follows E Q (.fatal P :: .fatal P' :: cs) x) :
    Follows E Q (.fatal (P ∧ P') :: cs) x := by
  refine ⟨fun hc => (h.1 hc.1).1 hc.2, fun hc => ?_⟩
  by_cases hP : P
  · exact (h.1 hP).2 fun hP' => hc ⟨hP, hP'⟩
  · exact h.2 hP

theorem bind {R : β → Prop} (hx : Follows E Q cs x)
    (hf : ∀ a, x = .ok a → Q a → Follows E R ds (f a)) : Follows E R (cs ++ ds) (x >>= f) := by
  induction cs with
  | nil =>
    obtain ⟨a, rfl, ha⟩ := hx
    exact hf a rfl ha
  | cons c cs ih =>
    refine ⟨fun hc => ih (hx.1 hc), fun hc => ?_⟩
    obtain ⟨e, rfl, he⟩ := hx.2 hc
    exact ⟨e, rfl, he⟩

/-- A computation returns if and only if all its checks hold. -/
theorem ok_iff (h : Follows E Q cs x) : (∃ a, x = .ok a) ↔ ∀ c ∈ cs, c.Holds := by
  induction cs with
  | nil =>
    obtain ⟨a, ha, -⟩ := h
    exact iff_of_true ⟨a, ha⟩ (List.forall_mem_nil _)
  | cons c cs ih =>
    rw [List.forall_mem_cons]
    by_cases hc : c.Holds
    · rw [ih (h.1 hc), and_iff_right hc]
    · obtain ⟨e, rfl, -⟩ := h.2 hc
      exact iff_of_false nofun fun hall => hc hall.1

end Follows

end Library
