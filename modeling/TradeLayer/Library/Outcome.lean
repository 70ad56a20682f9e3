import Mathlib.Tactic

namespace Library

universe u v

variable {ε : Type u} {α β : Type v} {x : Except ε α} {f : α → Except ε β}

theorem bind_eq_ok {b : β} : (x >>= f) = .ok b ↔ ∃ a, x = .ok a ∧ f a = .ok b := by
  cases x with
  | error e => simp [bind, Except.bind]
  | ok a => simp [bind, Except.bind]

theorem bind_eq_error {e : ε} :
    (x >>= f) = .error e ↔ x = .error e ∨ ∃ a, x = .ok a ∧ f a = .error e := by
  cases x with
  | error e => simp [bind, Except.bind]
  | ok a => simp [bind, Except.bind]

@[simp] theorem ok_bind {a : α} : ((Except.ok a : Except ε α) >>= f) = f a := rfl

@[simp] theorem error_bind {e : ε} : ((Except.error e : Except ε α) >>= f) = .error e := rfl

@[simp] theorem pure_eq_ok {a : α} : (pure a : Except ε α) = .ok a := rfl

theorem exists_ok (h : x.toBool = true) : ∃ a, x = .ok a := by
  cases x with
  | error e => cases h
  | ok a => exact ⟨a, rfl⟩

theorem exists_ok_of_map {g : α → β} {b : β} (h : x.map g = .ok b) : ∃ a, x = .ok a ∧ g a = b := by
  cases x with
  | error e => cases h
  | ok a =>
    cases h
    exact ⟨a, rfl, rfl⟩

def failure : Except ε α → Option ε
  | .ok _ => none
  | .error e => some e

theorem eq_error_of_failure {e : ε} (h : failure x = some e) : x = .error e := by
  cases x with
  | error e' => rw [Option.some.inj h]
  | ok a => cases h

/-- A computation that, if it fails, fails outside a class of errors. -/
def Avoids (E : ε → Prop) (x : Except ε α) : Prop :=
  ∀ e, x = .error e → ¬ E e

namespace Avoids

variable {E : ε → Prop}

theorem ok {a : α} : Avoids E (.ok a) := nofun

theorem error {e : ε} (h : ¬ E e) : Avoids E (.error e : Except ε α) := by
  rintro _ ⟨⟩
  exact h

theorem bind (hx : Avoids E x) (hf : ∀ a, x = .ok a → Avoids E (f a)) : Avoids E (x >>= f) := by
  intro e he
  rcases bind_eq_error.mp he with he | ⟨a, ha, he⟩
  · exact hx e he
  · exact hf a ha e he

theorem map {g : α → β} (hx : Avoids E x) : Avoids E (x.map g) := by
  intro e he
  cases x with
  | error e' =>
    cases he
    exact hx _ rfl
  | ok a => cases he

theorem ite {P : Prop} [Decidable P] {y : Except ε α} (hx : P → Avoids E x)
    (hy : ¬ P → Avoids E y) : Avoids E (if P then x else y) := by
  split_ifs with h
  · exact hx h
  · exact hy h

theorem foldlM {σ : Type v} {ι : Type u} {step : σ → ι → Except ε σ} {s : σ} {ops : List ι}
    (h : ∀ s, ∀ op ∈ ops, Avoids E (step s op)) : Avoids E (ops.foldlM step s) := by
  induction ops generalizing s with
  | nil => exact .ok
  | cons op ops ih =>
    rw [List.foldlM_cons]
    apply Avoids.bind (h s op List.mem_cons_self)
    intro t _
    exact ih fun s op hop => h s op (List.mem_cons_of_mem _ hop)

end Avoids

theorem forall_split_cons {ι : Type u} {P : List ι → ι → Prop} {i : ι} {ops : List ι} :
    (∀ done op rest, i :: ops = done ++ op :: rest → P done op) ↔
      P [] i ∧ ∀ done op rest, ops = done ++ op :: rest → P (i :: done) op := by
  constructor
  · intro h
    refine ⟨h [] i ops rfl, ?_⟩
    rintro done op rest rfl
    exact h (i :: done) op rest rfl
  · rintro ⟨hfirst, hrest⟩ done op rest heq
    cases done with
    | nil =>
      cases heq
      exact hfirst
    | cons j done =>
      cases heq
      exact hrest done op rest rfl

section Runs

variable {σ : Type v} {ι : Type u} {step : σ → ι → Except ε σ} {s s' : σ} {ops : List ι}

theorem foldlM_invariant {P : σ → Prop} (h : ops.foldlM step s = .ok s') (hs : P s)
    (hstep : ∀ s s' op, op ∈ ops → P s → step s op = .ok s' → P s') : P s' := by
  induction ops generalizing s with
  | nil =>
    cases h
    exact hs
  | cons op ops ih =>
    rw [List.foldlM_cons, bind_eq_ok] at h
    obtain ⟨t, ht, h⟩ := h
    exact ih h (hstep _ _ _ List.mem_cons_self hs ht)
      fun s s' op hop => hstep s s' op (List.mem_cons_of_mem _ hop)

end Runs

end Library
