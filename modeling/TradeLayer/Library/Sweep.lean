import TradeLayer.Library.Keyed

namespace Library.OrderedMap

universe u v w x

variable {κ : Type u} {ν : Type v} {μ : Type w} {σ : Type x} [LinearOrder κ]
variable {m : OrderedMap κ ν} {k : κ} {a : ν}

/-- Applies a function to the values. -/
def mapValues (f : ν → μ) (m : OrderedMap κ ν) : OrderedMap κ μ :=
  ⟨m.toList.map fun e => (e.1, f e.2), List.pairwise_map.mpr m.sorted⟩

theorem get?_mapValues {f : ν → μ} : (m.mapValues f).get? k = (m.get? k).map f := by
  ext y
  rw [get?_eq_some, Option.map_eq_some_iff]
  constructor
  · intro h
    obtain ⟨⟨k', x⟩, he, heq⟩ := List.mem_map.mp h
    cases heq
    exact ⟨x, get?_eq_some.mpr he, rfl⟩
  · rintro ⟨x, hx, rfl⟩
    exact List.mem_map.mpr ⟨(k, x), get?_eq_some.mp hx, rfl⟩

theorem mapValues_set {f : ν → μ} : (m.set k a).mapValues f = (m.mapValues f).set k (f a) := by
  refine ext_get? fun k' => ?_
  simp only [get?_mapValues, get?_set]
  split_ifs <;> rfl

theorem mapValues_foldl_set {f : ν → μ} {es : List (κ × ν)} :
    (es.foldl (fun m e => m.set e.1 e.2) m).mapValues f =
      es.foldl (fun m e => m.set e.1 (f e.2)) (m.mapValues f) := by
  induction es generalizing m with
  | nil => rfl
  | cons e es ih => rw [List.foldl_cons, ih, mapValues_set, List.foldl_cons]

theorem get?_filter {p : κ × ν → Bool} :
    get? (Keyed.filter m p) k = (m.get? k).filter fun x => p (k, x) := by
  ext x
  rw [get?_eq_some, Keyed.mem_filter, ← get?_eq_some, Option.filter_eq_some_iff]

variable {read : σ → ν → σ} {hit : σ → Bool} {wanted : κ → Bool} {es : List (κ × ν)} {st : σ}
variable {n : Nat}

/-- Goes through entries with a state that is read from their values, deletes those that the state
hits and counts them. -/
def sweep (read : σ → ν → σ) (hit : σ → Bool) : List (κ × ν) → σ → Nat → OrderedMap κ ν →
    Nat × OrderedMap κ ν
  | [], _, n, m => (n, m)
  | e :: es, st, n, m =>
    if hit (read st e.2) then sweep read hit es (read st e.2) (n + 1) (m.erase e.1)
    else sweep read hit es (read st e.2) n m

def Agrees (read : σ → ν → σ) (hit : σ → Bool) (wanted : κ → Bool) : σ → List (κ × ν) → Prop
  | _, [] => True
  | st, e :: es => hit (read st e.2) = wanted e.1 ∧ Agrees read hit wanted (read st e.2) es

theorem get?_sweep_of_not_mem (h : k ∉ es.map Prod.fst) :
    (sweep read hit es st n m).2.get? k = m.get? k := by
  induction es generalizing st n m with
  | nil => rfl
  | cons e es ih =>
    rw [List.map_cons, List.mem_cons, not_or] at h
    rw [sweep]
    split_ifs
    · rw [ih h.2, get?_erase, if_neg h.1]
    · exact ih h.2

theorem get?_sweep_iff (hnodup : (es.map Prod.fst).Nodup)
    (hmem : ∀ e ∈ es, m.get? e.1 = some e.2) :
    (∀ e ∈ es, (sweep read hit es st n m).2.get? e.1 = if wanted e.1 then none else some e.2) ↔
      Agrees read hit wanted st es := by
  induction es generalizing st n m with
  | nil => simp [Agrees]
  | cons e es ih =>
    obtain ⟨hnew, hnodup⟩ := List.nodup_cons.mp hnodup
    obtain ⟨hfirst, hmem⟩ := List.forall_mem_cons.mp hmem
    rw [List.forall_mem_cons, Agrees, sweep]
    cases hhit : hit (read st e.2) with
    | true =>
      have hrest : ∀ e' ∈ es, (m.erase e.1).get? e'.1 = some e'.2 := by
        intro e' he'
        have hne : e'.1 ≠ e.1 := fun heq => hnew (heq ▸ List.mem_map_of_mem he')
        rw [get?_erase, if_neg hne, hmem e' he']
      rw [if_pos rfl, ih hnodup hrest, get?_sweep_of_not_mem hnew, get?_erase, if_pos rfl]
      cases wanted e.1 <;> simp
    | false =>
      rw [if_neg (by decide), ih hnodup hmem, get?_sweep_of_not_mem hnew, hfirst]
      cases wanted e.1 <;> simp

theorem count_sweep (h : Agrees read hit wanted st es) :
    (sweep read hit es st n m).1 = n + (es.filter fun e => wanted e.1).length := by
  induction es generalizing st n m with
  | nil => rfl
  | cons e es ih =>
    obtain ⟨hfirst, h⟩ := h
    rw [sweep, hfirst]
    split_ifs with hwanted
    · rw [ih h, List.filter_cons, if_pos hwanted, List.length_cons]
      omega
    · rw [ih h, List.filter_cons, if_neg hwanted]

omit [LinearOrder κ] in
theorem agrees_of_forall (f : ν → σ) (hread : ∀ st x, read st x = f x) :
    Agrees read hit wanted st es ↔ ∀ e ∈ es, hit (f e.2) = wanted e.1 := by
  induction es generalizing st with
  | nil => simp [Agrees]
  | cons e es ih => rw [Agrees, List.forall_mem_cons, hread, ih]

theorem map_sweep_iff : (sweep read hit m.toList st 0 m).2 = Keyed.filter m (fun e => !wanted e.1) ↔
    Agrees read hit wanted st m.toList := by
  have hnodup : (m.toList.map Prod.fst).Nodup := by
    rw [List.nodup_iff_pairwise_ne, List.pairwise_map]
    exact m.sorted.imp fun hlt => hlt.ne
  have hmem : ∀ e ∈ m.toList, m.get? e.1 = some e.2 := fun e he => get?_eq_some.mpr he
  rw [← get?_sweep_iff hnodup hmem]
  constructor
  · intro hrest e he
    rw [hrest, get?_filter, hmem e he]
    cases hwanted : wanted e.1 <;> simp [hwanted]
  · intro h
    refine ext_get? fun k => ?_
    rw [get?_filter]
    cases hk : m.get? k with
    | none =>
      rw [get?_sweep_of_not_mem, hk]
      · rfl
      · intro hin
        obtain ⟨e, he, rfl⟩ := List.mem_map.mp hin
        rw [hmem e he] at hk
        cases hk
    | some x =>
      rw [h (k, x) (get?_eq_some.mp hk)]
      cases hwanted : wanted k <;> simp [hwanted, Option.filter]

theorem sweep_eq_iff : sweep read hit m.toList st 0 m =
    ((m.toList.filter fun e => wanted e.1).length, Keyed.filter m fun e => !wanted e.1) ↔
      Agrees read hit wanted st m.toList := by
  rw [Prod.ext_iff, map_sweep_iff]
  exact and_iff_right_of_imp fun h => (count_sweep h).trans (Nat.zero_add _)

end Library.OrderedMap
