import Mathlib.Data.Set.Insert
import TradeLayer.Library.Keyed

namespace Library

universe u v w x

/-- Elements filed under a key and, below it, under a second key, where they are ordered by
position. -/
abbrev Book (π : Type u) (ρ : Type v) [LinearOrder π] [LinearOrder ρ] {α : Type w} {κ : Type x}
    [LinearOrder κ] (pos : α → κ) :=
  OrderedMap π (OrderedMap ρ (Keyed pos))

namespace Book

variable {π : Type u} {ρ : Type v} [LinearOrder π] [LinearOrder ρ] {α : Type w} {κ : Type x}
variable [LinearOrder κ] {pos : α → κ} {b : Book π ρ pos} {p p' : π} {r r' : ρ} {a a' : α}
variable {l : Keyed pos} {f : α → Int}

def level (b : Book π ρ pos) (p : π) (r : ρ) : Keyed pos :=
  ((b.get? p).bind fun m => m.get? r).getD ∅

def setLevel (b : Book π ρ pos) (p : π) (r : ρ) (l : Keyed pos) : Book π ρ pos :=
  b.set p (OrderedMap.set ((b.get? p).getD ∅) r l)

theorem level_setLevel : level (setLevel b p r l) p' r' =
    if p' = p ∧ r' = r then l else level b p' r' := by
  simp only [level, setLevel, OrderedMap.get?_set]
  by_cases hp : p' = p
  · subst hp
    by_cases hr : r' = r
    · simp [hr, OrderedMap.get?_set]
    · cases b.get? p' <;> simp [hr, OrderedMap.get?_set]
  · simp [hp]

def entries (b : Book π ρ pos) : List (π × ρ × α) :=
  b.toList.flatMap fun e => e.2.toList.flatMap fun e' => e'.2.toList.map fun a => (e.1, e'.1, a)

theorem mem_entries : (p, r, a) ∈ entries b ↔ a ∈ level b p r := by
  simp only [entries, List.mem_flatMap, List.mem_map, Prod.mk.injEq, Prod.exists]
  constructor
  · rintro ⟨p, m, hm, r, s, hs, a, ha, rfl, rfl, rfl⟩
    have hm' : b.get? p = some m := OrderedMap.get?_eq_some.mpr hm
    have hs' : m.get? r = some s := OrderedMap.get?_eq_some.mpr hs
    simpa only [level, hm', hs', Option.bind_some, Option.getD_some, Keyed.mem_def] using ha
  · intro ha
    rw [level] at ha
    cases hm : b.get? p with
    | none => simp [hm] at ha
    | some m =>
      cases hs : m.get? r with
      | none => simp [hm, hs] at ha
      | some s =>
        simp only [hm, hs, Option.bind_some, Option.getD_some] at ha
        exact ⟨p, m, OrderedMap.get?_eq_some.mp hm, r, s, OrderedMap.get?_eq_some.mp hs, a, ha,
          rfl, rfl, rfl⟩

theorem entries_nodup (b : Book π ρ pos) : (entries b).Nodup := by
  refine List.nodup_flatMap.mpr ⟨fun e _ => List.nodup_flatMap.mpr ⟨fun e' _ => ?_, ?_⟩, ?_⟩
  · refine (Keyed.nodup e'.2).map fun x y h => ?_
    cases h
    rfl
  · refine e.2.sorted.imp fun {x y} hxy => ?_
    simp only [List.Disjoint, Function.onFun, List.mem_map]
    rintro _ ⟨_, -, rfl⟩ ⟨_, -, h⟩
    exact hxy.ne' (congrArg (fun t => t.2.1) h)
  · refine b.sorted.imp fun {x y} hxy => ?_
    simp only [List.Disjoint, Function.onFun, List.mem_flatMap, List.mem_map]
    rintro _ ⟨_, -, _, -, rfl⟩ ⟨_, -, _, -, h⟩
    exact hxy.ne' (congrArg (fun t => t.1) h)

def total (b : Book π ρ pos) (f : α → Int) : Int :=
  b.sum fun e => e.2.sum fun e' => e'.2.sum f

@[simp] theorem total_empty : total (∅ : Book π ρ pos) f = 0 := rfl

theorem total_eq_sum_entries : total b f = ((entries b).map fun e => f e.2.2).sum := by
  simp only [total, Keyed.sum, entries, List.flatMap_def, List.map_flatten, List.sum_flatten,
    List.map_map, Function.comp_def]

theorem total_setLevel : total (setLevel b p r l) f =
    total b f + l.sum f - (level b p r).sum f := by
  have hm : ∀ m : OrderedMap ρ (Keyed pos), Keyed.sum (m.set r l) (fun e => e.2.sum f) =
      Keyed.sum m (fun e => e.2.sum f) + l.sum f - ((m.get? r).getD ∅).sum f := by
    intro m
    rw [OrderedMap.sum_set fun x : Keyed pos => x.sum f]
    cases m.get? r <;> simp
  have hb := OrderedMap.sum_set (m := b) (k := p) (x := ((b.get? p).getD ∅).set r l)
    fun m => Keyed.sum m fun e => e.2.sum f
  rw [hm] at hb
  rw [total, setLevel, hb, total, level]
  cases b.get? p <;> simp
  ring

def remove (b : Book π ρ pos) (p : π) (r : ρ) (k : κ) : Book π ρ pos :=
  setLevel b p r ((level b p r).erase k)

theorem mem_level_remove {k : κ} : a ∈ level (remove b p r k) p' r' ↔
    a ∈ level b p' r' ∧ ¬ (p' = p ∧ r' = r ∧ pos a = k) := by
  rw [remove, level_setLevel]
  split_ifs with h
  · obtain ⟨rfl, rfl⟩ := h
    simp [Keyed.mem_erase]
  · tauto

theorem total_remove (h : a ∈ level b p r) :
    total (remove b p r (pos a)) f = total b f - f a := by
  rw [remove, total_setLevel, ← Keyed.sum_erase h]
  ring

/-- Puts an element into a level that holds none at its position. -/
def file (b : Book π ρ pos) (p : π) (r : ρ) (a : α) : Book π ρ pos :=
  setLevel b p r ((level b p r).insert a)

theorem mem_level_file (h : (level b p r).find? (pos a) = none) :
    a' ∈ level (file b p r a) p' r' ↔ a' ∈ level b p' r' ∨ p' = p ∧ r' = r ∧ a' = a := by
  rw [file, level_setLevel]
  split_ifs with hk
  · obtain ⟨rfl, rfl⟩ := hk
    simp [Keyed.mem_insert, h]
  · tauto

theorem total_file (h : (level b p r).find? (pos a) = none) :
    total (file b p r a) f = total b f + f a := by
  rw [file, total_setLevel, Keyed.sum_insert h]
  ring

def positions (b : Book π ρ pos) : Set κ :=
  {k | ∃ p r, ∃ a ∈ level b p r, pos a = k}

@[simp] theorem positions_empty : positions (∅ : Book π ρ pos) = ∅ := by
  ext k
  simp [positions, level]

theorem positions_remove {k : κ} : positions (remove b p r k) ⊆ positions b := by
  rintro _ ⟨p', r', a', ha', rfl⟩
  exact ⟨p', r', a', (mem_level_remove.mp ha').1, rfl⟩

theorem positions_file {K : Set κ} (ha : pos a ∈ K) (hb : positions b ⊆ K) :
    positions (file b p r a) ⊆ K := by
  rintro _ ⟨p', r', a', ha', rfl⟩
  rw [file, level_setLevel] at ha'
  split_ifs at ha' with hk
  · rcases Keyed.mem_insert.mp ha' with ha' | ⟨rfl, -⟩
    · exact hb ⟨p, r, a', ha', rfl⟩
    · exact ha
  · exact hb ⟨p', r', a', ha', rfl⟩

section Filing

variable {e : π × ρ × α} {es done rest : List (π × ρ × α)}

def fileAll (b : Book π ρ pos) (es : List (π × ρ × α)) : Book π ρ pos :=
  es.foldl (fun b e => file b e.1 e.2.1 e.2.2) b

def Apart (pos : α → κ) (es : List (π × ρ × α)) : Prop :=
  es.Pairwise fun e e' => ¬ (e.1 = e'.1 ∧ e.2.1 = e'.2.1 ∧ pos e.2.2 = pos e'.2.2)

theorem mem_level_fileAll (h : Apart pos es) :
    a ∈ level (fileAll (∅ : Book π ρ pos) es) p r ↔ (p, r, a) ∈ es := by
  induction es using List.reverseRecOn generalizing p r a with
  | nil => simp [fileAll, level]
  | append_singleton es e ih =>
    obtain ⟨hes, -, hlast⟩ := List.pairwise_append.mp h
    have hfree : (level (fileAll (∅ : Book π ρ pos) es) e.1 e.2.1).find? (pos e.2.2) = none := by
      rw [Keyed.find?_eq_none]
      intro x hx hpos
      exact hlast _ ((ih hes).mp hx) e (List.mem_singleton_self e) ⟨rfl, rfl, hpos⟩
    rw [fileAll, List.foldl_concat, ← fileAll, mem_level_file hfree, ih hes, List.mem_append,
      List.mem_singleton]
    refine or_congr_right ⟨?_, ?_⟩
    · rintro ⟨rfl, rfl, rfl⟩
      rfl
    · rintro rfl
      exact ⟨rfl, rfl, rfl⟩

theorem find?_fileAll (h : Apart pos (done ++ e :: rest)) :
    (level (fileAll (∅ : Book π ρ pos) done) e.1 e.2.1).find? (pos e.2.2) = none := by
  obtain ⟨hdone, -, hnext⟩ := List.pairwise_append.mp h
  rw [Keyed.find?_eq_none]
  intro x hx hpos
  exact hnext _ ((mem_level_fileAll hdone).mp hx) e List.mem_cons_self ⟨rfl, rfl, hpos⟩

theorem apart_entries (b : Book π ρ pos) : Apart pos (entries b) := by
  refine (entries_nodup b).pairwise_of_forall_ne ?_
  rintro ⟨p, r, a⟩ ha ⟨p', r', a'⟩ ha' hne ⟨rfl, rfl, hpos⟩
  exact hne (by rw [Keyed.eq_of_key_eq (mem_entries.mp ha) (mem_entries.mp ha') hpos])

theorem level_fileAll_entries : level (fileAll (∅ : Book π ρ pos) (entries b)) p r =
    level b p r := by
  refine Keyed.ext_mem fun a => ?_
  rw [mem_level_fileAll (apart_entries b), mem_entries]

end Filing

end Book

theorem fresh_of_cons {α : Type u} {κ : Type v} {place : α → Option κ} {a : α} {as : List α}
    {used : Set κ} (hnodup : ((a :: as).filterMap place).Nodup)
    (hnew : ∀ k ∈ (a :: as).filterMap place, k ∉ used) :
    (∀ k, place a = some k → k ∉ used) ∧ (as.filterMap place).Nodup ∧
      ∀ k ∈ as.filterMap place, k ∉ {k | place a = some k} ∪ used := by
  cases ha : place a with
  | none =>
    rw [List.filterMap_cons_none ha] at hnodup hnew
    refine ⟨?_, hnodup, ?_⟩
    · intro k hk
      cases hk
    · rintro k hk (hak | hused)
      · cases hak
      · exact hnew k hk hused
  | some j =>
    rw [List.filterMap_cons_some ha] at hnodup hnew
    obtain ⟨hj, hnodup⟩ := List.nodup_cons.mp hnodup
    obtain ⟨hjnew, hnew⟩ := List.forall_mem_cons.mp hnew
    refine ⟨?_, hnodup, ?_⟩
    · intro k hk
      cases hk
      exact hjnew
    · rintro k hk (hak | hused)
      · cases hak
        exact hj hk
      · exact hnew k hk hused

end Library
