import TradeLayer.GhostShorts

namespace TradeLayer
open Library

section Longs

variable {i : Nat} {long : LivesEdge} {longs : List LivesEdge} {q : Nat × List LivesEdge}
variable {total : Int}

def CoversLongs (longs : List LivesEdge) (total : Int) : Prop :=
  ∀ k, k + 1 < longs.length →
    total ≤ totalLives (longs.take k) ∨ totalLives (longs.take (k + 1)) ≤ total

theorem coversLongs_cons : CoversLongs (long :: longs) total ↔
    (longs ≠ [] → total ≤ 0 ∨ long.lives ≤ total) ∧ CoversLongs longs (total - long.lives) := by
  constructor
  · intro h
    constructor
    · intro hne
      have hlen := List.length_pos_iff.mpr hne
      have h₀ := h 0 (by simpa using hlen)
      simpa [totalLives] using h₀
    · intro k hk
      have h₁ := h (k + 1) (by simpa using hk)
      rw [List.take_succ_cons, List.take_succ_cons, totalLives_cons, totalLives_cons] at h₁
      omega
  · rintro ⟨h₀, h₁⟩ k hk
    cases k with
    | zero =>
      have hne : longs ≠ [] := by
        rintro rfl
        simp at hk
      simpa [totalLives] using h₀ hne
    | succ k =>
      have hk := h₁ k (by simpa using hk)
      rw [List.take_succ_cons, List.take_succ_cons, totalLives_cons, totalLives_cons]
      omega

theorem coversLongs_of_nonpos (hlongs : ∀ l ∈ longs, 0 < l.lives) (htotal : total ≤ 0) :
    CoversLongs longs total := by
  intro k _
  exact .inl (htotal.trans (totalLives_nonneg fun l hl => hlongs l (List.mem_of_mem_take hl)))

theorem ghostLongs_cons_cases (i : Nat) (longs : List LivesEdge) (hlong : 0 < long.lives)
    (hshorts : ∀ s ∈ q.2, 0 < s.lives) :
    ∃ written q', ghostLongs ghostMatch i (long :: longs) q =
        written ++ ghostLongs ghostMatch (i + 1) longs q' ∧
      (∀ m ∈ written, m.longIndex = i ∧ 0 < m.amount) ∧ (∀ s ∈ q'.2, 0 < s.lives) ∧
      (written.map GhostMatch.amount).sum = min long.lives (totalLives q.2) ∧
      (long.lives ≤ totalLives q.2 ∧ totalLives q'.2 = totalLives q.2 - long.lives ∧
          (∀ x, settledShort written x = livesAt q x - livesAt q' x) ∨
        totalLives q.2 < long.lives ∧ q' = q ∧ ∀ x, settledShort written x = livesAt q x) := by
  obtain ⟨written, next, heq, hmem, hsum, hcase⟩ := ghostShorts_spec i long q.1 hshorts hlong
  refine ⟨written, next.getD q, ?_, hmem, ?_⟩
  · rw [ghostLongs, heq]
  · rcases hcase with ⟨q', rfl, hle, hpos, htotal, hsettled⟩ | ⟨rfl, hlt, hsettled⟩
    · exact ⟨hpos, hsum, .inl ⟨hle, htotal, hsettled⟩⟩
    · exact ⟨hshorts, hsum, .inr ⟨hlt, rfl, hsettled⟩⟩

theorem mem_ghostLongs (hlongs : ∀ l ∈ longs, 0 < l.lives) (hshorts : ∀ s ∈ q.2, 0 < s.lives) :
    ∀ m ∈ ghostLongs ghostMatch i longs q, i ≤ m.longIndex ∧ 0 < m.amount := by
  induction longs generalizing i q with
  | nil => simp [ghostLongs]
  | cons long longs ih =>
    obtain ⟨hlong, hlongs⟩ := List.forall_mem_cons.mp hlongs
    obtain ⟨written, q', heq, hwritten, hpos, -, -⟩ :=
      ghostLongs_cons_cases i longs hlong hshorts
    rw [heq, List.forall_mem_append]
    refine ⟨fun m hm => ⟨(hwritten m hm).1.ge, (hwritten m hm).2⟩, ?_⟩
    intro m hm
    obtain ⟨hle, hamount⟩ := ih hlongs hpos m hm
    exact ⟨Nat.le_of_succ_le hle, hamount⟩

theorem exists_settledShort_ghostLongs (hlong : 0 < long.lives) (hlongs : ∀ l ∈ longs, 0 < l.lives)
    (hshorts : ∀ s ∈ q.2, 0 < s.lives) (htotal : 0 < totalLives q.2) :
    ∃ x, 0 < settledShort (ghostLongs ghostMatch i (long :: longs) q) x := by
  apply exists_settledShort_pos fun m hm =>
    (mem_ghostLongs (List.forall_mem_cons.mpr ⟨hlong, hlongs⟩) hshorts m hm).2
  obtain ⟨written, q', heq, -, -, hsum, -⟩ := ghostLongs_cons_cases i longs hlong hshorts
  rw [heq]
  intro hnil
  rw [(List.append_eq_nil_iff.mp hnil).1, List.map_nil, List.sum_nil] at hsum
  omega

theorem settledLong_cons {written rest : List GhostMatch}
    (hwritten : ∀ m ∈ written, m.longIndex = i ∧ 0 < m.amount)
    (hrest : ∀ m ∈ rest, i + 1 ≤ m.longIndex ∧ 0 < m.amount) :
    settledLong (written ++ rest) i = (written.map GhostMatch.amount).sum ∧
      ∀ k, settledLong (written ++ rest) (i + (k + 1)) = settledLong rest (i + 1 + k) := by
  constructor
  · rw [settledLong_append, settledLong_eq_sum fun m hm => (hwritten m hm).1,
      settledLong_eq_zero, add_zero]
    intro m hm
    have hle := (hrest m hm).1
    omega
  · intro k
    rw [settledLong_append, settledLong_eq_zero, zero_add, Nat.add_assoc, Nat.add_comm 1 k]
    intro m hm
    have heq := (hwritten m hm).1
    omega

theorem settledLong_le (hlongs : ∀ l ∈ longs, 0 < l.lives) (hshorts : ∀ s ∈ q.2, 0 < s.lives)
    (k : Nat) (hk : longs[k]? = some long) :
    settledLong (ghostLongs ghostMatch i longs q) (i + k) ≤ long.lives := by
  induction longs generalizing i q k with
  | nil => simp at hk
  | cons first longs ih =>
    obtain ⟨hfirst, hlongs⟩ := List.forall_mem_cons.mp hlongs
    obtain ⟨written, q', heq, hwritten, hpos, hsum, -⟩ :=
      ghostLongs_cons_cases i longs hfirst hshorts
    obtain ⟨hhead, htail⟩ := settledLong_cons hwritten (mem_ghostLongs hlongs hpos)
    rw [heq]
    cases k with
    | zero =>
      cases hk
      change settledLong _ i ≤ _
      rw [hhead, hsum]
      exact min_le_left _ _
    | succ k =>
      rw [htail]
      exact ih hlongs hpos k hk

/-- Where no long but the last runs out of shorts, each short is settled within its lives, and the
side with less is settled completely. -/
theorem settles_of_coversLongs (hlongs : ∀ l ∈ longs, 0 < l.lives)
    (hshorts : ∀ s ∈ q.2, 0 < s.lives) (hcovers : CoversLongs longs (totalLives q.2)) :
    (∀ x, settledShort (ghostLongs ghostMatch i longs q) x ≤ livesAt q x) ∧
      (totalLives longs ≤ totalLives q.2 → ∀ k long, longs[k]? = some long →
        settledLong (ghostLongs ghostMatch i longs q) (i + k) = long.lives) ∧
      (totalLives q.2 ≤ totalLives longs → ∀ x,
        settledShort (ghostLongs ghostMatch i longs q) x = livesAt q x) := by
  induction longs generalizing i q with
  | nil =>
    refine ⟨fun x => livesAt_nonneg hshorts x, by simp, ?_⟩
    intro htotal x
    rw [livesAt_of_totalLives hshorts htotal]
    rfl
  | cons first longs ih =>
    obtain ⟨hfirst, hlongs⟩ := List.forall_mem_cons.mp hlongs
    obtain ⟨written, q', heq, hwritten, hpos, hsum, hcase⟩ :=
      ghostLongs_cons_cases i longs hfirst hshorts
    obtain ⟨hhead, htail⟩ := settledLong_cons hwritten (mem_ghostLongs hlongs hpos)
    have hrest := totalLives_nonneg hlongs
    obtain ⟨hnext, hcovers⟩ := coversLongs_cons.mp hcovers
    rw [heq, totalLives_cons]
    simp only [settledShort_append]
    rcases hcase with ⟨hle, htotal, hsettled⟩ | ⟨hlt, rfl, hsettled⟩
    · rw [← htotal] at hcovers
      obtain ⟨hwithin, hlongsDone, hshortsDone⟩ := ih (i := i + 1) hlongs hpos hcovers
      refine ⟨?_, ?_, ?_⟩
      · intro x
        have hx := hwithin x
        rw [hsettled]
        omega
      · intro hall k long hk
        cases k with
        | zero =>
          cases hk
          change settledLong _ i = _
          rw [hhead, hsum, min_eq_left hle]
        | succ k =>
          rw [htail]
          exact hlongsDone (by omega) k long hk
      · intro hall x
        rw [hsettled, hshortsDone (by omega)]
        omega
    · -- the shorts have run out, and there is no long left or nothing was there at all
      have hnone : ∀ x, settledShort (ghostLongs ghostMatch (i + 1) longs q') x = 0 := by
        intro x
        by_cases hnil : longs = []
        · rw [hnil]
          rfl
        · have hzero := (hnext hnil).resolve_right (not_le.mpr hlt)
          have hall := (ih (i := i + 1) hlongs hpos (coversLongs_of_nonpos hlongs hzero)).2.2
          rw [hall (hzero.trans hrest), livesAt_of_totalLives hpos hzero]
      refine ⟨?_, ?_, ?_⟩
      · intro x
        rw [hsettled, hnone, add_zero]
      · intro hall
        omega
      · intro _ x
        rw [hsettled, hnone, add_zero]

theorem exists_oversettled (hlongs : ∀ l ∈ longs, 0 < l.lives) (hshorts : ∀ s ∈ q.2, 0 < s.lives)
    (hcovers : ¬ CoversLongs longs (totalLives q.2)) :
    ∃ x, livesAt q x < settledShort (ghostLongs ghostMatch i longs q) x := by
  induction longs generalizing i q with
  | nil => exact absurd (fun k hk => absurd hk (by simp)) hcovers
  | cons first longs ih =>
    obtain ⟨hfirst, hlongs⟩ := List.forall_mem_cons.mp hlongs
    obtain ⟨written, q', heq, hwritten, hpos, hsum, hcase⟩ :=
      ghostLongs_cons_cases i longs hfirst hshorts
    rw [coversLongs_cons] at hcovers
    rw [heq]
    simp only [settledShort_append]
    rcases hcase with ⟨hle, htotal, hsettled⟩ | ⟨hlt, rfl, hsettled⟩
    · rw [← htotal] at hcovers
      obtain ⟨x, hx⟩ := ih (i := i + 1) hlongs hpos fun h => hcovers ⟨fun _ => .inr hle, h⟩
      refine ⟨x, ?_⟩
      rw [hsettled]
      omega
    · have hrunsOut : longs ≠ [] ∧ 0 < totalLives q'.2 := by
        by_contra hnot
        apply hcovers
        refine ⟨fun hne => .inl ?_, coversLongs_of_nonpos hlongs (by omega)⟩
        exact not_lt.mp fun hlt => hnot ⟨hne, hlt⟩
      obtain ⟨second, rest, rfl⟩ := List.exists_cons_of_ne_nil hrunsOut.1
      obtain ⟨hsecond, hrest⟩ := List.forall_mem_cons.mp hlongs
      obtain ⟨x, hagain⟩ :=
        exists_settledShort_ghostLongs (i := i + 1) hsecond hrest hpos hrunsOut.2
      refine ⟨x, ?_⟩
      rw [hsettled]
      omega

end Longs

section Entries

variable {i j : Nat} {longs shorts : List LivesEdge} {q : Nat × List LivesEdge}
variable {livesShorts : List LivesEdge}

def Aligned (livesShorts : List LivesEdge) (q : Nat × List LivesEdge) : Prop :=
  ∀ k s, q.2[k]? = some s →
    ∃ short, livesShorts[q.1 + k]? = some short ∧ s = { short with lives := s.lives }

theorem aligned_cons {short : LivesEdge} : Aligned livesShorts (j, short :: shorts) ↔
      (∃ entry, livesShorts[j]? = some entry ∧ short = { entry with lives := short.lives }) ∧
        Aligned livesShorts (j + 1, shorts) := by
  constructor
  · intro h
    refine ⟨h 0 short rfl, ?_⟩
    intro k s hk
    have hnext := h (k + 1) s hk
    rw [← Nat.add_assoc, Nat.add_right_comm] at hnext
    exact hnext
  · rintro ⟨hfirst, hrest⟩ k s hk
    cases k with
    | zero =>
      cases hk
      exact hfirst
    | succ k =>
      have hnext := hrest k s hk
      rw [Nat.add_right_comm] at hnext
      exact hnext

theorem entries_of_ghostShorts (i : Nat) (long : LivesEdge)
    (n : Int) (h : Aligned livesShorts (j, shorts)) :
    (∀ m ∈ (ghostShorts (ghostMatch i long) n j shorts).1, m.longIndex = i ∧ m.long = long ∧
        ∃ short, livesShorts[m.shortIndex]? = some short ∧
          m.short = { short with lives := m.short.lives }) ∧
      ∀ q, (ghostShorts (ghostMatch i long) n j shorts).2 = some q → Aligned livesShorts q := by
  induction shorts generalizing n j with
  | nil => simp [ghostShorts]
  | cons short shorts ih =>
    obtain ⟨hfirst, hrest⟩ := aligned_cons.mp h
    rw [ghostShorts]
    split_ifs
    · obtain ⟨hmem, hnext⟩ := ih (n - short.lives) hrest
      dsimp only [ghostMatch]
      rw [List.singleton_append, List.forall_mem_cons]
      exact ⟨⟨⟨rfl, rfl, hfirst⟩, hmem⟩, hnext⟩
    · obtain ⟨entry, hentry, heq⟩ := hfirst
      refine ⟨List.forall_mem_singleton.mpr ⟨rfl, rfl, entry, hentry, heq⟩, ?_⟩
      intro q hq
      cases hq
      refine aligned_cons.mpr ⟨⟨entry, hentry, ?_⟩, hrest⟩
      rw [heq]
    · refine ⟨List.forall_mem_singleton.mpr ⟨rfl, rfl, hfirst⟩, ?_⟩
      intro q hq
      cases hq
      exact hrest

theorem entries_of_ghostLongs {livesLongs : List LivesEdge}
    (hlongs : livesLongs.drop i = longs) (h : Aligned livesShorts q) :
    ∀ m ∈ ghostLongs ghostMatch i longs q, livesLongs[m.longIndex]? = some m.long ∧
      ∃ short, livesShorts[m.shortIndex]? = some short ∧
        m.short = { short with lives := m.short.lives } := by
  induction longs generalizing i q with
  | nil => simp [ghostLongs]
  | cons long longs ih =>
    obtain ⟨j, shorts⟩ := q
    obtain ⟨hmem, hnext⟩ := entries_of_ghostShorts i long long.lives h
    rw [ghostLongs, List.forall_mem_append]
    constructor
    · intro m hm
      obtain ⟨hi, hlong, hshort⟩ := hmem m hm
      refine ⟨?_, hshort⟩
      rw [hi, hlong, ← List.head?_drop, hlongs]
      rfl
    · apply ih
      · rw [← List.tail_drop, hlongs]
        rfl
      · cases hq : (ghostShorts (ghostMatch i long) long.lives j shorts).2 with
        | none => exact h
        | some q => exact hnext q hq

end Entries

/-- Matches settle each position within its lives, and the side with less completely. -/
structure GhostSettles (longs shorts : List LivesEdge) (matched : List GhostMatch) : Prop where
  long_le : ∀ i long, longs[i]? = some long → settledLong matched i ≤ long.lives
  short_le : ∀ j short, shorts[j]? = some short → settledShort matched j ≤ short.lives
  longs_done : totalLives longs ≤ totalLives shorts →
    ∀ i long, longs[i]? = some long → settledLong matched i = long.lives
  shorts_done : totalLives shorts ≤ totalLives longs →
    ∀ j short, shorts[j]? = some short → settledShort matched j = short.lives

/-- The ghost edges are those of the matches, in pairs; and the matches settle the positions just
when no long but the last runs out of shorts. -/
theorem ghostSettles_iff {longs shorts : List LivesEdge} (exitPrice : List Char)
    (hlongs : ∀ l ∈ longs, 0 < l.lives) (hshorts : ∀ s ∈ shorts, 0 < s.lives) :
    (calculatingGhostEdges longs shorts exitPrice = (ghostMatches longs shorts).flatMap fun m =>
        ghostPair exitPrice m.long m.short m.amount) ∧
      (∀ m ∈ ghostMatches longs shorts, longs[m.longIndex]? = some m.long ∧
        ∃ short, shorts[m.shortIndex]? = some short ∧
          m.short = { short with lives := m.short.lives }) ∧
      (GhostSettles longs shorts (ghostMatches longs shorts) ↔
        CoversLongs longs (totalLives shorts)) := by
  have haligned : Aligned shorts (0, shorts) := by
    intro k s hk
    exact ⟨s, by simpa using hk, rfl⟩
  have hentries := entries_of_ghostLongs (List.drop_zero (l := longs)) haligned
  have hlives : ∀ j short, shorts[j]? = some short → livesAt (0, shorts) j = short.lives := by
    intro j short hj
    simp [livesAt, hj]
  refine ⟨ghostLongs_eq_flatMap, hentries, ?_, ?_⟩
  · intro hsettles
    by_contra hcovers
    obtain ⟨x, hx⟩ := exists_oversettled (i := 0) (q := (0, shorts)) hlongs hshorts hcovers
    cases hj : shorts[x]? with
    | some short =>
      rw [hlives x short hj] at hx
      exact absurd (hsettles.short_le x short hj) (not_le.mpr hx)
    | none =>
      have hnone : settledShort (ghostLongs ghostMatch 0 longs (0, shorts)) x = 0 := by
        apply settledShort_eq_zero
        rintro m hm rfl
        obtain ⟨-, short, hshort, -⟩ := hentries m hm
        rw [hj] at hshort
        cases hshort
      rw [hnone] at hx
      exact absurd (livesAt_nonneg hshorts x) (not_le.mpr hx)
  · intro hcovers
    obtain ⟨hwithin, hlongsDone, hshortsDone⟩ :=
      settles_of_coversLongs (i := 0) (q := (0, shorts)) hlongs hshorts hcovers
    constructor
    · intro i long hi
      have hle := settledLong_le (i := 0) (q := (0, shorts)) hlongs hshorts i hi
      rw [Nat.zero_add] at hle
      exact hle
    · intro j short hj
      rw [← hlives j short hj]
      exact hwithin j
    · intro htotal i long hi
      have heq := hlongsDone htotal i long hi
      rw [Nat.zero_add] at heq
      exact heq
    · intro htotal j short hj
      rw [← hlives j short hj]
      exact hshortsDone htotal j

def sampleLives (a : Char) (status : PositionStatus) (n : Int) : LivesEdge :=
  ⟨[a], status, n, ['7'], 0, 1⟩

/-- Two longs of two and three contracts settle shorts of four and two. -/
theorem ghostSettles_of_sampleLives :
    GhostSettles
      [sampleLives 'a' .openLongPosition 2, sampleLives 'b' .openLongPosition 3]
      [sampleLives 'c' .openShortPosition 4, sampleLives 'd' .openShortPosition 2]
      (ghostMatches [sampleLives 'a' .openLongPosition 2, sampleLives 'b' .openLongPosition 3]
        [sampleLives 'c' .openShortPosition 4, sampleLives 'd' .openShortPosition 2]) := by
  refine ((ghostSettles_iff ['8'] (by decide) (by decide)).2.2).mpr ?_
  intro k hk
  have hzero : k = 0 := by
    simp at hk
    omega
  rw [hzero]
  decide

/-- Two longs of five contracts settle a short of three twice. -/
theorem oversettled_of_sampleLives :
    settledShort (ghostMatches
        [sampleLives 'a' .openLongPosition 5, sampleLives 'b' .openLongPosition 5]
        [sampleLives 'c' .openShortPosition 3]) 0 = 6 ∧
      ¬ GhostSettles [sampleLives 'a' .openLongPosition 5, sampleLives 'b' .openLongPosition 5]
        [sampleLives 'c' .openShortPosition 3]
        (ghostMatches [sampleLives 'a' .openLongPosition 5, sampleLives 'b' .openLongPosition 5]
          [sampleLives 'c' .openShortPosition 3]) := by
  have hsix : settledShort (ghostMatches
      [sampleLives 'a' .openLongPosition 5, sampleLives 'b' .openLongPosition 5]
      [sampleLives 'c' .openShortPosition 3]) 0 = 6 := by
    decide
  refine ⟨hsix, ?_⟩
  intro hsettles
  have hle := hsettles.short_le 0 _ rfl
  rw [hsix] at hle
  exact absurd hle (by decide)

end TradeLayer
