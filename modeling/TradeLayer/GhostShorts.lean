import TradeLayer.Clearing

namespace TradeLayer
open Library

structure LivesEdge where
  addrs : Address
  status : PositionStatus
  lives : Int
  entryPrice : List Char
  edgeRow : Int
  pathNumber : Int
  deriving DecidableEq

def ghostPair (exitPrice : List Char) (long short : LivesEdge) (amount : Int) : List Edge :=
  [buildingEdge short.addrs long.addrs short.status long.status long.entryPrice exitPrice 0
      long.edgeRow long.pathNumber amount 1,
    buildingEdge long.addrs short.addrs long.status short.status short.entryPrice exitPrice 0
      short.edgeRow short.pathNumber amount 1]

section Loops

variable {α : Type}

/-- The loop over the shorts for one long. It is given the shorts from the `j`-th on and leaves the
place at which the next long starts, or none where that place stays as it is. What is written for
each match is a parameter. -/
def ghostShorts (write : Nat → LivesEdge → Int → List α) :
    Int → Nat → List LivesEdge → List α × Option (Nat × List LivesEdge)
  | _, _, [] => ([], none)
  | amountLongs, j, short :: shorts =>
    if short.lives < amountLongs then
      let rest := ghostShorts write (amountLongs - short.lives) (j + 1) shorts
      (write j short short.lives ++ rest.1, rest.2)
    else if amountLongs < short.lives then
      (write j short amountLongs,
        some (j, { short with lives := short.lives - amountLongs } :: shorts))
    else (write j short amountLongs, some (j + 1, shorts))

def ghostLongs (write : Nat → LivesEdge → Nat → LivesEdge → Int → List α) :
    Nat → List LivesEdge → Nat × List LivesEdge → List α
  | _, [], _ => []
  | i, long :: longs, (indexStart, shorts) =>
    let first := ghostShorts (write i long) long.lives indexStart shorts
    first.1 ++ ghostLongs write (i + 1) longs (first.2.getD (indexStart, shorts))

end Loops

def calculatingGhostEdges (livesLongs livesShorts : List LivesEdge) (exitPrice : List Char) :
    List Edge :=
  ghostLongs (fun _ long _ short amount => ghostPair exitPrice long short amount) 0 livesLongs
    (0, livesShorts)

/-- A long and a short position that settle an amount of each other, with their places. -/
structure GhostMatch where
  longIndex : Nat
  long : LivesEdge
  shortIndex : Nat
  short : LivesEdge
  amount : Int
  deriving DecidableEq

def ghostMatch (i : Nat) (long : LivesEdge) (j : Nat) (short : LivesEdge) (amount : Int) :
    List GhostMatch :=
  [⟨i, long, j, short, amount⟩]

def ghostMatches (livesLongs livesShorts : List LivesEdge) : List GhostMatch :=
  ghostLongs ghostMatch 0 livesLongs (0, livesShorts)

def settledLong (matched : List GhostMatch) (i : Nat) : Int :=
  ((matched.filter fun m => m.longIndex = i).map GhostMatch.amount).sum

def settledShort (matched : List GhostMatch) (j : Nat) : Int :=
  ((matched.filter fun m => m.shortIndex = j).map GhostMatch.amount).sum

def totalLives (lives : List LivesEdge) : Int :=
  (lives.map LivesEdge.lives).sum

section Traces

variable {α : Type} {write : Nat → LivesEdge → Nat → LivesEdge → Int → List α}
variable {i j : Nat} {n : Int} {long : LivesEdge} {longs shorts : List LivesEdge}

theorem ghostShorts_eq_flatMap : ghostShorts (write i long) n j shorts =
    ((ghostShorts (ghostMatch i long) n j shorts).1.flatMap fun m =>
        write m.longIndex m.long m.shortIndex m.short m.amount,
      (ghostShorts (ghostMatch i long) n j shorts).2) := by
  induction shorts generalizing n j with
  | nil => rfl
  | cons short shorts ih =>
    rw [ghostShorts, ghostShorts]
    split_ifs
    · simp [ih, ghostMatch]
    · simp [ghostMatch]
    · simp [ghostMatch]

theorem ghostLongs_eq_flatMap {q : Nat × List LivesEdge} : ghostLongs write i longs q =
    (ghostLongs ghostMatch i longs q).flatMap fun m =>
      write m.longIndex m.long m.shortIndex m.short m.amount := by
  induction longs generalizing i q with
  | nil => rfl
  | cons long longs ih =>
    rw [ghostLongs, ghostLongs, ghostShorts_eq_flatMap]
    simp [ih]

end Traces

/-- What is live of the short position at a place, when the shorts from a place on are given. -/
def livesAt (q : Nat × List LivesEdge) (j : Nat) : Int :=
  if j < q.1 then 0 else (q.2[j - q.1]?.map LivesEdge.lives).getD 0

section Sums

variable {matched matched' : List GhostMatch} {m : GhostMatch} {i j : Nat}

theorem settledShort_append :
    settledShort (matched ++ matched') j = settledShort matched j + settledShort matched' j := by
  simp [settledShort]

theorem settledShort_ghostMatch {long short : LivesEdge} {n : Int} {x : Nat} :
    settledShort (ghostMatch i long j short n) x = if x = j then n else 0 := by
  by_cases h : x = j
  · simp [settledShort, ghostMatch, h]
  · simp [settledShort, ghostMatch, h, Ne.symm h]

theorem exists_settledShort_pos (h : ∀ m ∈ matched, 0 < m.amount) (hne : matched ≠ []) :
    ∃ j, 0 < settledShort matched j := by
  obtain ⟨m, rest, rfl⟩ := List.exists_cons_of_ne_nil hne
  refine ⟨m.shortIndex, List.sum_pos _ ?_ (by simp)⟩
  intro x hx
  obtain ⟨m', hm', rfl⟩ := List.mem_map.mp hx
  exact h m' (List.mem_of_mem_filter hm')

theorem settledShort_eq_zero (h : ∀ m ∈ matched, m.shortIndex ≠ j) :
    settledShort matched j = 0 := by
  rw [settledShort, List.filter_eq_nil_iff.mpr (by simpa using h)]
  rfl

theorem settledLong_append :
    settledLong (matched ++ matched') i = settledLong matched i + settledLong matched' i := by
  simp [settledLong]

theorem settledLong_eq_sum (h : ∀ m ∈ matched, m.longIndex = i) :
    settledLong matched i = (matched.map GhostMatch.amount).sum := by
  rw [settledLong, List.filter_eq_self.mpr (by simpa using h)]

theorem settledLong_eq_zero (h : ∀ m ∈ matched, m.longIndex ≠ i) : settledLong matched i = 0 := by
  rw [settledLong, List.filter_eq_nil_iff.mpr (by simpa using h)]
  rfl

end Sums

section Shorts

variable {i j : Nat} {n : Int} {short : LivesEdge} {shorts : List LivesEdge}
variable {q : Nat × List LivesEdge}

theorem livesAt_cons {x : Nat} : livesAt (j, short :: shorts) x =
    if x = j then short.lives else livesAt (j + 1, shorts) x := by
  rcases lt_trichotomy x j with h | rfl | h
  · simp [livesAt, h, h.ne, h.trans (Nat.lt_succ_self j)]
  · simp [livesAt]
  · have hsub : x - j = x - (j + 1) + 1 := by omega
    simp only [livesAt, hsub, not_lt.mpr h.le, not_lt.mpr (Nat.succ_le_of_lt h), h.ne', if_false,
      List.getElem?_cons_succ]

theorem livesAt_nonneg (h : ∀ s ∈ q.2, 0 < s.lives) (x : Nat) : 0 ≤ livesAt q x := by
  rw [livesAt]
  split_ifs
  · exact le_refl 0
  · cases hx : q.2[x - q.1]? with
    | none => exact le_refl 0
    | some short => exact (h short (List.mem_of_getElem? hx)).le

theorem livesAt_of_lt {x : Nat} (h : x < q.1) : livesAt q x = 0 :=
  if_pos h

theorem totalLives_cons :
    totalLives (short :: shorts) = short.lives + totalLives shorts := by
  simp [totalLives]

theorem totalLives_nonneg (h : ∀ s ∈ shorts, 0 < s.lives) : 0 ≤ totalLives shorts := by
  apply List.sum_nonneg
  intro x hx
  obtain ⟨s, hs, rfl⟩ := List.mem_map.mp hx
  exact (h s hs).le

theorem eq_nil_of_totalLives (h : ∀ s ∈ shorts, 0 < s.lives) (htotal : totalLives shorts ≤ 0) :
    shorts = [] := by
  cases shorts with
  | nil => rfl
  | cons short shorts =>
    obtain ⟨hshort, hshorts⟩ := List.forall_mem_cons.mp h
    have hnonneg := totalLives_nonneg hshorts
    rw [totalLives_cons] at htotal
    omega

theorem livesAt_of_totalLives (h : ∀ s ∈ q.2, 0 < s.lives)
    (htotal : totalLives q.2 ≤ 0) (x : Nat) : livesAt q x = 0 := by
  simp [livesAt, eq_nil_of_totalLives h htotal]

theorem ghostShorts_spec (i : Nat) (long : LivesEdge) (j : Nat)
    (hshorts : ∀ s ∈ shorts, 0 < s.lives) (hn : 0 < n) :
    ∃ written next, ghostShorts (ghostMatch i long) n j shorts = (written, next) ∧
      (∀ m ∈ written, m.longIndex = i ∧ 0 < m.amount) ∧
      (written.map GhostMatch.amount).sum = min n (totalLives shorts) ∧
      ((∃ q, next = some q ∧ n ≤ totalLives shorts ∧ (∀ s ∈ q.2, 0 < s.lives) ∧
          totalLives q.2 = totalLives shorts - n ∧
          ∀ x, settledShort written x = livesAt (j, shorts) x - livesAt q x) ∨
        next = none ∧ totalLives shorts < n ∧
          ∀ x, settledShort written x = livesAt (j, shorts) x) := by
  induction shorts generalizing n j with
  | nil => exact ⟨[], none, rfl, by simp, (min_eq_right hn.le).symm, .inr ⟨rfl, hn, fun x => by
      simp [settledShort, livesAt]⟩⟩
  | cons short shorts ih =>
    obtain ⟨hshort, hshorts⟩ := List.forall_mem_cons.mp hshorts
    have hnonneg := totalLives_nonneg hshorts
    rw [ghostShorts, totalLives_cons]
    have hfirst : ∀ x, x = j → livesAt (j + 1, shorts) x = 0 := by
      rintro x rfl
      exact livesAt_of_lt (Nat.lt_succ_self x)
    have hmin : n ≤ short.lives → n = min n (short.lives + totalLives shorts) := fun hle =>
      (min_eq_left (by omega)).symm
    split_ifs with hlt hgt
    · obtain ⟨written, next, heq, hmem, hsum, hcase⟩ :=
        ih (n := n - short.lives) (j + 1) hshorts (by omega)
      rw [heq]
      refine ⟨_, next, rfl, List.forall_mem_cons.mpr ⟨⟨rfl, hshort⟩, hmem⟩, ?_, ?_⟩
      · simp only [ghostMatch, List.singleton_append, List.map_cons, List.sum_cons, hsum]
        rw [← min_add_add_left, add_sub_cancel]
      · simp only [settledShort_append, settledShort_ghostMatch, livesAt_cons]
        rcases hcase with ⟨q, hq, hle, hpos, htotal, hsettled⟩ | ⟨hnone, hless, hsettled⟩
        · refine .inl ⟨q, hq, by omega, hpos, by omega, fun x => ?_⟩
          rw [hsettled]
          split_ifs with hx
          · rw [hfirst x hx]
            omega
          · omega
        · refine .inr ⟨hnone, by omega, fun x => ?_⟩
          rw [hsettled]
          split_ifs with hx
          · rw [hfirst x hx, add_zero]
          · rw [zero_add]
    · refine ⟨_, _, rfl, List.forall_mem_singleton.mpr ⟨rfl, hn⟩, ?_, .inl ⟨_, rfl, by omega, ?_⟩⟩
      · simpa [ghostMatch] using hmin hgt.le
      · refine ⟨List.forall_mem_cons.mpr ⟨sub_pos.mpr hgt, hshorts⟩, ?_, fun x => ?_⟩
        · rw [totalLives_cons]
          dsimp only
          omega
        · rw [settledShort_ghostMatch, livesAt_cons, livesAt_cons]
          dsimp only
          split_ifs <;> omega
    · refine ⟨_, _, rfl, List.forall_mem_singleton.mpr ⟨rfl, hn⟩, ?_, .inl ⟨_, rfl, by omega,
        hshorts, by dsimp only; omega, fun x => ?_⟩⟩
      · simpa [ghostMatch] using hmin (not_lt.mp hlt)
      · rw [settledShort_ghostMatch, livesAt_cons]
        split_ifs with hx
        · rw [hfirst x hx]
          omega
        · omega

end Shorts

end TradeLayer
