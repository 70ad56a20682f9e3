import TradeLayer.ContractRows

namespace TradeLayer
open Library

namespace Holding

structure OneSided (h : Holding) : Prop where
  positive : 0 ≤ h.positive
  negative : 0 ≤ h.negative
  side : h.positive = 0 ∨ h.negative = 0

def sell (h : Holding) (n : Int) : Holding :=
  ⟨h.positive - min h.positive n, h.negative + (n - min h.positive n)⟩

def buy (h : Holding) (n : Int) : Holding :=
  ⟨h.positive + (n - min h.negative n), h.negative - min h.negative n⟩

def size (h : Holding) : Int :=
  h.positive + h.negative

variable {h : Holding} {n : Int}

theorem status_sell (hh : h.OneSided) (hn : 0 < n) : h.status (h.sell n) =
    if n < h.positive then .longPosNettedPartly
    else if n = h.positive then .longPosNetted
    else if 0 < h.positive then .openShortPosByLongPosNetted
    else if 0 < h.negative then .shortPosIncreased
    else .openShortPosition := by
  obtain ⟨hp, hq, hside⟩ := hh
  grind [status, sell]

theorem status_buy (hh : h.OneSided) (hn : 0 < n) : h.status (h.buy n) =
    if n < h.negative then .shortPosNettedPartly
    else if n = h.negative then .shortPosNetted
    else if 0 < h.negative then .openLongPosByShortPosNetted
    else if 0 < h.positive then .longPosIncreased
    else .openLongPosition := by
  obtain ⟨hp, hq, hside⟩ := hh
  grind [status, buy]

theorem status_sell_turns_iff (hh : h.OneSided) (hn : 0 < n) :
    h.status (h.sell n) = .openShortPosByLongPosNetted ↔ 0 < h.positive ∧ h.positive < n := by
  rw [status_sell hh hn]
  split_ifs
  all_goals simp only [true_iff, false_iff]
  all_goals omega

theorem status_buy_turns_iff (hh : h.OneSided) (hn : 0 < n) :
    h.status (h.buy n) = .openLongPosByShortPosNetted ↔ 0 < h.negative ∧ h.negative < n := by
  rw [status_buy hh hn]
  split_ifs
  all_goals simp only [true_iff, false_iff]
  all_goals omega

end Holding

def Changes (n before after : Int) : Prop :=
  after = before + n ∨ after = before - n

/-- Two sizes that change row by row by the amount of the row, from one pair to another. -/
def Follows (a b : Int) : List (Int × Int × Int) → Int → Int → Prop
  | [], a', b' => a = a' ∧ b = b'
  | (x, y, n) :: rows, a', b' => Changes n a x ∧ Changes n b y ∧ Follows x y rows a' b'

theorem Follows.swap {a b a' b' : Int} {rows : List (Int × Int × Int)}
    (h : Follows a b rows a' b') :
    Follows b a (rows.map fun r => (r.2.1, r.1, r.2.2)) b' a' := by
  induction rows generalizing a b with
  | nil => exact h.symm
  | cons r rows ih => exact ⟨h.2.1, h.1, ih h.2.2⟩

namespace Split

def rows (x : Split) : List SplitRow :=
  x.first :: x.second :: x.third.toList

def Positive (x : Split) : Prop :=
  ∀ r ∈ x.rows, 0 < r.nCouldBuy

/-- The rows of a split trade what the match trades and follow the two positions through it. -/
structure Consistent (x : Split) (sell buy : Holding) (n : Int) : Prop where
  sum : (x.rows.map SplitRow.nCouldBuy).sum = n
  nonneg : ∀ r ∈ x.rows, 0 ≤ r.livesSeller ∧ 0 ≤ r.livesBuyer
  follows : Follows sell.size buy.size
    (x.rows.map fun r => (r.livesSeller, r.livesBuyer, r.nCouldBuy)) (sell.sell n).size
    (buy.buy n).size

variable {sell buy : Holding} {n : Int}

theorem consistent_openShortSplit (hsell : sell.OneSided) (hbuy : buy.OneSided)
    (hpos : 0 < sell.positive) (hlt : sell.positive < n) :
    ∃ x, openShortSplit sell buy n (buy.status (buy.buy n)) = some x ∧
      x.Positive ∧ x.Consistent sell buy n := by
  rw [Holding.status_buy hbuy (hpos.trans hlt)]
  obtain ⟨-, -, hside⟩ := hsell
  obtain ⟨hp, hq, hside'⟩ := hbuy
  -- where both sides turn their positions, the larger of the two is turned last
  split_ifs
  all_goals simp only [openShortSplit, bothTurnSplit]
  all_goals try split_ifs
  all_goals refine ⟨_, rfl, ?_, ?_, ?_, ?_⟩
  all_goals simp [Positive, rows, Follows, Changes, Holding.size, Holding.sell, Holding.buy]
  all_goals omega

theorem consistent_openLongSplit (hsell : sell.OneSided) (hbuy : buy.OneSided)
    (hneg : 0 < buy.negative) (hlt : buy.negative < n) :
    ∃ x, openLongSplit sell buy n (sell.status (sell.sell n)) = some x ∧
      x.Positive ∧ x.Consistent sell buy n := by
  rw [Holding.status_sell hsell (hneg.trans hlt)]
  obtain ⟨hp, hq, hside⟩ := hsell
  obtain ⟨-, -, hside'⟩ := hbuy
  split_ifs
  all_goals simp only [openLongSplit, bothTurnSplit]
  all_goals try split_ifs
  all_goals refine ⟨_, rfl, ?_, ?_, ?_, ?_⟩
  all_goals simp [Positive, rows, Follows, Changes, Holding.size, Holding.sell, Holding.buy]
  all_goals omega

/-- The maker is long by less than the taker is short, and the match turns both positions. -/
def TurnsSmaller (sell buy : Holding) (n : Int) : Prop :=
  (0 < sell.positive ∧ sell.positive < buy.negative) ∧ buy.negative < n

theorem consistent_takerOpenLongSplit (hsell : sell.OneSided) (hbuy : buy.OneSided)
    (hneg : 0 < buy.negative) (hlt : buy.negative < n) :
    ∃ x, takerOpenLongSplit sell buy n (sell.status (sell.sell n)) = some x ∧ x.Positive ∧
      (x.Consistent sell buy n ↔
        ¬ (TurnsSmaller sell buy n ∧ buy.negative ≠ 2 * sell.positive)) := by
  have hiff := Holding.status_sell_turns_iff hsell (hneg.trans hlt)
  by_cases hturn : sell.status (sell.sell n) = .openShortPosByLongPosNetted ∧
      sell.positive < buy.negative
  · have hpos := hiff.mp hturn.1
    have hside := hsell.side
    have hside' := hbuy.side
    rw [takerOpenLongSplit, if_pos hturn]
    refine ⟨_, rfl, ?_, ?_, ?_⟩
    · simp [Positive, rows]
      omega
    · rintro ⟨hsum, -, -⟩ ⟨-, hne⟩
      simp [rows] at hsum
      omega
    · intro hgood
      have htwice : buy.negative = 2 * sell.positive := by
        by_contra hne
        exact hgood ⟨⟨⟨hpos.1, hturn.2⟩, hlt⟩, hne⟩
      constructor
      all_goals simp [rows, Follows, Changes, Holding.size, Holding.sell, Holding.buy]
      all_goals omega
  · rw [takerOpenLongSplit, if_neg hturn]
    obtain ⟨x, hx, hpositive, hcons⟩ := consistent_openLongSplit hsell hbuy hneg hlt
    refine ⟨x, hx, hpositive, fun _ => ?_, fun _ => hcons⟩
    rintro ⟨⟨⟨hpos, hless⟩, -⟩, -⟩
    exact hturn ⟨hiff.mpr ⟨hpos, hless.trans hlt⟩, hless⟩

theorem isSome_third_of_turns {x y : Split}
    (hx : openShortSplit sell buy n .openLongPosByShortPosNetted = some x)
    (hy : openLongSplit sell buy n .openShortPosByLongPosNetted = some y ∨
      takerOpenLongSplit sell buy n .openShortPosByLongPosNetted = some y) :
    x.third.isSome = y.third.isSome := by
  rw [openShortSplit, bothTurnSplit] at hx
  rw [takerOpenLongSplit, openLongSplit, bothTurnSplit] at hy
  grind

end Split

def MatchRow.numbers (r : MatchRow) : Int × Int × Int :=
  (r.livesMaker, r.livesTaker, r.nCouldBuy)

def MatchRows.numbers (m : MatchRows) : List (Int × Int × Int) :=
  [m.row1.numbers, m.row2.numbers, m.row3.numbers]

/-- Rows that trade an amount in all and in which two sizes change by what is traded, from one
pair to another. -/
structure RowsConsistent (rows : List (Int × Int × Int)) (n a b a' b' : Int) : Prop where
  sum : (rows.map fun r => r.2.2).sum = n
  nonneg : ∀ r ∈ rows, 0 ≤ r.1 ∧ 0 ≤ r.2.1
  follows : Follows a b (rows.filter fun r => 0 < r.2.2) a' b'

theorem rowsConsistent_append {rows zeros : List (Int × Int × Int)} {n a b a' b' : Int}
    (hpos : ∀ r ∈ rows, 0 < r.2.2) (hzeros : ∀ r ∈ zeros, r = (0, 0, 0)) :
    RowsConsistent (rows ++ zeros) n a b a' b' ↔ (rows.map fun r => r.2.2).sum = n ∧
      (∀ r ∈ rows, 0 ≤ r.1 ∧ 0 ≤ r.2.1) ∧ Follows a b rows a' b' := by
  have hsum : (zeros.map fun r => r.2.2).sum = 0 := by
    apply List.sum_eq_zero
    intro z hz
    obtain ⟨r, hr, rfl⟩ := List.mem_map.mp hz
    rw [hzeros r hr]
  have hfilter : (rows ++ zeros).filter (fun r => 0 < r.2.2) = rows := by
    rw [List.filter_append, List.filter_eq_self.mpr (by simpa using hpos),
      List.filter_eq_nil_iff.mpr, List.append_nil]
    intro r hr
    rw [hzeros r hr]
    decide
  have hnonneg : (∀ r ∈ rows ++ zeros, 0 ≤ r.1 ∧ 0 ≤ r.2.1) ↔
      ∀ r ∈ rows, 0 ≤ r.1 ∧ 0 ≤ r.2.1 := by
    rw [List.forall_mem_append]
    apply and_iff_left
    intro r hr
    rw [hzeros r hr]
    exact ⟨le_refl _, le_refl _⟩
  constructor
  · rintro ⟨h₁, h₂, h₃⟩
    rw [List.map_append, List.sum_append, hsum, add_zero] at h₁
    rw [hfilter] at h₃
    exact ⟨h₁, hnonneg.mp h₂, h₃⟩
  · rintro ⟨h₁, h₂, h₃⟩
    refine ⟨?_, hnonneg.mpr h₂, ?_⟩
    · rw [List.map_append, List.sum_append, hsum, add_zero, h₁]
    · rw [hfilter]
      exact h₃

namespace MatchRows

variable {sell buy : Holding} {n : Int} {x : Split}

theorem numbers_put (row : SplitRow → MatchRow) (x : Split) :
    ∃ zeros, (∀ r ∈ zeros, r = (0, 0, 0)) ∧ (({} : MatchRows).put row (some x)).numbers =
      x.rows.map (fun r => (row r).numbers) ++ zeros := by
  obtain ⟨r₁, r₂, r₃⟩ := x
  cases r₃ with
  | none => exact ⟨[(0, 0, 0)], by simp, rfl⟩
  | some r₃ => exact ⟨[], by simp, rfl⟩

theorem rowsConsistent_makerSells (hpos : x.Positive) :
    RowsConsistent (({} : MatchRows).put SplitRow.makerSells (some x)).numbers n sell.size buy.size
        (sell.sell n).size (buy.buy n).size ↔ x.Consistent sell buy n := by
  obtain ⟨zeros, hzeros, heq⟩ := numbers_put SplitRow.makerSells x
  have hrows : ∀ r ∈ x.rows.map (fun r => r.makerSells.numbers), 0 < r.2.2 :=
    List.forall_mem_map.mpr hpos
  rw [heq, rowsConsistent_append hrows hzeros]
  simp only [List.map_map, List.forall_mem_map]
  constructor
  · rintro ⟨h₁, h₂, h₃⟩
    exact ⟨h₁, h₂, h₃⟩
  · rintro ⟨h₁, h₂, h₃⟩
    exact ⟨h₁, h₂, h₃⟩

theorem rowsConsistent_makerBuys (hpos : x.Positive) (h : x.Consistent sell buy n) :
    RowsConsistent (({} : MatchRows).put SplitRow.makerBuys (some x)).numbers n buy.size sell.size
        (buy.buy n).size (sell.sell n).size := by
  obtain ⟨zeros, hzeros, heq⟩ := numbers_put SplitRow.makerBuys x
  have hrows : ∀ r ∈ x.rows.map (fun r => r.makerBuys.numbers), 0 < r.2.2 :=
    List.forall_mem_map.mpr hpos
  rw [heq, rowsConsistent_append hrows hzeros]
  simp only [List.map_map, List.forall_mem_map]
  refine ⟨h.sum, fun r hr => (h.nonneg r hr).symm, ?_⟩
  have hswap := h.follows.swap
  rw [List.map_map] at hswap
  exact hswap

theorem put_put {row : SplitRow → MatchRow} {y : Split}
    (h : x.third.isSome = y.third.isSome) :
    (({} : MatchRows).put row (some x)).put row (some y) =
      ({} : MatchRows).put row (some y) := by
  obtain ⟨r₁, r₂, r₃⟩ := x
  obtain ⟨q₁, q₂, q₃⟩ := y
  cases q₃ with
  | some q₃ => rfl
  | none =>
    cases r₃ with
    | some r₃ => exact absurd h (by simp)
    | none => rfl

/-- The rows of a match with a maker that sells are right unless it is long by less than the taker
is short, the match turns both positions and the taker is not short by just twice as much. -/
theorem rowsConsistent_sell_iff (hsell : sell.OneSided) (hbuy : buy.OneSided) (hn : 0 < n) :
    (0 < (matchRows actionSell (sell.status (sell.sell n)) (buy.status (buy.buy n)) sell buy
          n).row1.nCouldBuy →
        RowsConsistent (matchRows actionSell (sell.status (sell.sell n)) (buy.status (buy.buy n))
          sell buy n).numbers n sell.size buy.size (sell.sell n).size (buy.buy n).size) ↔
      ¬ (Split.TurnsSmaller sell buy n ∧ buy.negative ≠ 2 * sell.positive) := by
  have hsells := Holding.status_sell_turns_iff hsell hn
  have hbuys := Holding.status_buy_turns_iff hbuy hn
  have hne : ¬ actionSell = actionBuy := by decide
  rw [matchRows, if_pos rfl, if_neg hne]
  by_cases hb : 0 < buy.negative ∧ buy.negative < n
  · obtain ⟨y, hy, hpositive, hiff⟩ :=
      Split.consistent_takerOpenLongSplit hsell hbuy hb.1 hb.2
    have hrows : (if sell.status (sell.sell n) = .openShortPosByLongPosNetted then
          ({} : MatchRows).put SplitRow.makerSells
            (openShortSplit sell buy n (buy.status (buy.buy n)))
        else {}).put SplitRow.makerSells
          (takerOpenLongSplit sell buy n (sell.status (sell.sell n))) =
        ({} : MatchRows).put SplitRow.makerSells (some y) := by
      rw [hy]
      split_ifs with hs
      · obtain ⟨x, hx, -, -⟩ :=
          Split.consistent_openShortSplit hsell hbuy (hsells.mp hs).1 (hsells.mp hs).2
        rw [hx]
        rw [hbuys.mpr hb] at hx
        rw [hs] at hy
        exact put_put (Split.isSome_third_of_turns hx (.inr hy))
      · rfl
    rw [if_pos (hbuys.mpr hb), hrows, rowsConsistent_makerSells hpositive, hiff]
    have hfirst : 0 < (({} : MatchRows).put SplitRow.makerSells (some y)).row1.nCouldBuy :=
      hpositive _ List.mem_cons_self
    exact ⟨fun h => h hfirst, fun h _ => h⟩
  · rw [if_neg (fun h => hb (hbuys.mp h))]
    apply iff_of_true
    · split_ifs with hs
      · obtain ⟨x, hx, hpositive, hcons⟩ :=
          Split.consistent_openShortSplit hsell hbuy (hsells.mp hs).1 (hsells.mp hs).2
        rw [hx]
        exact fun _ => (rowsConsistent_makerSells hpositive).mpr hcons
      · exact fun h => absurd h (by decide)
    · rintro ⟨⟨⟨hpos, hless⟩, hlt⟩, -⟩
      exact hb ⟨hpos.trans hless, hlt⟩

theorem rowsConsistent_buy (hsell : sell.OneSided) (hbuy : buy.OneSided) (hn : 0 < n)
    (hfirst : 0 < (matchRows actionBuy (buy.status (buy.buy n)) (sell.status (sell.sell n)) sell
      buy n).row1.nCouldBuy) :
    RowsConsistent (matchRows actionBuy (buy.status (buy.buy n)) (sell.status (sell.sell n)) sell
      buy n).numbers n buy.size sell.size (buy.buy n).size (sell.sell n).size := by
  have hsells := Holding.status_sell_turns_iff hsell hn
  have hbuys := Holding.status_buy_turns_iff hbuy hn
  have hne : ¬ actionBuy = actionSell := by decide
  rw [matchRows, if_neg hne, if_pos rfl] at hfirst ⊢
  by_cases hs : 0 < sell.positive ∧ sell.positive < n
  · obtain ⟨y, hy, hpositive, hcons⟩ := Split.consistent_openShortSplit hsell hbuy hs.1 hs.2
    have hrows : (if buy.status (buy.buy n) = .openLongPosByShortPosNetted then
          ({} : MatchRows).put SplitRow.makerBuys
            (openLongSplit sell buy n (sell.status (sell.sell n)))
        else {}).put SplitRow.makerBuys (openShortSplit sell buy n (buy.status (buy.buy n))) =
        ({} : MatchRows).put SplitRow.makerBuys (some y) := by
      rw [hy]
      split_ifs with hb
      · obtain ⟨x, hx, -, -⟩ :=
          Split.consistent_openLongSplit hsell hbuy (hbuys.mp hb).1 (hbuys.mp hb).2
        rw [hx]
        rw [hsells.mpr hs] at hx
        rw [hb] at hy
        exact put_put (Split.isSome_third_of_turns hy (.inl hx)).symm
      · rfl
    rw [if_pos (hsells.mpr hs), hrows]
    exact rowsConsistent_makerBuys hpositive hcons
  · rw [if_neg (fun h => hs (hsells.mp h))] at hfirst ⊢
    split_ifs at hfirst ⊢ with hb
    · obtain ⟨x, hx, hpositive, hcons⟩ :=
        Split.consistent_openLongSplit hsell hbuy (hbuys.mp hb).1 (hbuys.mp hb).2
      rw [hx]
      exact rowsConsistent_makerBuys hpositive hcons
    · exact absurd hfirst (by decide)

end MatchRows

end TradeLayer
