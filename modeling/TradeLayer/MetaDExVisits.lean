import TradeLayer.MetaDExAmounts
import TradeLayer.MetaDExTrades

namespace TradeLayer
open Library

/-- The look of an incoming order, as it is at that moment, at a resting one. -/
structure Visit where
  pnew : MetaDEx
  pold : MetaDEx

def Visit.fill (v : Visit) : Option (Int × Int) :=
  (MetaDEx.fill v.pnew v.pold).toOption.join

def Visit.got (v : Visit) : Int := (v.fill.map Prod.fst).getD 0

def Visit.paid (v : Visit) : Int := (v.fill.map Prod.snd).getD 0

def priority (e : ℚ × MetaDEx) : ℚ ×ₗ (Int ×ₗ Nat) := toLex (e.1, e.2.position)

namespace NodeState

def offersWithin (limit : ℚ) (levels : List (ℚ × Keyed MetaDEx.position)) :
    List (ℚ × MetaDEx) :=
  levels.flatMap fun e => if limit < e.1 then [] else e.2.toList.map (e.1, ·)

def offers (s : NodeState) (pnew : MetaDEx) : List (ℚ × MetaDEx) :=
  offersWithin pnew.inversePrice ((s.metadex.get? pnew.desProperty).getD ∅).toList

/-- The loops of `xTrade` as one, with a record of the visits. -/
def visitOffers (env : Environment) : List (ℚ × MetaDEx) → MetaDEx → NodeState →
    Except Abort (List Visit × MetaDEx × NodeState)
  | [], pnew, s => .ok ([], pnew, s)
  | (price, pold) :: rest, pnew, s => do
    let (pnew', s) ← s.matchOrder env price pnew pold
    if pnew'.amountRemaining = 0 then .ok ([⟨pnew, pold⟩], pnew', s)
    else do
      let (visits, r) ← visitOffers env rest pnew' s
      return (⟨pnew, pold⟩ :: visits, r)

variable {s s' : NodeState} {env : Environment} {pnew pnew' pold : MetaDEx} {price : ℚ}
variable {offers : List (ℚ × MetaDEx)} {visits : List Visit} {e : ℚ × MetaDEx}

section Loops

theorem visitOffers_append {offers' : List (ℚ × MetaDEx)} (hne : pnew.amountRemaining ≠ 0) :
    visitOffers env (offers ++ offers') pnew s =
      visitOffers env offers pnew s >>= fun r =>
        if r.2.1.amountRemaining = 0 then .ok r
        else (visitOffers env offers' r.2.1 r.2.2).map fun r' => (r.1 ++ r'.1, r'.2) := by
  induction offers generalizing pnew s with
  | nil =>
    rw [List.nil_append, visitOffers, ok_bind, if_neg hne]
    cases visitOffers env offers' pnew s <;> rfl
  | cons e offers ih =>
    rw [List.cons_append, visitOffers, visitOffers]
    cases hm : s.matchOrder env e.1 pnew e.2 with
    | error => rfl
    | ok r =>
      obtain ⟨pnew', m⟩ := r
      simp only [ok_bind]
      split_ifs with hzero
      · rw [ok_bind, if_pos hzero]
      · rw [ih hzero]
        cases visitOffers env offers pnew' m with
        | error => rfl
        | ok r' =>
          simp only [ok_bind]
          change _ = if r'.2.1.amountRemaining = 0 then _ else _
          split_ifs with hzero'
          · rfl
          · cases visitOffers env offers' r'.2.1 r'.2.2 <;> rfl

theorem matchOrder_of_none (hprice : pold.unitPrice = price)
    (hfill : MetaDEx.fill pnew pold = .ok none) :
    s.matchOrder env price pnew pold = .ok (pnew, s) := by
  rw [matchOrder, if_neg (not_not.mpr hprice), hfill, ok_bind]

theorem matchOrder_of_some {got paid : Int} (hprice : pold.unitPrice = price)
    (hfill : MetaDEx.fill pnew pold = .ok (some (got, paid))) :
    s.matchOrder env price pnew pold = s.executeTrade env price pnew pold got paid >>= fun s =>
      .ok ({ pnew with amountRemaining := pnew.amountRemaining - paid }, s) := by
  rw [matchOrder, if_neg (not_not.mpr hprice), hfill, ok_bind]
  rfl

theorem matchOrder_eq_ok (h : s.matchOrder env price pnew pold = .ok (pnew', s')) :
    pold.unitPrice = price ∧
      (MetaDEx.fill pnew pold = .ok none ∧ pnew' = pnew ∧ s' = s ∨
        ∃ got paid, MetaDEx.fill pnew pold = .ok (some (got, paid)) ∧
          s.executeTrade env price pnew pold got paid = .ok s' ∧
          pnew' = { pnew with amountRemaining := pnew.amountRemaining - paid }) := by
  have hprice : pold.unitPrice = price := by
    by_contra hne
    rw [matchOrder, if_pos hne] at h
    cases h
  refine ⟨hprice, ?_⟩
  cases hfill : MetaDEx.fill pnew pold with
  | error e =>
    rw [matchOrder, if_neg (not_not.mpr hprice), hfill, error_bind] at h
    cases h
  | ok x =>
    rcases x with _ | ⟨got, paid⟩
    · rw [matchOrder_of_none hprice hfill] at h
      cases h
      exact .inl ⟨rfl, rfl, rfl⟩
    · rw [matchOrder_of_some hprice hfill] at h
      obtain ⟨m, hm, h⟩ := bind_eq_ok.mp h
      cases h
      exact .inr ⟨got, paid, rfl, hm, rfl⟩

theorem pnew_of_matchOrder (h : s.matchOrder env price pnew pold = .ok (pnew', s')) :
    pnew' = { pnew with amountRemaining := pnew.amountRemaining - (Visit.mk pnew pold).paid } := by
  obtain ⟨-, ⟨hfill, rfl, -⟩ | ⟨got, paid, hfill, -, rfl⟩⟩ := matchOrder_eq_ok h
  · simp [Visit.paid, Visit.fill, hfill, Except.toOption]
  · simp [Visit.paid, Visit.fill, hfill, Except.toOption]

theorem inversePrice_of_matchOrder (h : s.matchOrder env price pnew pold = .ok (pnew', s')) :
    pnew'.inversePrice = pnew.inversePrice := by
  rw [pnew_of_matchOrder h]
  rfl

theorem inversePrice_of_visitOffers
    (h : visitOffers env offers pnew s = .ok (visits, pnew', s')) :
    pnew'.inversePrice = pnew.inversePrice := by
  induction offers generalizing pnew s visits with
  | nil =>
    cases h
    rfl
  | cons e offers ih =>
    obtain ⟨⟨pmid, m⟩, hm, h⟩ := bind_eq_ok.mp h
    rw [← inversePrice_of_matchOrder hm]
    dsimp only at h
    split_ifs at h
    · cases h
      rfl
    · obtain ⟨⟨vs, r⟩, hr, h⟩ := bind_eq_ok.mp h
      cases h
      exact ih hr

theorem xTradeLevel_eq (orders : List MetaDEx) :
    xTradeLevel env price orders pnew s =
      (visitOffers env (orders.map (price, ·)) pnew s).map Prod.snd := by
  induction orders generalizing pnew s with
  | nil => rfl
  | cons pold orders ih =>
    rw [xTradeLevel, List.map_cons, visitOffers]
    cases s.matchOrder env price pnew pold with
    | error => rfl
    | ok r =>
      simp only [ok_bind]
      split_ifs
      · rfl
      · rw [ih]
        cases visitOffers env (orders.map (price, ·)) r.1 r.2 <;> rfl

theorem xTradeLevels_eq {levels : List (ℚ × Keyed MetaDEx.position)}
    (hne : pnew.amountRemaining ≠ 0) :
    xTradeLevels env levels pnew s =
      (visitOffers env (offersWithin pnew.inversePrice levels) pnew s).map Prod.snd := by
  induction levels generalizing pnew s with
  | nil => rfl
  | cons e levels ih =>
    rw [xTradeLevels, offersWithin, List.flatMap_cons, ← offersWithin]
    split_ifs with hlimit
    · rw [List.nil_append]
      exact ih hne
    · rw [visitOffers_append hne, xTradeLevel_eq]
      cases hvisit : visitOffers env (e.2.toList.map (e.1, ·)) pnew s with
      | error => rfl
      | ok r =>
        obtain ⟨visits, pmid, m⟩ := r
        simp only [Except.map, ok_bind]
        split_ifs with hzero
        · rfl
        · rw [ih hzero, inversePrice_of_visitOffers hvisit]
          cases visitOffers env (offersWithin pnew.inversePrice levels) pmid m <;> rfl

theorem xTrade_eq (hne : pnew.amountRemaining ≠ 0) :
    s.xTrade env pnew = (visitOffers env (s.offers pnew) pnew s).map Prod.snd := by
  rw [xTrade, offers]
  cases s.metadex.get? pnew.desProperty with
  | none => rfl
  | some prices => exact xTradeLevels_eq hne

end Loops

section Offers

theorem mem_offers : e ∈ s.offers pnew ↔
    e.1 ≤ pnew.inversePrice ∧ e.2 ∈ Book.level s.metadex pnew.desProperty e.1 := by
  have hlevel : e.2 ∈ Book.level s.metadex pnew.desProperty e.1 ↔
      ∃ orders, (e.1, orders) ∈ (s.metadex.get? pnew.desProperty).getD ∅ ∧ e.2 ∈ orders := by
    rw [Book.level]
    cases s.metadex.get? pnew.desProperty with
    | none => simp
    | some prices =>
      simp only [Option.bind_some, Option.getD_some, ← OrderedMap.get?_eq_some]
      cases prices.get? e.1 <;> simp
  rw [hlevel, offers, offersWithin, List.mem_flatMap]
  constructor
  · rintro ⟨⟨price, orders⟩, hmem, he⟩
    split_ifs at he with hlimit
    · cases he
    · obtain ⟨o, ho, rfl⟩ := List.mem_map.mp he
      exact ⟨not_lt.mp hlimit, orders, hmem, ho⟩
  · rintro ⟨hlimit, orders, hmem, ho⟩
    refine ⟨(e.1, orders), hmem, ?_⟩
    rw [if_neg hlimit.not_gt]
    exact List.mem_map.mpr ⟨e.2, ho, rfl⟩

theorem offers_sorted (s : NodeState) (pnew : MetaDEx) :
    (s.offers pnew).Pairwise fun a b => priority a < priority b := by
  refine List.pairwise_flatMap.mpr ⟨?_, ?_⟩
  · rintro ⟨price, orders⟩ -
    split_ifs
    · exact .nil
    · rw [List.pairwise_map]
      refine orders.sorted.imp fun {a b} hab => ?_
      exact Prod.Lex.lt_iff.mpr (.inr ⟨rfl, hab⟩)
  · refine ((s.metadex.get? pnew.desProperty).getD ∅).sorted.imp fun {a b} hab x hx y hy => ?_
    split_ifs at hx hy
    · cases hx
    · cases hx
    · cases hy
    · obtain ⟨o, -, rfl⟩ := List.mem_map.mp hx
      obtain ⟨o', -, rfl⟩ := List.mem_map.mp hy
      exact Prod.Lex.lt_iff.mpr (.inl hab)

theorem mem_of_priority_lt {before after all : List (ℚ × MetaDEx)} {x : ℚ × MetaDEx}
    (hsorted : all.Pairwise fun a b => priority a < priority b)
    (hbegins : before ++ x :: after <+: all) (he : e ∈ all) (hlt : priority e < priority x) :
    e ∈ before := by
  obtain ⟨others, rfl⟩ := hbegins
  rw [List.append_assoc, List.cons_append] at he hsorted
  obtain ⟨-, htail, -⟩ := List.pairwise_append.mp hsorted
  rcases List.mem_append.mp he with he | he
  · exact he
  · rcases List.mem_cons.mp he with rfl | he
    · exact absurd hlt (lt_irrefl _)
    · exact absurd hlt ((List.pairwise_cons.mp htail).1 e he).not_gt

end Offers

end NodeState

/-- An order that looks at resting orders one after the other and pays for what it buys. -/
inductive Passes : MetaDEx → List Visit → MetaDEx → Prop
  | nil (pnew : MetaDEx) : Passes pnew [] pnew
  | cons {pnew pold pnew' : MetaDEx} {x : Option (Int × Int)} {visits : List Visit}
      (hfill : MetaDEx.fill pnew pold = .ok x)
      (h : Passes { pnew with amountRemaining :=
        pnew.amountRemaining - (Visit.mk pnew pold).paid } visits pnew') :
      Passes pnew (⟨pnew, pold⟩ :: visits) pnew'

variable {pnew pnew' pold : MetaDEx} {visits done rest : List Visit} {v : Visit} {got paid : Int}

theorem Visit.fill_eq {x : Option (Int × Int)} (h : MetaDEx.fill v.pnew v.pold = .ok x) :
    v.fill = x := by
  rw [Visit.fill, h]
  rfl

theorem Visit.fill_eq_some :
    v.fill = some (got, paid) ↔ MetaDEx.fill v.pnew v.pold = .ok (some (got, paid)) := by
  rw [Visit.fill]
  cases MetaDEx.fill v.pnew v.pold with
  | error => simp [Except.toOption]
  | ok x => simp [Except.toOption]

theorem Visit.paid_nonneg (v : Visit) : 0 ≤ v.paid := by
  rw [Visit.paid]
  cases h : v.fill with
  | none => exact le_rfl
  | some x => exact (MetaDEx.fill_eq_some (Visit.fill_eq_some.mp h)).2.2.2

namespace Passes

theorem split (h : Passes pnew (done ++ v :: rest) pnew') :
    v.pnew = { pnew with amountRemaining :=
        pnew.amountRemaining - (done.map Visit.paid).sum } ∧
      (∃ x, MetaDEx.fill v.pnew v.pold = .ok x) ∧ Passes v.pnew (v :: rest) pnew' := by
  induction done generalizing pnew with
  | nil =>
    cases h with
    | cons hfill h => exact ⟨by simp, ⟨_, hfill⟩, .cons hfill h⟩
  | cons w done ih =>
    cases h with
    | cons hfill h =>
      obtain ⟨hv, hrest⟩ := ih h
      refine ⟨?_, hrest⟩
      rw [hv, List.map_cons, List.sum_cons, sub_sub]

theorem pnew_eq (h : Passes pnew visits pnew') :
    pnew' = { pnew with amountRemaining :=
      pnew.amountRemaining - (visits.map Visit.paid).sum } := by
  induction h with
  | nil => simp
  | cons hfill h ih =>
    rw [ih, List.map_cons, List.sum_cons]
    simp only [sub_sub]

theorem sum_paid_nonneg (visits : List Visit) : 0 ≤ (visits.map Visit.paid).sum := by
  apply List.sum_nonneg
  intro n hn
  obtain ⟨v, -, rfl⟩ := List.mem_map.mp hn
  exact v.paid_nonneg

end Passes

namespace NodeState

variable {s s' : NodeState} {env : Environment} {offers : List (ℚ × MetaDEx)}

/-- The visits are a chain of passes over the first of the orders, and over all of them unless
the incoming order is used up. -/
theorem passes_of_visitOffers (h : visitOffers env offers pnew s = .ok (visits, pnew', s')) :
    Passes pnew visits pnew' ∧ visits.map (fun v => (v.pold.unitPrice, v.pold)) <+: offers ∧
      (pnew'.amountRemaining ≠ 0 → visits.length = offers.length) := by
  induction offers generalizing pnew s visits with
  | nil =>
    cases h
    exact ⟨.nil _, List.prefix_refl _, fun _ => rfl⟩
  | cons e offers ih =>
    obtain ⟨⟨pmid, m⟩, hm, h⟩ := bind_eq_ok.mp h
    have hmid := pnew_of_matchOrder hm
    obtain ⟨hprice, hcases⟩ := matchOrder_eq_ok hm
    obtain ⟨x, hfill⟩ : ∃ x, MetaDEx.fill pnew e.2 = .ok x := by
      rcases hcases with ⟨hfill, -⟩ | ⟨got, paid, hfill, -⟩
      · exact ⟨_, hfill⟩
      · exact ⟨_, hfill⟩
    have he : (e.2.unitPrice, e.2) = e := by rw [hprice]
    dsimp only at h
    split_ifs at h with hzero
    · cases h
      refine ⟨.cons hfill ?_, ?_, fun hne => absurd hzero hne⟩
      · rw [← hmid]
        exact .nil _
      · rw [List.map_cons, he]
        exact List.cons_prefix_cons.mpr ⟨rfl, List.nil_prefix⟩
    · obtain ⟨⟨vs, r⟩, hr, h⟩ := bind_eq_ok.mp h
      cases h
      obtain ⟨hpass, hbegins, hall⟩ := ih hr
      refine ⟨.cons hfill ?_, ?_, fun hne => ?_⟩
      · rw [← hmid]
        exact hpass
      · rw [List.map_cons, he]
        exact List.cons_prefix_cons.mpr ⟨rfl, hbegins⟩
      · rw [List.length_cons, List.length_cons, hall hne]

end NodeState

end TradeLayer
