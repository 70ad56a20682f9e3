import TradeLayer.ContractTaken

namespace TradeLayer
open Library

namespace ContractDex

variable {pnew : ContractDex} {met : List ContractDex}

/-- The order in which a new order takes others: from the lowest price up when it buys, from the
highest down otherwise, and by position at one price. -/
def Precedes (pnew o o' : ContractDex) : Prop :=
  if pnew.tradingAction = actionBuy then
    toLex (o.effectivePrice, o.position) < toLex (o'.effectivePrice, o'.position)
  else
    toLex (OrderDual.toDual o.effectivePrice, o.position) <
      toLex (OrderDual.toDual o'.effectivePrice, o'.position)

def WithinLimit (pnew o : ContractDex) : Prop :=
  if pnew.tradingAction = actionBuy then o.effectivePrice ≤ pnew.effectivePrice
  else pnew.effectivePrice ≤ o.effectivePrice

theorem fillsAlong_sublist : ((pnew.fillsAlong met).map Prod.snd).Sublist met := by
  induction met generalizing pnew with
  | nil => exact .refl _
  | cons pold met ih =>
    rw [fillsAlong]
    split_ifs
    · exact ih.cons pold
    · exact ih.cons_cons pold

end ContractDex

namespace NodeState

variable {s : NodeState} {env : Environment} {pnew : ContractDex} {e e' : Nat × ContractDex}
variable {x : ContractDex × NodeState} {levels : List (Nat × Keyed ContractDex.position)}

def Before (pnew : ContractDex) (e e' : Nat × ContractDex) : Prop :=
  if pnew.tradingAction = actionBuy then e.1 < e'.1 ∨ e.1 = e'.1 ∧ e.2.position < e'.2.position
  else e'.1 < e.1 ∨ e.1 = e'.1 ∧ e.2.position < e'.2.position

theorem meetable_ordered (hlevels : levels.Pairwise fun l l' =>
      if pnew.tradingAction = actionBuy then l.1 < l'.1 else l'.1 < l.1) :
    (meetable pnew levels).Pairwise (Before pnew) := by
  rw [meetable, List.pairwise_flatMap]
  constructor
  · intro l _
    rw [List.pairwise_map]
    refine l.2.sorted.imp fun hlt => ?_
    rw [Before]
    split_ifs
    · exact .inr ⟨rfl, hlt⟩
    · exact .inr ⟨rfl, hlt⟩
  · refine (hlevels.filter _).imp fun {l l'} hlt => ?_
    intro e he e' he'
    obtain ⟨o, -, rfl⟩ := List.mem_map.mp he
    obtain ⟨o', -, rfl⟩ := List.mem_map.mp he'
    rw [Before]
    split_ifs at hlt ⊢
    · exact .inl hlt
    · exact .inl hlt

theorem walk_ordered : (s.walk pnew).Pairwise (Before pnew) := by
  rw [walk]
  cases s.contractdex.get? pnew.property with
  | none => exact .nil
  | some prices =>
    apply meetable_ordered
    by_cases hbuy : pnew.tradingAction = actionBuy
    · simp only [hbuy, if_true]
      exact prices.sorted
    · simp only [hbuy, if_false, List.pairwise_reverse]
      exact prices.sorted

theorem walk_places : (s.walk pnew).Pairwise fun e e' => ¬ SamePlace e e' := by
  refine walk_ordered.imp fun {e e'} hbefore => ?_
  rintro ⟨hprice, hposition⟩
  rw [Before, hprice, hposition] at hbefore
  simp at hbefore

/-- The matching of a new order: in order, within its limit and with the right quantities. -/
structure MatchesProperly (s : NodeState) (pnew : ContractDex) (x : ContractDex × NodeState) :
    Prop where
  order : (s.fills pnew).Pairwise fun f f' => pnew.Precedes f.2 f'.2
  limit : ∀ f ∈ s.fills pnew, pnew.WithinLimit f.2
  quantities : Conserves (s.walk pnew) pnew x

theorem fills_ordered (hprices : ∀ e ∈ s.walk pnew, e.2.effectivePrice = e.1) :
    (s.fills pnew).Pairwise fun f f' => pnew.Precedes f.2 f'.2 := by
  have hmet : ((s.walk pnew).map Prod.snd).Pairwise pnew.Precedes := by
    rw [List.pairwise_map]
    refine walk_ordered.imp_of_mem fun {e e'} he he' hbefore => ?_
    rw [Before] at hbefore
    rw [ContractDex.Precedes, hprices e he, hprices e' he', Prod.Lex.toLex_lt_toLex,
      Prod.Lex.toLex_lt_toLex]
    split_ifs at hbefore ⊢
    · exact hbefore
    · exact hbefore
  exact List.pairwise_map.mp (hmet.sublist ContractDex.fillsAlong_sublist)

theorem fills_withinLimit (hprices : ∀ e ∈ s.walk pnew, e.2.effectivePrice = e.1) :
    ∀ f ∈ s.fills pnew, pnew.WithinLimit f.2 := by
  intro f hf
  obtain ⟨e, he, heq⟩ := List.mem_map.mp (ContractDex.snd_of_mem_fillsAlong hf)
  have hskip := (mem_walk he).2
  rw [← heq, ContractDex.WithinLimit, hprices e he]
  rw [skipsLevel] at hskip
  split_ifs at hskip ⊢
  · simpa using hskip
  · simpa using hskip

/-- Every new order that is matched without an abort is matched in order and within its limit; its
quantities are right if and only if it fits the orders on neither side. -/
theorem matchesProperly_iff (hn : 0 < pnew.amountForSale)
    (h : s.xTradeContract env pnew = .ok x) :
    s.MatchesProperly pnew x ↔
      ContractDex.Fits pnew.amountForSale ((s.walk pnew).map Prod.snd) := by
  rw [xTradeContract_eq] at h
  have hprices : ∀ e ∈ s.walk pnew, e.2.effectivePrice = e.1 :=
    fun e he => (proper_of_meetAll h hn.le e he).2
  have hresting : ∀ e ∈ s.walk pnew, e.2 ∈ Book.level s.contractdex pnew.property e.1 :=
    fun e he => (mem_walk he).1
  rw [← conserves_iff h hn.le hresting walk_places]
  constructor
  · exact fun hproper => hproper.quantities
  · exact fun hquantities => ⟨fills_ordered hprices, fills_withinLimit hprices, hquantities⟩

/-- A new order to sell uses up the best bid, takes a part of the next one, and does not come to
the third. -/
theorem matchesProperly_of_sampleBids : ∃ x,
    sampleBids.xTradeContract (.plain .test) sampleAsk = .ok x ∧ x.1.amountForSale = 0 ∧
      (sampleBids.fills sampleAsk).map
        (fun f => (f.2.effectivePrice, f.1.nCouldBuy f.2)) = [(8, 2), (7, 1)] ∧
      sampleBids.MatchesProperly sampleAsk x := by
  obtain ⟨x, hrun, hx⟩ := exists_ok_of_map (g := fun x => x.1.amountForSale)
    (x := sampleBids.xTradeContract (.plain .test) sampleAsk) (b := 0) (by decide +kernel)
  have hwalk : (sampleBids.walk sampleAsk).map Prod.snd =
      [⟨['c'], 99, 3, 1, 5, 2, 8, actionBuy⟩, ⟨['a'], 100, 1, 1, 5, 5, 7, actionBuy⟩] := by
    decide +kernel
  refine ⟨x, hrun, hx, by decide +kernel, (matchesProperly_iff (by decide) hrun).mpr ?_⟩
  rw [hwalk, ContractDex.fits_cons, ContractDex.fits_cons]
  exact ⟨.inr (.inr (by decide)), .inr (.inr (by decide)), ContractDex.fits_nil⟩

def sampleNeither : NodeState :=
  { sampleMarket with contractdex := Book.file ∅ 5 7 ⟨['a'], 100, 1, 1, 5, 5, 7, 0⟩ }

/-- The match changes the positions, but neither order. -/
theorem not_matchesProperly_of_sampleNeither : ∃ x,
    sampleNeither.xTradeContract (.plain .test) ⟨['b'], 101, 2, 1, 5, 3, 7, actionBuy⟩ = .ok x ∧
      x.2.ledger.position ['a'] 5 = 3 ∧ x.1.amountForSale = 3 ∧
      x.2.amountLeft 5 (7, ⟨['a'], 100, 1, 1, 5, 5, 7, 0⟩) = 5 ∧
      ¬ sampleNeither.MatchesProperly ⟨['b'], 101, 2, 1, 5, 3, 7, actionBuy⟩ x := by
  obtain ⟨x, hrun, hx⟩ := exists_ok_of_map
    (g := fun x => (x.2.ledger.position ['a'] 5, x.1.amountForSale,
      x.2.amountLeft 5 (7, ⟨['a'], 100, 1, 1, 5, 5, 7, 0⟩)))
    (x := sampleNeither.xTradeContract (.plain .test) ⟨['b'], 101, 2, 1, 5, 3, 7, actionBuy⟩)
    (b := (3, 3, 5)) (by decide +kernel)
  simp only [Prod.mk.injEq] at hx
  refine ⟨x, hrun, hx.1, hx.2.1, hx.2.2, fun hproper => ?_⟩
  have htotal := hproper.quantities.total
  have hfills : (((⟨['b'], 101, 2, 1, 5, 3, 7, actionBuy⟩ : ContractDex).fillsAlong
      ((sampleNeither.walk ⟨['b'], 101, 2, 1, 5, 3, 7, actionBuy⟩).map Prod.snd)).map fun f =>
        f.1.nCouldBuy f.2).sum = 3 := by decide +kernel
  rw [hfills, hx.2.1] at htotal
  exact absurd htotal (by decide)

end NodeState

end TradeLayer
