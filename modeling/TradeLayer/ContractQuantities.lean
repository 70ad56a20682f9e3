import TradeLayer.ContractBook

namespace TradeLayer
open Library

namespace ContractDex

variable {n : Int} {pnew pold o : ContractDex} {met : List ContractDex}
variable {fills : List (ContractDex × ContractDex)}

def filled (fills : List (ContractDex × ContractDex)) (o : ContractDex) : Int :=
  ((fills.filter fun f => f.2 = o).map fun f => nCouldBuy f.1 f.2).sum

/-- The orders on neither side that an amount comes by: they have nothing, the orders before them
use up the amount, or they use up what is left of it. -/
def Fits (n : Int) (met : List ContractDex) : Prop :=
  ∀ done pold rest, met = done ++ pold :: rest →
    pold.tradingAction ≠ actionBuy → pold.tradingAction ≠ actionSell →
      pold.amountForSale = 0 ∨ n ≤ (done.map amountForSale).sum ∨
        (done.map amountForSale).sum + pold.amountForSale = n

theorem fits_nil : Fits n [] := by
  intro done pold rest h
  simp at h

theorem fits_cons : Fits n (pold :: met) ↔
    (pold.amountForSale = 0 ∨ n ≤ 0 ∨ trades n pold = true) ∧
      Fits (n - pold.amountForSale) met := by
  rw [Fits, forall_split_cons]
  simp only [Fits, List.map_nil, List.sum_nil, zero_add, List.map_cons, List.sum_cons]
  refine and_congr ?_ ?_
  · simp only [trades, decide_eq_true_eq]
    tauto
  · refine forall₃_congr fun done o rest => forall₃_congr fun _ _ _ => ?_
    omega

theorem fits_of_nonpos (hn : n ≤ 0) (h : ∀ o ∈ met, 0 ≤ o.amountForSale) : Fits n met := by
  rintro done pold rest rfl - -
  refine .inr (.inl (hn.trans (List.sum_nonneg ?_)))
  intro x hx
  obtain ⟨o, ho, rfl⟩ := List.mem_map.mp hx
  exact h o (List.mem_append_left _ ho)

theorem snd_of_mem_fillsAlong {f : ContractDex × ContractDex} (h : f ∈ pnew.fillsAlong met) :
    f.2 ∈ met := by
  induction met generalizing pnew with
  | nil => cases h
  | cons pold met ih =>
    rw [fillsAlong] at h
    split_ifs at h
    · exact List.mem_cons_of_mem _ (ih h)
    · rcases List.mem_cons.mp h with rfl | h
      · exact List.mem_cons_self
      · exact List.mem_cons_of_mem _ (ih h)

theorem filled_eq_zero (h : ∀ f ∈ fills, f.2 ≠ o) : filled fills o = 0 := by
  rw [filled, List.filter_eq_nil_iff.mpr (by simpa using h)]
  rfl

theorem filled_cons : filled ((pnew, pold) :: fills) o =
    (if pold = o then nCouldBuy pnew pold else 0) + filled fills o := by
  rw [filled, List.filter_cons, filled]
  by_cases h : pold = o
  · simp [h]
  · simp [h]

def next (pnew pold : ContractDex) : ContractDex :=
  if nCouldBuy pnew pold = 0 then pnew else (afterMatch pnew pold).2

theorem sum_fillsAlong_cons :
    ((pnew.fillsAlong (pold :: met)).map fun f => nCouldBuy f.1 f.2).sum = nCouldBuy pnew pold +
      (((next pnew pold).fillsAlong met).map fun f => nCouldBuy f.1 f.2).sum := by
  rw [fillsAlong, next]
  split_ifs with h
  · rw [h, zero_add]
  · rw [List.map_cons, List.sum_cons]

theorem filled_fillsAlong_cons : filled (pnew.fillsAlong (pold :: met)) o =
    (if pold = o then nCouldBuy pnew pold else 0) + filled ((next pnew pold).fillsAlong met) o := by
  rw [fillsAlong, next]
  split_ifs with h
  · rw [h, zero_add]
  · rw [zero_add]
  · rw [filled_cons, if_pos ‹_›]
  · rw [filled_cons, if_neg ‹_›]

theorem amount_next (h : nCouldBuy pnew pold = 0 ∨ trades pnew.amountForSale pold = true) :
    (next pnew pold).amountForSale = pnew.amountForSale - nCouldBuy pnew pold := by
  rw [next]
  split_ifs with hzero
  · rw [hzero, sub_zero]
  · rw [afterMatch_eq_of_trades (h.resolve_left hzero)]

theorem amount_next_nonneg (h : 0 ≤ pnew.amountForSale) : 0 ≤ (next pnew pold).amountForSale := by
  rw [next, afterMatch]
  split_ifs
  · exact h
  · exact le_rfl
  · exact abs_nonneg _
  · exact le_rfl
  · exact h

theorem fits_cons_of_trades (hmet : ∀ o ∈ pold :: met, 0 ≤ o.amountForSale)
    (h : nCouldBuy pnew pold = 0 ∨ trades pnew.amountForSale pold = true) :
    Fits pnew.amountForSale (pold :: met) ↔ Fits (next pnew pold).amountForSale met := by
  obtain ⟨hpold, hmet⟩ := List.forall_mem_cons.mp hmet
  rw [fits_cons, amount_next h]
  rw [nCouldBuy_eq_min] at h ⊢
  have hfirst : pold.amountForSale = 0 ∨ pnew.amountForSale ≤ 0 ∨
      trades pnew.amountForSale pold = true := by
    rcases h with hzero | htrades
    · omega
    · exact .inr (.inr htrades)
  rw [and_iff_right hfirst]
  rcases le_total pold.amountForSale pnew.amountForSale with hle | hle
  · rw [min_eq_right hle]
  · rw [min_eq_left hle]
    exact iff_of_true (fits_of_nonpos (by omega) hmet) (fits_of_nonpos (by omega) hmet)

end ContractDex

end TradeLayer
