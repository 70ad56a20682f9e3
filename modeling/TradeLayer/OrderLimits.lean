import TradeLayer.MetaDExPriority
import TradeLayer.TradeStatus

namespace TradeLayer
open Library

/-- Neither side of a match gets a worse price than its order asks for. -/
def DexFill.Fair (x : DexFill) : Prop :=
  x.got * x.pold.amountDesired ≤ x.paid * x.pold.amountForSale ∧
    x.paid * x.pnew.amountDesired ≤ x.got * x.pnew.amountForSale

/-- What an order gets in a match, before the trading fee. -/
def DexFill.boughtBy (txid : Nat) (x : DexFill) : Int :=
  (if x.pnew.txid = txid then x.got else 0) + if x.pold.txid = txid then x.paid else 0

def DexLog.bought (log : DexLog) (txid : Nat) : Int := (log.fills.map (DexFill.boughtBy txid)).sum

theorem NodeState.fair_of_fillsOf {s : NodeState} {env : Environment} {pnew : MetaDEx}
    {x : DexFill} (hwant : 0 < pnew.amountDesired) (hx : x ∈ s.fillsOf env pnew) : x.Fair := by
  rw [fillsOf] at hx
  cases hrun : visitOffers env (s.offers pnew) pnew s with
  | error e => simp [hrun] at hx
  | ok r =>
    rw [hrun] at hx
    obtain ⟨v, hv, hx⟩ := List.mem_filterMap.mp hx
    obtain ⟨done, rest, hsplit⟩ := List.append_of_mem hv
    have hpass := (passes_of_visitOffers hrun).1
    rw [hsplit] at hpass
    rw [fillOf, Option.map_eq_some_iff] at hx
    obtain ⟨f, hfill, rfl⟩ := hx
    apply fair_of_fill (Visit.fill_eq_some.mp hfill)
    rw [hpass.split.1]
    exact hwant

namespace DexHistory

variable {b : MdPropertiesMap} {log : DexLog} {o : MetaDEx}

theorem fair (h : DexHistory b log) : ∀ x ∈ log.fills, x.Fair := by
  induction h with
  | empty => simp
  | add _ hadmits _ ih =>
    intro x hx
    rcases List.mem_append.mp hx with hx | hx
    · exact ih x hx
    · exact NodeState.fair_of_fillsOf hadmits.desired hx
  | cancel _ _ _ ih => exact ih
  | shutdownAllPair _ _ ih => exact ih

/-- After any history an order has sold at its own price or a better one, in all its matches
together and whichever side it was on. -/
theorem limit_kept (h : DexHistory b log) (ho : o ∈ log.orders) :
    log.sold o.txid * o.amountDesired ≤ log.bought o.txid * o.amountForSale := by
  obtain ⟨htracks, hlog⟩ := h.tracks
  rw [DexLog.sold, DexLog.bought, ← List.sum_map_mul_right, ← List.sum_map_mul_right]
  apply List.sum_le_sum
  intro x hx
  obtain ⟨hmaker, htaker⟩ := h.fair x hx
  obtain ⟨taker, ht, hproper⟩ := hlog.fills x hx
  obtain ⟨maker, hm, hpold⟩ := hproper.maker
  rw [DexFill.soldBy, DexFill.boughtBy]
  by_cases hnew : x.pnew.txid = o.txid
  · obtain rfl := htracks.eq_of_txid_eq ht ho (hproper.txid_taker.symm.trans hnew)
    have hold := ((htracks.sides hlog ho hx).1 hnew).2
    rw [hproper.taker] at htaker
    simpa [hnew, hold] using htaker
  · by_cases hold : x.pold.txid = o.txid
    · rw [hpold] at hmaker hold
      obtain rfl := htracks.eq_of_txid_eq hm ho hold
      rw [hpold]
      simpa [hnew] using hmaker
    · simp [hnew, hold]

/-- After any history the book holds only the unsold rests of orders, and an order rests in it,
was taken out of it unsold, or is sold completely. -/
theorem order_fates (h : DexHistory b log) :
    (∀ p r o', o' ∈ Book.level b p r →
      ∃ o ∈ log.orders, p = o.property ∧ r = o.unitPrice ∧ o' = log.rest o) ∧
    ∀ o ∈ log.orders, 0 ≤ log.sold o.txid ∧
      (log.rest o ∈ Book.level b o.property o.unitPrice ∧ o.txid ∉ log.removed ∧
          log.sold o.txid < o.amountForSale ∨
        ¬ DexLog.Rests b o.txid ∧ o.txid ∈ log.removed ∧ log.sold o.txid < o.amountForSale ∨
        ¬ DexLog.Rests b o.txid ∧ o.txid ∉ log.removed ∧ log.sold o.txid = o.amountForSale) := by
  obtain ⟨htracks, hlog⟩ := h.tracks
  constructor
  · intro p r o' ho'
    obtain ⟨o, ho, hp, hr, hrest, -⟩ := (htracks.mem_level p r o').mp ho'
    exact ⟨o, ho, hp, hr, hrest⟩
  · intro o ho
    refine ⟨hlog.sold_nonneg, ?_⟩
    rw [htracks.rests_iff ho]
    by_cases hin : o.txid ∈ log.removed
    · exact .inr (.inl ⟨fun hrests => hrests.1 hin, hin, htracks.removed_lt o ho hin⟩)
    · rcases (htracks.sold_le o ho).lt_or_eq with hlt | heq
      · refine .inl ⟨(htracks.mem_level _ _ _).mpr ?_, hin, hlt⟩
        exact ⟨o, ho, rfl, rfl, rfl, hin, hlt⟩
      · exact .inr (.inr ⟨fun hrests => hrests.2.ne heq, hin, heq⟩)

theorem exists_sampleTrades : ∃ b log, DexHistory b log ∧
    .incoming TradeCall.sampleTraders.1 100 4 1000 5 1000 1 1 ∈ log.orders ∧
    log.sold 1 = 1000 := by
  obtain ⟨⟨b, log⟩, hrun, hlog⟩ := exists_ok_of_map
    (g := fun r : MdPropertiesMap × DexLog => (r.2.orders.head?, r.2.sold 1))
    (x := DexLog.sampleTrades 1000)
    (b := (some (.incoming TradeCall.sampleTraders.1 100 4 1000 5 1000 1 1), 1000))
    (by decide +kernel)
  obtain ⟨hfirst, hsold⟩ := Prod.mk.inj hlog
  exact ⟨b, log, .of_sampleTrades (by decide) hrun, List.mem_of_head? hfirst, hsold⟩

theorem limit_kept_of_sampleTrades : ∃ b log, DexHistory b log ∧ log.sold 1 = 1000 ∧
    log.sold 1 * 1000 ≤ log.bought 1 * 1000 := by
  obtain ⟨b, log, h, ho, hsold⟩ := exists_sampleTrades
  exact ⟨b, log, h, hsold, h.limit_kept ho⟩

theorem order_fates_of_sampleTrades : ∃ b log, DexHistory b log ∧
    ¬ DexLog.Rests b 1 ∧ 1 ∉ log.removed := by
  obtain ⟨b, log, h, ho, hsold⟩ := exists_sampleTrades
  refine ⟨b, log, h, ?_⟩
  obtain ⟨-, ⟨-, -, hlt⟩ | ⟨-, -, hlt⟩ | ⟨hrests, hin, -⟩⟩ := h.order_fates.2 _ ho
  · exact absurd hsold hlt.ne
  · exact absurd hsold hlt.ne
  · exact ⟨hrests, hin⟩

end DexHistory

end TradeLayer
