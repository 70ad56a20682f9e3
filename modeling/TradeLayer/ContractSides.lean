import TradeLayer.InstantTrade

namespace TradeLayer
open Library

namespace ContractDex

def Opposite (o o' : ContractDex) : Prop :=
  o.addr ≠ o'.addr ∧ (o.tradingAction = actionBuy ∧ o'.tradingAction = actionSell ∨
    o.tradingAction = actionSell ∧ o'.tradingAction = actionBuy)

def unfilled (n : Int) (met : List ContractDex) : Int :=
  met.foldl (fun left o => max (left - o.amountForSale) 0) n

/-- Every order that is met while the new one has something left is opposite to it. -/
def MeetsOpposite (pnew : ContractDex) (met : List ContractDex) : Prop :=
  ∀ done pold rest, met = done ++ pold :: rest →
    min (unfilled pnew.amountForSale done) pold.amountForSale ≠ 0 → pnew.Opposite pold

variable {pnew pold o : ContractDex} {met : List ContractDex} {f : ContractDex × ContractDex}
theorem meetsOpposite_cons : pnew.MeetsOpposite (pold :: met) ↔
    (min pnew.amountForSale pold.amountForSale ≠ 0 → pnew.Opposite pold) ∧
      { pnew with amountForSale := max (pnew.amountForSale - pold.amountForSale) 0 }.MeetsOpposite
        met := by
  constructor
  · intro h
    refine ⟨h [] pold met rfl, ?_⟩
    intro done o rest hmet
    exact h (pold :: done) o rest (by rw [hmet, List.cons_append])
  · intro ⟨hfirst, hrest⟩ done o rest hmet
    cases done with
    | nil =>
      cases hmet
      exact hfirst
    | cons o' done =>
      rw [List.cons_append, List.cons.injEq] at hmet
      obtain ⟨rfl, hmet⟩ := hmet
      exact hrest done o rest hmet

theorem fst_of_mem_fillsAlong (h : f ∈ pnew.fillsAlong met) :
    f.1.addr = pnew.addr ∧ f.1.tradingAction = pnew.tradingAction := by
  induction met generalizing pnew with
  | nil => cases h
  | cons pold met ih =>
    rw [fillsAlong] at h
    split_ifs at h
    · exact ih h
    · cases h with
      | head => exact ⟨rfl, rfl⟩
      | tail _ h =>
        obtain ⟨n, n', hafter⟩ := afterMatch_eq pnew pold
        have hrest := ih h
        rw [hafter] at hrest
        exact hrest

theorem Opposite.action (h : pnew.Opposite pold) :
    pold.tradingAction = actionBuy ∨ pold.tradingAction = actionSell := by
  obtain ⟨-, ⟨-, hold⟩ | ⟨-, hold⟩⟩ := h
  · exact .inr hold
  · exact .inl hold

theorem opposite_fillsAlong_iff :
    (∀ f ∈ pnew.fillsAlong met, pnew.Opposite f.2) ↔ pnew.MeetsOpposite met := by
  induction met generalizing pnew with
  | nil =>
    constructor
    · intro _ done pold rest hmet
      simp at hmet
    · intro _ f hf
      cases hf
  | cons pold met ih =>
    have hleft : max (pnew.amountForSale - pold.amountForSale) 0 =
        pnew.amountForSale - nCouldBuy pnew pold := by
      rw [nCouldBuy_eq_min]
      omega
    rw [meetsOpposite_cons, hleft, ← nCouldBuy_eq_min, fillsAlong]
    split_ifs with hn
    · rw [hn, sub_zero]
      simpa using ih
    · rw [List.forall_mem_cons]
      simp only [ne_eq, hn, not_false_eq_true, forall_const]
      apply and_congr_right
      intro hopp
      rw [afterMatch_of_action hopp.action]
      exact ih

theorem change_of_sell (haddr : pold.addr ≠ pnew.addr) (hold : pold.tradingAction = actionSell)
    (c : PropertyId) :
    change (pnew, pold) pnew.addr c = if pold.property = c then nCouldBuy pnew pold else 0 := by
  simp [change, buyer, seller, hold, haddr]

theorem change_of_buy (haddr : pold.addr ≠ pnew.addr) (hold : pold.tradingAction = actionBuy)
    (c : PropertyId) :
    change (pnew, pold) pnew.addr c = if pold.property = c then -nCouldBuy pnew pold else 0 := by
  have hne : ¬ actionBuy = actionSell := by decide
  simp [change, buyer, seller, hold, haddr, hne]

theorem change_of_opposite (h : pnew.Opposite pold) (hn : 0 < nCouldBuy pnew pold)
    (c : PropertyId) :
    (pnew.tradingAction = actionBuy → 0 ≤ change (pnew, pold) pnew.addr c) ∧
      (pnew.tradingAction = actionSell → change (pnew, pold) pnew.addr c ≤ 0) := by
  have hne : actionBuy ≠ actionSell := by decide
  obtain ⟨haddr, ⟨hnew, hold⟩ | ⟨hnew, hold⟩⟩ := h
  · rw [hnew, change_of_sell haddr.symm hold]
    refine ⟨fun _ => ?_, fun hsell => absurd hsell hne⟩
    split_ifs <;> omega
  · rw [hnew, change_of_buy haddr.symm hold]
    refine ⟨fun hbuy => absurd hbuy.symm hne, fun _ => ?_⟩
    split_ifs <;> omega

theorem sum_change_of_opposite {fills : List (ContractDex × ContractDex)}
    (hfst : ∀ f ∈ fills, f.1.addr = o.addr ∧ f.1.tradingAction = o.tradingAction)
    (hopp : ∀ f ∈ fills, f.1.Opposite f.2) (hn : ∀ f ∈ fills, 0 < nCouldBuy f.1 f.2)
    (c : PropertyId) :
    (o.tradingAction = actionBuy → 0 ≤ (fills.map fun f => change f o.addr c).sum) ∧
      (o.tradingAction = actionSell → (fills.map fun f => change f o.addr c).sum ≤ 0) := by
  induction fills with
  | nil => simp
  | cons f fills ih =>
    obtain ⟨⟨haddr, haction⟩, hfst⟩ := List.forall_mem_cons.mp hfst
    obtain ⟨hopp, hopps⟩ := List.forall_mem_cons.mp hopp
    obtain ⟨hn, hns⟩ := List.forall_mem_cons.mp hn
    obtain ⟨hbuy, hsell⟩ := change_of_opposite hopp hn c
    obtain ⟨hbuys, hsells⟩ := ih hfst hopps hns
    rw [haddr, haction] at hbuy hsell
    rw [List.map_cons, List.sum_cons]
    exact ⟨fun h => add_nonneg (hbuy h) (hbuys h), fun h => add_nonpos (hsell h) (hsells h)⟩

end ContractDex

namespace NodeState

variable {s s' : NodeState} {env : Environment} {pnew pold o rest : ContractDex}
variable {price r : Nat} {p property : PropertyId} {orders : List (Nat × ContractDex)} {a : Address}
variable {c : PropertyId} {x : ContractDex × NodeState} {remaining : Int}

section Resting

theorem mem_level_replaceContract (hrest : rest.position = pold.position) :
    o ∈ Book.level (s.replaceContract property price pold rest remaining).contractdex p r ↔
      o ∈ Book.level s.contractdex p r ∧
          ¬ (p = property ∧ r = price ∧ o.position = pold.position) ∨
        0 < remaining ∧ p = property ∧ r = price ∧ o = rest := by
  have hnone : (Book.level (Book.remove s.contractdex property price pold.position) property
      price).find? rest.position = none := by
    rw [Keyed.find?_eq_none]
    intro x hx hpos
    exact (Book.mem_level_remove.mp hx).2 ⟨rfl, rfl, hpos.trans hrest⟩
  rw [replaceContract]
  dsimp only
  split_ifs with hrem
  · rw [Book.mem_level_file hnone, Book.mem_level_remove]
    simp only [hrem, true_and]
  · rw [Book.mem_level_remove]
    simp only [hrem, false_and, or_false]

theorem mem_level_of_meetAll (h : meetAll env orders pnew s = .ok x)
    (ho : o ∈ Book.level s.contractdex p r)
    (horders : ∀ e ∈ orders, p = pnew.property → e.1 = r → e.2.position = o.position → e.2 = o)
    (hfills : ∀ f ∈ pnew.fillsAlong (orders.map Prod.snd), f.2 ≠ o) :
    o ∈ Book.level x.2.contractdex p r := by
  induction orders generalizing pnew s with
  | nil =>
    cases h
    exact ho
  | cons e orders ih =>
    obtain ⟨price, pold⟩ := e
    obtain ⟨⟨pmid, m⟩, hm, hnext⟩ := bind_eq_ok.mp h
    obtain ⟨hfirst, horders⟩ := List.forall_mem_cons.mp horders
    rw [List.map_cons, ContractDex.fillsAlong] at hfills
    obtain ⟨-, -, ⟨hn, rfl, rfl⟩ | ⟨sp, m', hsp, hm', rfl, rfl⟩⟩ := matchContract_matched hm
    · rw [if_pos hn] at hfills
      exact ih hnext ho horders hfills
    · rw [if_neg hm'.positive.ne'] at hfills
      obtain ⟨hpold, hfills⟩ := List.forall_mem_cons.mp hfills
      obtain ⟨n, n', hafter⟩ := ContractDex.afterMatch_eq pnew pold
      apply ih hnext _ _ hfills
      · have hbook : m'.contractdex = s.contractdex := by rw [hm'.settled.frame]
        rw [mem_level_replaceContract (by rw [hafter]; rfl), hbook]
        refine .inl ⟨ho, ?_⟩
        rintro ⟨hp, hr, hpos⟩
        exact hpold (hfirst hp hr.symm hpos.symm)
      · rw [hafter]
        exact horders

theorem mem_level_insertRest (ho : o ∈ Book.level x.2.contractdex p r) :
    o ∈ Book.level (insertRest x).2.contractdex p r := by
  rcases insertRest_cases (r := x) with ⟨h, -⟩ | ⟨-, hnone, h⟩
  · rw [h]
    exact ho
  · rw [h]
    exact (Book.mem_level_file hnone).mpr (.inl ho)

end Resting

section Positions

theorem position_of_meetAll (hl : s.ledger.Nonneg) (h : meetAll env orders pnew s = .ok x) :
    (∀ f ∈ pnew.fillsAlong (orders.map Prod.snd), 0 < f.1.nCouldBuy f.2) ∧
      ∀ a c, x.2.ledger.position a c = s.ledger.position a c +
        ((pnew.fillsAlong (orders.map Prod.snd)).map fun f => ContractDex.change f a c).sum := by
  induction orders generalizing pnew s with
  | nil =>
    cases h
    simp [ContractDex.fillsAlong]
  | cons e orders ih =>
    obtain ⟨price, pold⟩ := e
    obtain ⟨⟨pmid, m⟩, hm, hnext⟩ := bind_eq_ok.mp h
    rw [List.map_cons, ContractDex.fillsAlong]
    obtain ⟨-, -, ⟨hn, rfl, rfl⟩ | ⟨sp, m', hsp, hm', rfl, rfl⟩⟩ := matchContract_matched hm
    · rw [if_pos hn]
      exact ih hl hnext
    · rw [if_neg hm'.positive.ne']
      obtain ⟨qs, hposted, -⟩ := hm'.posted
      obtain ⟨hpositive, hposition⟩ :=
        ih (s := m'.replaceContract _ _ _ _ _) (hposted.nonneg hl) hnext
      refine ⟨List.forall_mem_cons.mpr ⟨hm'.positive, hpositive⟩, ?_⟩
      intro a c
      have hmatch := position_of_matched (a := a) (c := c) hl hm'
      rw [hposition, List.map_cons, List.sum_cons, ← add_assoc, ← hmatch]
      rfl

end Positions

section Sides

/-- An order placed in one state traded only with opposite orders until the other. -/
structure TradesOpposite (s : NodeState) (o : ContractDex) (s' : NodeState) : Prop where
  fills : o.effectivePrice ≠ 0 → ∀ f ∈ s.fills o, f.1.Opposite f.2
  buys : o.tradingAction = actionBuy →
    s.ledger.position o.addr o.property ≤ s'.ledger.position o.addr o.property
  sells : o.tradingAction = actionSell →
    s'.ledger.position o.addr o.property ≤ s.ledger.position o.addr o.property
  consumed : ∀ p r, ∀ pold ∈ Book.level s.contractdex p r,
    pold ∉ Book.level s'.contractdex p r → o.Opposite pold

def MeetsOpposite (s : NodeState) (o : ContractDex) : Prop :=
  o.effectivePrice ≠ 0 → o.MeetsOpposite ((s.walk o).map Prod.snd)

theorem opposite_fills_iff : (∀ f ∈ s.fills o, f.1.Opposite f.2) ↔
    o.MeetsOpposite ((s.walk o).map Prod.snd) := by
  rw [← ContractDex.opposite_fillsAlong_iff]
  apply forall₂_congr
  intro f hf
  obtain ⟨haddr, haction⟩ := ContractDex.fst_of_mem_fillsAlong hf
  rw [ContractDex.Opposite, haddr, haction, ContractDex.Opposite]

theorem tradesOpposite_of_meetAll (hl : s.ledger.Nonneg)
    (h : meetAll env (s.walk o) o s = .ok x) (hopp : ∀ f ∈ s.fills o, f.1.Opposite f.2) :
    s.TradesOpposite o (insertRest x).2 := by
  obtain ⟨hpositive, hposition⟩ := position_of_meetAll hl h
  have hfst : ∀ f ∈ s.fills o, f.1.addr = o.addr ∧ f.1.tradingAction = o.tradingAction :=
    fun f hf => ContractDex.fst_of_mem_fillsAlong hf
  obtain ⟨hbuys, hsells⟩ := ContractDex.sum_change_of_opposite hfst hopp hpositive o.property
  have hmoved := hposition o.addr o.property
  rw [← insertRest_ledger] at hmoved
  constructor
  · exact fun _ => hopp
  · intro hbuy
    rw [hmoved]
    exact le_add_of_nonneg_right (hbuys hbuy)
  · intro hsell
    rw [hmoved]
    exact add_le_of_nonpos_right (hsells hsell)
  · intro p r pold hpold hgone
    by_contra hside
    apply hgone
    apply mem_level_insertRest
    apply mem_level_of_meetAll h hpold
    · intro e he hp hr hpos
      subst hp hr
      exact Keyed.eq_of_key_eq (mem_walk he).1 hpold hpos
    · intro f hf hfold
      obtain ⟨haddr, haction⟩ := hfst f hf
      have hside' := hopp f hf
      rw [ContractDex.Opposite, haddr, haction, hfold] at hside'
      exact hside hside'

/-- A new order trades only with opposite orders just when it meets no others before it is used
up. -/
theorem tradesOpposite_iff {n block rc : Int} {txid idx action : Nat} (hl : s.ledger.Nonneg)
    (h : s.contractDexAdd env a p n block txid idx price action = .ok (rc, s')) :
    s.TradesOpposite ⟨a, block, txid, idx, p, n, price, action⟩ s' ↔
      s.MeetsOpposite ⟨a, block, txid, idx, p, n, price, action⟩ := by
  constructor
  · intro htrades hprice
    exact opposite_fills_iff.mp (htrades.fills hprice)
  · intro hmeets
    by_cases hprice : price = 0
    · rw [contractDexAdd, if_pos hprice] at h
      cases h
      exact ⟨fun hne => absurd hprice hne, fun _ => le_refl _, fun _ => le_refl _,
        fun p r pold hpold hgone => absurd hpold hgone⟩
    · rw [contractDexAdd_eq (Nat.pos_of_ne_zero hprice)] at h
      obtain ⟨x, hx, hs'⟩ := exists_ok_of_map h
      have htrades := tradesOpposite_of_meetAll hl hx (opposite_fills_iff.mpr (hmeets hprice))
      rw [hs'] at htrades
      exact htrades

def sampleAsk : ContractDex := ⟨['b'], 101, 2, 1, 5, 3, 7, actionSell⟩

/-- Another order to buy rests at a higher price, and one at a lower price. -/
def sampleBids : NodeState :=
  { sampleBid with
    contractdex := Book.file
      (Book.file sampleBid.contractdex 5 8 ⟨['c'], 99, 3, 1, 5, 2, 8, actionBuy⟩)
      5 6 ⟨['d'], 98, 4, 1, 5, 9, 6, actionBuy⟩ }

theorem nonneg_sampleBid : sampleBid.ledger.Nonneg := by
  intro a p t _
  rw [money_sampleBid]

/-- An order to sell trades with it. -/
theorem tradesOpposite_of_sampleAsk :
    ∃ rc s', sampleBid.contractDexAdd (.plain .test) ['b'] 5 3 101 2 1 7 actionSell =
        .ok (rc, s') ∧
      s'.ledger.position ['b'] 5 = -3 ∧
      sampleBid.TradesOpposite ⟨['b'], 101, 2, 1, 5, 3, 7, actionSell⟩ s' := by
  obtain ⟨⟨rc, s'⟩, hrun, hposition⟩ := exists_ok_of_map
    (g := fun r => r.2.ledger.position ['b'] 5)
    (x := sampleBid.contractDexAdd (.plain .test) ['b'] 5 3 101 2 1 7 actionSell) (b := -3)
    (by decide +kernel)
  have hwalk : (sampleBid.walk ⟨['b'], 101, 2, 1, 5, 3, 7, actionSell⟩).map Prod.snd =
      [⟨['a'], 100, 1, 1, 5, 5, 7, actionBuy⟩] := by
    decide +kernel
  refine ⟨rc, s', hrun, hposition, (tradesOpposite_iff nonneg_sampleBid hrun).mpr ?_⟩
  intro _
  rw [hwalk, ContractDex.meetsOpposite_cons]
  refine ⟨fun _ => ⟨by decide, .inr ⟨rfl, rfl⟩⟩, ?_⟩
  intro done pold rest hmet
  simp at hmet

/-- Another order to buy trades with it as well, and its owner has sold. -/
theorem not_tradesOpposite_of_sampleBids :
    ∃ rc s', sampleBid.contractDexAdd (.plain .test) ['b'] 5 3 101 2 1 7 actionBuy =
        .ok (rc, s') ∧
      s'.ledger.position ['b'] 5 = -3 ∧
      ¬ sampleBid.TradesOpposite ⟨['b'], 101, 2, 1, 5, 3, 7, actionBuy⟩ s' := by
  obtain ⟨⟨rc, s'⟩, hrun, hposition⟩ := exists_ok_of_map
    (g := fun r => r.2.ledger.position ['b'] 5)
    (x := sampleBid.contractDexAdd (.plain .test) ['b'] 5 3 101 2 1 7 actionBuy) (b := -3)
    (by decide +kernel)
  refine ⟨rc, s', hrun, hposition, ?_⟩
  intro htrades
  have hbuys := htrades.buys rfl
  have hbefore : sampleBid.ledger.position ['b'] 5 = 0 := by decide +kernel
  dsimp only at hbuys hposition
  rw [hbefore, hposition] at hbuys
  exact absurd hbuys (by decide)

end Sides

end NodeState

end TradeLayer
