import TradeLayer.ContractQuantities

namespace TradeLayer
open Library

namespace NodeState

variable {s s' m : NodeState} {env : Environment} {pnew pnew' pold o rest : ContractDex}
variable {price r : Nat} {p property : PropertyId} {e : Nat × ContractDex}
variable {orders : List (Nat × ContractDex)} {x : ContractDex × NodeState} {remaining : Int}
variable {k : Int ×ₗ Nat}

theorem find?_level_replaceContract (hrest : rest.position = pold.position) :
    (Book.level (s.replaceContract property price pold rest remaining).contractdex p r).find? k =
      if p = property ∧ r = price ∧ k = pold.position then
        if 0 < remaining then some rest else none
      else (Book.level s.contractdex p r).find? k := by
  ext o
  rw [Keyed.find?_eq_some, mem_level_replaceContract hrest]
  by_cases hplace : p = property ∧ r = price ∧ k = pold.position
  · obtain ⟨rfl, rfl, rfl⟩ := hplace
    simp only [true_and, and_self, if_true]
    by_cases hpos : 0 < remaining
    · rw [if_pos hpos, Option.some.injEq]
      constructor
      · rintro ⟨⟨-, hne⟩ | ⟨-, rfl⟩, hk⟩
        · exact absurd hk hne
        · rfl
      · rintro rfl
        exact ⟨.inr ⟨hpos, rfl⟩, hrest⟩
    · rw [if_neg hpos]
      simp only [hpos, false_and, or_false, reduceCtorEq, iff_false]
      rintro ⟨⟨-, hne⟩, hk⟩
      exact hne hk
  · rw [if_neg hplace, Keyed.find?_eq_some]
    constructor
    · rintro ⟨⟨ho, -⟩ | ⟨-, rfl, rfl, rfl⟩, hk⟩
      · exact ⟨ho, hk⟩
      · exact absurd ⟨rfl, rfl, hk.symm.trans hrest⟩ hplace
    · rintro ⟨ho, rfl⟩
      exact ⟨.inl ⟨ho, hplace⟩, rfl⟩

def amountLeft (s : NodeState) (p : PropertyId) (e : Nat × ContractDex) : Int :=
  ((Book.level s.contractdex p e.1).find? e.2.position).elim 0 ContractDex.amountForSale

theorem amountLeft_of_mem (h : e.2 ∈ Book.level s.contractdex p e.1) :
    s.amountLeft p e = e.2.amountForSale := by
  rw [amountLeft, Keyed.mem_iff_find?.mp h]
  rfl

def SamePlace (e e' : Nat × ContractDex) : Prop :=
  e.1 = e'.1 ∧ e.2.position = e'.2.position

theorem find?_of_matchContract (h : s.matchContract env price pnew pold = .ok (pnew', s'))
    (hplace : ¬ SamePlace e (price, pold)) :
    (Book.level s'.contractdex pnew.property e.1).find? e.2.position =
      (Book.level s.contractdex pnew.property e.1).find? e.2.position := by
  obtain ⟨-, -, ⟨-, rfl, rfl⟩ | ⟨sp, m, -, hm, rfl, rfl⟩⟩ := matchContract_matched h
  · rfl
  · obtain ⟨n, n', hafter⟩ := ContractDex.afterMatch_eq pnew pold
    rw [find?_level_replaceContract (by rw [hafter]; rfl), if_neg fun hp => hplace hp.2,
      hm.settled.frame]

theorem property_of_matchContract (h : s.matchContract env price pnew pold = .ok (pnew', s')) :
    pnew'.property = pnew.property := by
  obtain ⟨-, -, ⟨-, rfl, -⟩ | ⟨sp, m, -, -, rfl, -⟩⟩ := matchContract_matched h
  · rfl
  · obtain ⟨n, n', hafter⟩ := ContractDex.afterMatch_eq pnew pold
    rw [hafter]

theorem amountLeft_of_meetAll (h : meetAll env orders pnew s = .ok x)
    (hplace : ∀ e' ∈ orders, ¬ SamePlace e e') :
    x.2.amountLeft pnew.property e = s.amountLeft pnew.property e := by
  induction orders generalizing pnew s with
  | nil =>
    cases h
    rfl
  | cons e' orders ih =>
    obtain ⟨price, pold⟩ := e'
    obtain ⟨⟨pmid, m⟩, hm, hnext⟩ := bind_eq_ok.mp h
    obtain ⟨hfirst, hplace⟩ := List.forall_mem_cons.mp hplace
    have hlater := ih hnext hplace
    rw [property_of_matchContract hm] at hlater
    rw [hlater, amountLeft, find?_of_matchContract hm hfirst, amountLeft]

theorem matchContract_next (h : s.matchContract env price pnew pold = .ok (pnew', s')) :
    pnew' = pnew.next pold := by
  rw [ContractDex.next]
  obtain ⟨-, -, ⟨hn, rfl, -⟩ | ⟨sp, m, -, hm, rfl, -⟩⟩ := matchContract_matched h
  · rw [if_pos hn]
  · rw [if_neg hm.positive.ne']

theorem proper_of_meetAll (h : meetAll env orders pnew s = .ok x) (hn : 0 ≤ pnew.amountForSale) :
    ∀ e ∈ orders, 0 ≤ e.2.amountForSale ∧ e.2.effectivePrice = e.1 := by
  induction orders generalizing pnew s with
  | nil => simp
  | cons e orders ih =>
    obtain ⟨price, pold⟩ := e
    obtain ⟨⟨pmid, m⟩, hm, hnext⟩ := bind_eq_ok.mp h
    have hmid := matchContract_next hm
    subst hmid
    rw [List.forall_mem_cons]
    refine ⟨⟨?_, (matchContract_matched hm).1⟩, ih hnext (ContractDex.amount_next_nonneg hn)⟩
    have hmin : pnew.nCouldBuy pold = min pnew.amountForSale pold.amountForSale :=
      ContractDex.nCouldBuy_eq_min
    obtain ⟨-, -, ⟨hzero, -⟩ | ⟨sp, m', -, hm', -⟩⟩ := matchContract_matched hm
    · dsimp only
      omega
    · have hpos := hm'.positive
      dsimp only
      omega

theorem amount_of_meetAll_zero (h : meetAll env orders pnew s = .ok x)
    (hn : pnew.amountForSale = 0) : x.1.amountForSale = 0 := by
  induction orders generalizing pnew s with
  | nil =>
    cases h
    exact hn
  | cons e orders ih =>
    obtain ⟨⟨pmid, m⟩, hm, hnext⟩ := bind_eq_ok.mp h
    obtain ⟨-, -, ⟨-, rfl, -⟩ | ⟨sp, m', -, hm', -⟩⟩ := matchContract_matched hm
    · exact ih hnext hn
    · have hpos := hm'.positive
      rw [ContractDex.nCouldBuy_eq_min] at hpos
      omega

theorem amountLeft_replaceContract :
    (m.replaceContract pnew.property price pold (pnew.afterMatch pold).1
        (ContractDex.remaining pnew pold)).amountLeft pnew.property (price, pold) =
      if pnew.amountForSale = pold.amountForSale then 0
      else (pnew.afterMatch pold).1.amountForSale := by
  obtain ⟨n, n', hafter⟩ := ContractDex.afterMatch_eq pnew pold
  rw [amountLeft, find?_level_replaceContract (by rw [hafter]; rfl), if_pos ⟨rfl, rfl, rfl⟩,
    ContractDex.remaining_eq]
  by_cases heq : pnew.amountForSale = pold.amountForSale
  · rw [if_pos heq, heq, sub_self, abs_zero, if_neg (lt_irrefl 0)]
    rfl
  · rw [if_neg heq, if_pos (abs_pos.mpr (sub_ne_zero.mpr heq))]
    rfl

theorem amountLeft_of_trades (h : s.matchContract env price pnew pold = .ok (pnew', s'))
    (hold : pold ∈ Book.level s.contractdex pnew.property price)
    (htrades : pnew.nCouldBuy pold = 0 ∨
      ContractDex.trades pnew.amountForSale pold = true) :
    s'.amountLeft pnew.property (price, pold) =
      pold.amountForSale - pnew.nCouldBuy pold := by
  obtain ⟨-, -, ⟨hn, rfl, rfl⟩ | ⟨sp, m, -, hm, rfl, rfl⟩⟩ := matchContract_matched h
  · rw [hn, sub_zero]
    exact amountLeft_of_mem hold
  · rw [amountLeft_replaceContract,
      ContractDex.afterMatch_eq_of_trades (htrades.resolve_left hm.positive.ne')]
    split_ifs with heq
    · rw [ContractDex.nCouldBuy_eq_min, heq, min_self, sub_self]
    · rfl

theorem amountLeft_of_not_trades (h : s.matchContract env price pnew pold = .ok (pnew', s'))
    (hn : pnew.nCouldBuy pold ≠ 0)
    (htrades : ContractDex.trades pnew.amountForSale pold = false) :
    s'.amountLeft pnew.property (price, pold) = pold.amountForSale := by
  obtain ⟨-, -, ⟨hzero, -⟩ | ⟨sp, m, -, hm, rfl, rfl⟩⟩ := matchContract_matched h
  · exact absurd hzero hn
  · have hne : pnew.amountForSale ≠ pold.amountForSale := by
      intro heq
      simp [ContractDex.trades, heq] at htrades
    rw [amountLeft_replaceContract, ContractDex.afterMatch_of_not_trades htrades, if_neg hne]

/-- The quantities of a run of the loop: the fills and the rest of the new order make up its
amount, what is left of an old order is short of its fills, and something is left of one only if
the new order is used up. -/
structure Conserves (orders : List (Nat × ContractDex)) (pnew : ContractDex)
    (x : ContractDex × NodeState) : Prop where
  total : ((pnew.fillsAlong (orders.map Prod.snd)).map fun f =>
    f.1.nCouldBuy f.2).sum + x.1.amountForSale = pnew.amountForSale
  drops : ∀ e ∈ orders, x.2.amountLeft pnew.property e +
    ContractDex.filled (pnew.fillsAlong (orders.map Prod.snd)) e.2 = e.2.amountForSale
  exhausted : ∀ e ∈ orders, 0 < x.2.amountLeft pnew.property e → x.1.amountForSale = 0

theorem filled_eq_zero_of_new (hnew : ∀ e' ∈ orders, e'.2 ≠ o) :
    ContractDex.filled (pnew.fillsAlong (orders.map Prod.snd)) o = 0 := by
  apply ContractDex.filled_eq_zero
  intro f hf
  obtain ⟨e', he', heq⟩ := List.mem_map.mp (ContractDex.snd_of_mem_fillsAlong hf)
  exact heq ▸ hnew e' he'

theorem conserves_cons (hproperty : (pnew.next e.2).property = pnew.property)
    (hamount : (pnew.next e.2).amountForSale =
      pnew.amountForSale - ContractDex.nCouldBuy pnew e.2)
    (hleft : x.2.amountLeft pnew.property e = e.2.amountForSale - ContractDex.nCouldBuy pnew e.2)
    (hdone : 0 < x.2.amountLeft pnew.property e → x.1.amountForSale = 0)
    (hnew : ∀ e' ∈ orders, e'.2 ≠ e.2) :
    Conserves (e :: orders) pnew x ↔ Conserves orders (pnew.next e.2) x := by
  have hothers : ∀ e' ∈ orders,
      ContractDex.filled (pnew.fillsAlong ((e :: orders).map Prod.snd)) e'.2 =
        ContractDex.filled ((pnew.next e.2).fillsAlong (orders.map Prod.snd)) e'.2 := by
    intro e' he'
    rw [List.map_cons, ContractDex.filled_fillsAlong_cons, if_neg (hnew e' he').symm, zero_add]
  constructor
  · rintro ⟨htotal, hdrops, hexhausted⟩
    rw [List.map_cons, ContractDex.sum_fillsAlong_cons] at htotal
    refine ⟨by omega, ?_, ?_⟩
    · intro e' he'
      rw [hproperty, ← hothers e' he']
      exact hdrops e' (List.mem_cons_of_mem _ he')
    · intro e' he'
      rw [hproperty]
      exact hexhausted e' (List.mem_cons_of_mem _ he')
  · rintro ⟨htotal, hdrops, hexhausted⟩
    constructor
    · rw [List.map_cons, ContractDex.sum_fillsAlong_cons]
      omega
    · rw [List.forall_mem_cons]
      constructor
      · rw [List.map_cons, ContractDex.filled_fillsAlong_cons, if_pos rfl,
          filled_eq_zero_of_new hnew, hleft]
        omega
      · intro e' he'
        rw [hothers e' he', ← hproperty]
        exact hdrops e' he'
    · rw [List.forall_mem_cons]
      refine ⟨hdone, ?_⟩
      intro e' he'
      rw [← hproperty]
      exact hexhausted e' he'

/-- The quantities come out if and only if the amount fits the orders on the way. -/
theorem conserves_iff (h : meetAll env orders pnew s = .ok x) (hn : 0 ≤ pnew.amountForSale)
    (hresting : ∀ e ∈ orders, e.2 ∈ Book.level s.contractdex pnew.property e.1)
    (hplaces : orders.Pairwise fun e e' => ¬ SamePlace e e') :
    Conserves orders pnew x ↔ ContractDex.Fits pnew.amountForSale (orders.map Prod.snd) := by
  induction orders generalizing pnew s with
  | nil =>
    cases h
    exact iff_of_true ⟨by simp [ContractDex.fillsAlong], by simp, by simp⟩ ContractDex.fits_nil
  | cons e orders ih =>
    obtain ⟨price, pold⟩ := e
    have hproper := proper_of_meetAll h hn
    obtain ⟨⟨pmid, m⟩, hm, hnext⟩ := bind_eq_ok.mp h
    have hproperty := property_of_matchContract hm
    obtain rfl := matchContract_next hm
    obtain ⟨hpold, hresting⟩ := List.forall_mem_cons.mp hresting
    obtain ⟨hplace, hplaces⟩ := List.pairwise_cons.mp hplaces
    have hnonneg : ∀ o ∈ pold :: orders.map Prod.snd, 0 ≤ o.amountForSale := by
      intro o ho
      obtain ⟨e, he, rfl⟩ : ∃ e ∈ (price, pold) :: orders, e.2 = o := List.mem_map.mp ho
      exact (hproper e he).1
    have hnew : ∀ e ∈ orders, e.2 ≠ pold := by
      intro e he heq
      obtain ⟨⟨-, hfirst⟩, hrest⟩ := List.forall_mem_cons.mp hproper
      refine hplace e he ⟨?_, by rw [heq]⟩
      rw [← (hrest e he).2, heq, ← hfirst]
    have hlater : x.2.amountLeft pnew.property (price, pold) =
        m.amountLeft pnew.property (price, pold) := by
      rw [← hproperty]
      exact amountLeft_of_meetAll hnext hplace
    by_cases htrades : pnew.nCouldBuy pold = 0 ∨
        ContractDex.trades pnew.amountForSale pold = true
    · have hamount := ContractDex.amount_next htrades
      have hleft := hlater.trans (amountLeft_of_trades hm hpold htrades)
      rw [List.map_cons, ContractDex.fits_cons_of_trades hnonneg htrades,
        conserves_cons hproperty hamount hleft ?_ hnew]
      · apply ih hnext (ContractDex.amount_next_nonneg hn) _ hplaces
        intro e he
        have hsame := find?_of_matchContract hm fun hs => hplace e he ⟨hs.1.symm, hs.2.symm⟩
        rw [hproperty, Keyed.mem_iff_find?, hsame, ← Keyed.mem_iff_find?]
        exact hresting e he
      · intro hpos
        rw [hleft, ContractDex.nCouldBuy_eq_min] at hpos
        apply amount_of_meetAll_zero hnext
        rw [hamount, ContractDex.nCouldBuy_eq_min]
        omega
    · obtain ⟨hne, htrades⟩ := not_or.mp htrades
      have hpositive : 0 < pnew.nCouldBuy pold := by
        rw [ContractDex.nCouldBuy_eq_min] at hne ⊢
        have hfirst := hnonneg pold List.mem_cons_self
        omega
      apply iff_of_false
      · rintro ⟨-, hdrops, -⟩
        have hdrop := hdrops (price, pold) List.mem_cons_self
        rw [hlater, amountLeft_of_not_trades hm hne (by simpa using htrades), List.map_cons,
          ContractDex.filled_fillsAlong_cons, if_pos rfl, filled_eq_zero_of_new hnew] at hdrop
        dsimp only at hdrop
        omega
      · rw [List.map_cons, ContractDex.fits_cons]
        rintro ⟨hfirst, -⟩
        dsimp only at hfirst
        rw [ContractDex.nCouldBuy_eq_min, lt_min_iff] at hpositive
        rcases hfirst with hzero | hnone | hyes
        · omega
        · omega
        · exact htrades hyes

end NodeState

end TradeLayer
