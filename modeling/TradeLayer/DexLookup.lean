import TradeLayer.DexKept

namespace TradeLayer
open Library

namespace NodeState

/-- The property under which a payment looks for the accept: without free trading one of the
two base properties, with it the token for sale or else the first property with an accept
between the two. -/
def LooksUp (s : NodeState) (env : Environment) (seller buyer : Address) (block : Int)
    (p : PropertyId) : Prop :=
  (env.mscDebugDex = true → ∃ q, s.Paired seller buyer q) ∧
    if s.isFeatureActivated .freeDex block = true then
      s.getTokenForSale seller = some p ∨
        s.getTokenForSale seller = none ∧ s.FirstPaired seller buyer p
    else p = tlPropertyMsc ∨ p = tlPropertyTmsc ∧ s.getAccept seller tlPropertyMsc buyer = none

structure Locates (s : NodeState) (env : Environment) (seller buyer : Address) (block : Int)
    (p : PropertyId) (accept : Accept) : Prop where
  looksUp : s.LooksUp env seller buyer block p
  accept_eq : s.getAccept seller p buyer = some accept

/-- The accept of a payment is one of the payee on an offer of the payer. -/
structure Reversed (s : NodeState) (env : Environment) (seller buyer : Address) (block : Int)
    (p : PropertyId) (accept : Accept) : Prop where
  looksUp : s.LooksUp env seller buyer block p
  free : s.isFeatureActivated .freeDex block = true
  token : s.getTokenForSale seller = none
  none_eq : s.getAccept seller p buyer = none
  accept_eq : s.getAccept buyer p seller = some accept

variable {s : NodeState} {env : Environment} {seller buyer : Address} {p : PropertyId}
variable {block : Int} {found : FoundAccept} {accept : Accept}

theorem marketMaker_isSome :
    (s.marketMaker seller buyer).isSome = true ↔ ∃ p, s.Paired seller buyer p := by
  constructor
  · intro h
    obtain ⟨found, hfound⟩ := Option.isSome_iff_exists.mp h
    obtain ⟨p, hp, -⟩ := marketMaker_eq_some hfound
    exact ⟨p, hp.1⟩
  · rintro ⟨p, hone, hlast, hsp, haccept⟩
    rw [marketMaker, List.findSome?_isSome_iff]
    refine ⟨p, List.mem_range'_1.mpr ⟨hone, ?_⟩, ?_⟩
    · exact Nat.lt_of_lt_of_le hlast (by omega)
    · obtain ⟨entry, hentry⟩ := Option.isSome_iff_exists.mp hsp
      rw [hentry, Option.bind_some, Option.isSome_or, Bool.or_eq_true]
      simpa only [lookupAccept, Option.isSome_map] using haccept

theorem marketMaker_of_firstPaired (h : s.FirstPaired seller buyer p) :
    s.marketMaker seller buyer =
      (s.lookupAccept seller p buyer).or (s.lookupAccept buyer p seller) := by
  obtain ⟨found, hfound⟩ := Option.isSome_iff_exists.mp (marketMaker_isSome.mpr ⟨p, h.1⟩)
  obtain ⟨q, hq, hor⟩ := marketMaker_eq_some hfound
  rw [hfound, h.unique hq, hor]

theorem lookupAccept_of_some (h : s.getAccept seller p buyer = some accept) :
    s.lookupAccept seller p buyer = some ⟨p, seller, buyer, accept⟩ := by
  rw [lookupAccept, h, Option.map_some]

theorem lookupAccept_of_none (h : s.getAccept seller p buyer = none) :
    s.lookupAccept seller p buyer = none := by
  rw [lookupAccept, h, Option.map_none]

theorem LooksUp.paymentAccept_eq (h : s.LooksUp env seller buyer block p) :
    s.paymentAccept env seller buyer block =
      if ¬ s.isFeatureActivated .freeDex block then
        (s.lookupAccept seller tlPropertyMsc buyer).or
          (s.lookupAccept seller tlPropertyTmsc buyer)
      else
        match s.getTokenForSale seller with
        | some propertyId => s.lookupAccept seller propertyId buyer
        | none => s.marketMaker seller buyer := by
  have hseen : ¬ ((s.marketMaker seller buyer).isNone && env.mscDebugDex) = true := by
    intro hboth
    obtain ⟨hnone, hdebug⟩ := Bool.and_eq_true_iff.mp hboth
    have hsome := marketMaker_isSome.mpr (h.1 hdebug)
    rw [Option.isNone_iff_eq_none.mp hnone] at hsome
    cases hsome
  rw [paymentAccept]
  exact if_neg hseen

theorem Locates.paymentAccept_eq (h : s.Locates env seller buyer block p accept) :
    s.paymentAccept env seller buyer block = some ⟨p, seller, buyer, accept⟩ := by
  rw [h.looksUp.paymentAccept_eq]
  obtain ⟨⟨-, hp⟩, haccept⟩ := h
  by_cases hfree : s.isFeatureActivated .freeDex block = true
  · rw [if_neg (not_not_intro hfree)]
    rw [if_pos hfree] at hp
    rcases hp with htoken | ⟨htoken, hfirst⟩
    · rw [htoken]
      exact lookupAccept_of_some haccept
    · rw [htoken]
      dsimp only
      rw [marketMaker_of_firstPaired hfirst, lookupAccept_of_some haccept, Option.some_or]
  · rw [if_pos hfree]
    rw [if_neg hfree] at hp
    rcases hp with rfl | ⟨rfl, hnone⟩
    · rw [lookupAccept_of_some haccept, Option.some_or]
    · rw [lookupAccept_of_none hnone, Option.none_or, lookupAccept_of_some haccept]

theorem Reversed.paymentAccept_eq (h : s.Reversed env seller buyer block p accept) :
    s.paymentAccept env seller buyer block = some ⟨p, buyer, seller, accept⟩ := by
  rw [h.looksUp.paymentAccept_eq, if_neg (not_not_intro h.free), h.token]
  obtain ⟨⟨-, hp⟩, hfree, htoken, hnone, haccept⟩ := h
  rw [if_pos hfree, htoken] at hp
  rcases hp with hsome | ⟨-, hfirst⟩
  · cases hsome
  · dsimp only
    rw [marketMaker_of_firstPaired hfirst, lookupAccept_of_none hnone, Option.none_or,
      lookupAccept_of_some haccept]

/-- The accept of a payment is the payer's or the payee's. -/
theorem locates_or_reversed (h : s.paymentAccept env seller buyer block = some found) :
    (∃ p accept, s.Locates env seller buyer block p accept) ∨
      ∃ p accept, s.Reversed env seller buyer block p accept := by
  have hseen : env.mscDebugDex = true → ∃ q, s.Paired seller buyer q := by
    intro henv
    rw [← marketMaker_isSome]
    by_contra hnone
    have hskip : ((s.marketMaker seller buyer).isNone && env.mscDebugDex) = true := by
      rw [henv, Bool.and_true, ← Option.not_isSome, Bool.not_eq_true']
      exact eq_false_of_ne_true hnone
    simp only [paymentAccept, hskip, if_true] at h
    cases h
  rw [paymentAccept] at h
  split_ifs at h with hdebug hfree
  · split at h
    case h_1 token htoken =>
      obtain ⟨-, -, -, haccept⟩ := lookupAccept_eq_some h
      refine .inl ⟨token, found.accept, ⟨hseen, ?_⟩, haccept⟩
      rw [if_pos hfree]
      exact .inl htoken
    case h_2 htoken =>
      obtain ⟨p, hp, hor⟩ := marketMaker_eq_some h
      have hlooks : s.LooksUp env seller buyer block p := by
        refine ⟨hseen, ?_⟩
        rw [if_pos hfree]
        exact .inr ⟨htoken, hp⟩
      rcases Option.or_eq_some_iff.mp hor with hfound | ⟨hnone, hfound⟩
      · obtain ⟨-, -, -, haccept⟩ := lookupAccept_eq_some hfound
        exact .inl ⟨p, found.accept, hlooks, haccept⟩
      · obtain ⟨-, -, -, haccept⟩ := lookupAccept_eq_some hfound
        exact .inr ⟨p, found.accept, hlooks, hfree, htoken, Option.map_eq_none_iff.mp hnone,
          haccept⟩
  · rcases Option.or_eq_some_iff.mp h with h | ⟨hnone, h⟩
    · obtain ⟨-, -, -, haccept⟩ := lookupAccept_eq_some h
      refine .inl ⟨tlPropertyMsc, found.accept, ⟨hseen, ?_⟩, haccept⟩
      rw [if_neg hfree]
      exact .inl rfl
    · obtain ⟨-, -, -, haccept⟩ := lookupAccept_eq_some h
      refine .inl ⟨tlPropertyTmsc, found.accept, ⟨hseen, ?_⟩, haccept⟩
      rw [if_neg hfree]
      exact .inr ⟨rfl, Option.map_eq_none_iff.mp hnone⟩

theorem found_mem (h : s.paymentAccept env seller buyer block = some found) :
    s.myAccepts.get? found.key = some found.accept := by
  rcases locates_or_reversed h with ⟨p, accept, hl⟩ | ⟨p, accept, hr⟩
  · rw [hl.paymentAccept_eq] at h
    cases h
    exact hl.accept_eq
  · rw [hr.paymentAccept_eq] at h
    cases h
    exact hr.accept_eq

end NodeState

end TradeLayer
