import TradeLayer.Circulation
import TradeLayer.Crash
import TradeLayer.MetaDExReserve

namespace TradeLayer
open Library

namespace NodeState

variable {s s' m : NodeState} {e : PropertyId × ℚ × MetaDEx}
  {orders : List (PropertyId × ℚ × MetaDEx)}

/-- A book of proper orders, each under its property and price, whose reserves are there, and
tokens that fit a signed variable all together. -/
structure BookInvariant (s : NodeState) : Prop where
  inRange : s.ledger.InRange
  remaining : ∀ {p r o}, o ∈ Book.level s.metadex p r →
    0 < o.amountRemaining ∧ o.amountRemaining ≤ o.amountForSale
  desired : ∀ {p r o}, o ∈ Book.level s.metadex p r → 0 < o.amountDesired
  le_max : ∀ {p r o}, o ∈ Book.level s.metadex p r →
    o.amountForSale ≤ int64Max ∧ o.amountDesired ≤ int64Max
  place : ∀ {p r o}, o ∈ Book.level s.metadex p r → p = o.property ∧ r = o.unitPrice
  covered : ∀ a p, Book.total s.metadex (MetaDEx.reserves a p) ≤
    s.ledger.money a p .metadexReserve
  capped : ∀ p, s.ledger.circulation p ≤ int64Max

def refund (e : PropertyId × ℚ × MetaDEx) : List (Posting Account) :=
  Posting.transfer ⟨e.2.2.addr, e.2.2.property, .metadexReserve⟩
    ⟨e.2.2.addr, e.2.2.property, .balance⟩ e.2.2.amountRemaining

theorem supply_add_supply_le (hl : s.ledger.InRange) (p : PropertyId) :
    s.ledger.supply p .balance + s.ledger.supply p .metadexReserve ≤ s.ledger.circulation p := by
  have hsell := hl.nonneg.supply_nonneg (p := p) (t := .sellOfferReserve) (by decide)
  have haccept := hl.nonneg.supply_nonneg (p := p) (t := .acceptReserve) (by decide)
  simp only [Ledger.circulation, circulatingTallies, List.map_cons, List.map_nil, List.sum_cons,
    List.sum_nil]
  omega

theorem balance_add_reserve_le (hl : s.ledger.InRange) (a b : Address) (p : PropertyId) :
    s.ledger.money a p .balance + s.ledger.money b p .metadexReserve ≤
      s.ledger.circulation p := by
  have hbalance := hl.nonneg.money_le_supply (a := a) (p := p) (t := .balance) (by decide)
  have hreserve := hl.nonneg.money_le_supply (a := b) (p := p) (t := .metadexReserve) (by decide)
  have hsum := supply_add_supply_le hl p
  omega

namespace BookInvariant

theorem reserves_nonneg (h : s.BookInvariant) {a : Address} {p : PropertyId}
    (he : e ∈ Book.entries s.metadex) : 0 ≤ MetaDEx.reserves a p e.2.2 := by
  unfold MetaDEx.reserves
  split_ifs
  · exact (h.remaining (Book.mem_entries.mp he)).1.le
  · exact le_rfl

theorem remaining_le_reserve (h : s.BookInvariant) (he : e ∈ Book.entries s.metadex) :
    e.2.2.amountRemaining ≤ s.ledger.money e.2.2.addr e.2.2.property .metadexReserve := by
  have hself : MetaDEx.reserves e.2.2.addr e.2.2.property e.2.2 = e.2.2.amountRemaining :=
    if_pos ⟨rfl, rfl⟩
  have hcovered := h.covered e.2.2.addr e.2.2.property
  rw [Book.total_eq_sum_entries] at hcovered
  have hterm : MetaDEx.reserves e.2.2.addr e.2.2.property e.2.2 ∈
      (Book.entries s.metadex).map fun e' => MetaDEx.reserves e.2.2.addr e.2.2.property e'.2.2 :=
    List.mem_map.mpr ⟨e, he, rfl⟩
  rw [← hself]
  refine le_trans (List.single_le_sum ?_ _ hterm) hcovered
  intro x hx
  obtain ⟨e', he', rfl⟩ := List.mem_map.mp hx
  exact h.reserves_nonneg he'

theorem covers_refund (h : s.BookInvariant) (he : e ∈ Book.entries s.metadex) :
    s.ledger.Covers (refund e) := by
  obtain ⟨p₀, r₀, o⟩ := e
  obtain ⟨hpos, -⟩ := h.remaining (Book.mem_entries.mp he)
  have hreserve := h.remaining_le_reserve he
  have hsum := (balance_add_reserve_le h.inRange o.addr o.addr o.property).trans
    (h.capped o.property)
  refine (Ledger.covers_transfer h.inRange ?_ hpos ?_ ?_).mpr ⟨?_, hreserve, ?_⟩
  · simp
  · simp
  · simp
  · exact fun hd => absurd hd.1 (by simp)
  · simp only [Ledger.amountAt] at hsum ⊢
    dsimp only at hreserve
    omega

theorem cancelOrder (h : s.BookInvariant) (he : e ∈ Book.entries s.metadex) :
    ∃ s', s.cancelOrder e = .ok s' ∧ s'.BookInvariant := by
  obtain ⟨m, hm⟩ := exists_assertTallies h.inRange (h.covers_refund he)
    (Ledger.plain_transfer ⟨by simp, by simp⟩ ⟨by simp, by simp⟩)
  obtain ⟨p₀, r₀, o⟩ := e
  refine ⟨_, by rw [NodeState.cancelOrder, ← refund, hm]; rfl, ?_⟩
  have hposted := posted_of_assertTallies hm
  have hrange := inRange_of_assertTallies h.inRange hm
  have hsub : ∀ {p r x}, x ∈ Book.level (Book.remove m.metadex p₀ r₀ o.position) p r →
      x ∈ Book.level s.metadex p r := by
    intro p r x hx
    rw [hposted.1] at hx
    exact (Book.mem_level_remove.mp hx).1
  refine ⟨hrange, fun hx => h.remaining (hsub hx), fun hx => h.desired (hsub hx),
    fun hx => h.le_max (hsub hx), fun hx => h.place (hsub hx), ?_, ?_⟩
  · intro a p
    have hmoney : m.ledger.money a p .metadexReserve =
        s.ledger.money a p .metadexReserve - MetaDEx.reserves a p o := by
      rw [hposted.2.money_eq]
      simp only [refund, Posting.net_transfer_eq, Account.mk.injEq, reduceCtorEq, and_false,
        if_false, and_true, MetaDEx.reserves]
      ring
    have hbook : m.metadex = s.metadex := by rw [hposted.1]
    change Book.total (Book.remove m.metadex p₀ r₀ o.position) _ ≤
      m.ledger.money a p .metadexReserve
    rw [hmoney, hbook, Book.total_remove (Book.mem_entries.mp he)]
    exact sub_le_sub_right (h.covered a p) _
  · intro p
    have hbalanced : Balanced (refund (p₀, r₀, o)) :=
      Balanced.transfer (by decide) (by decide)
    change m.ledger.circulation p ≤ int64Max
    rw [hposted.2.circulation_eq, hbalanced p, add_zero]
    exact h.capped p

end BookInvariant

/-- Exactly the given orders are gone, what they reserved is back in the balances, and nothing
else has changed. -/
structure Refunded (orders : List (PropertyId × ℚ × MetaDEx)) (s s' : NodeState) : Prop where
  frame : s' = { s with ledger := s'.ledger, metadex := s'.metadex }
  posted : s.ledger.Posted (orders.flatMap refund) s'.ledger
  mem_entries : ∀ e, e ∈ Book.entries s'.metadex ↔ e ∈ Book.entries s.metadex ∧ e ∉ orders

theorem refunded_of_cancelOrder (he : e ∈ Book.entries s.metadex)
    (h : s.cancelOrder e = .ok s') : Refunded [e] s s' := by
  obtain ⟨m, hposted, rfl⟩ := cancelOrder_cases h
  refine ⟨?_, by simpa [refund] using hposted.2, ?_⟩
  · rw [hposted.1]
  · rintro ⟨p, r, x⟩
    obtain ⟨p₀, r₀, o⟩ := e
    have hmem := Book.mem_entries.mp he
    rw [Book.mem_entries, Book.mem_level_remove, Book.mem_entries, List.mem_singleton]
    refine and_congr_right fun hx => not_congr ⟨?_, ?_⟩
    · rintro ⟨rfl, rfl, hpos⟩
      rw [Keyed.eq_of_key_eq hx hmem hpos]
    · intro heq
      cases heq
      exact ⟨rfl, rfl, rfl⟩

theorem Refunded.trans {rest : List (PropertyId × ℚ × MetaDEx)} (h : Refunded orders s m)
    (h' : Refunded rest m s') : Refunded (orders ++ rest) s s' where
  frame := by rw [h'.frame, h.frame]
  posted := by
    rw [List.flatMap_append]
    exact h.posted.trans h'.posted
  mem_entries e := by
    rw [h'.mem_entries, h.mem_entries, List.mem_append]
    tauto

theorem BookInvariant.cancelAll (h : s.BookInvariant)
    (hmem : ∀ e ∈ orders, e ∈ Book.entries s.metadex) (hnodup : orders.Nodup) :
    ∃ s', orders.foldlM NodeState.cancelOrder s = .ok s' ∧ Refunded orders s s' ∧
      s'.BookInvariant := by
  induction orders generalizing s with
  | nil => exact ⟨s, rfl, ⟨rfl, .nil _, by simp⟩, h⟩
  | cons e orders ih =>
    obtain ⟨hnew, hnodup⟩ := List.nodup_cons.mp hnodup
    obtain ⟨he, hmem⟩ := List.forall_mem_cons.mp hmem
    obtain ⟨m, hm, hinv⟩ := h.cancelOrder he
    have hfirst := refunded_of_cancelOrder he hm
    have hrest : ∀ e' ∈ orders, e' ∈ Book.entries m.metadex := by
      intro e' he'
      refine (hfirst.mem_entries e').mpr ⟨hmem e' he', ?_⟩
      rw [List.mem_singleton]
      rintro rfl
      exact hnew he'
    obtain ⟨s', hs', hrefunded, hinv'⟩ := ih hinv hrest hnodup
    refine ⟨s', ?_, hfirst.trans hrefunded, hinv'⟩
    rw [List.foldlM_cons, hm, ok_bind, hs']

theorem net_refunds {a : Address} {p : PropertyId} {t : TallyType} :
    Posting.net (· = ⟨a, p, t⟩) (orders.flatMap refund) =
      (if t = .balance then (orders.map fun e => MetaDEx.reserves a p e.2.2).sum else 0) -
        if t = .metadexReserve then (orders.map fun e => MetaDEx.reserves a p e.2.2).sum
        else 0 := by
  induction orders with
  | nil => simp
  | cons e orders ih =>
    simp only [List.flatMap_cons, Posting.net_append, ih, refund, Posting.net_transfer_eq,
      Account.mk.injEq, List.map_cons, List.sum_cons, MetaDEx.reserves]
    by_cases hb : t = .balance
    · subst hb
      simp
    · by_cases hr : t = .metadexReserve
      · subst hr
        simp
        ring
      · simp [hb, hr, Ne.symm hb, Ne.symm hr]

end NodeState

section OneOrder

variable {ps : List (Posting Account)} {x : Posting Account} {p : PropertyId} {o : MetaDEx}

theorem Ledger.ofPostings_concat : Ledger.ofPostings (ps ++ [x]) =
    (Ledger.ofPostings ps).setTally x.account.owner (((Ledger.ofPostings ps).tally
      x.account.owner).updateMoney x.account.property x.amount x.account.ttype).2 := by
  rw [Ledger.ofPostings, List.foldl_append]
  rfl

theorem Ledger.circulation_ofPostings_le :
    (Ledger.ofPostings ps).circulation p ≤ (ps.map fun x => |x.amount|).sum := by
  induction ps using List.reverseRecOn with
  | nil => simp [Ledger.ofPostings, Ledger.circulation, Ledger.supply, circulatingTallies]
  | append_singleton ps x ih =>
    have hsupply (t : TallyType) : (Ledger.ofPostings (ps ++ [x])).supply p t ≤
        (Ledger.ofPostings ps).supply p t + if t = x.account.ttype then |x.amount| else 0 := by
      rw [Ledger.ofPostings_concat, Ledger.supply_setTally, Tally.getMoney_updateMoney,
        Ledger.money]
      have habs := le_abs_self x.amount
      have hnonneg := abs_nonneg x.amount
      split_ifs <;> simp_all
    have hb := hsupply .balance
    have hs := hsupply .sellOfferReserve
    have ha := hsupply .acceptReserve
    have hm := hsupply .metadexReserve
    have habs := abs_nonneg x.amount
    rw [List.map_append, List.sum_append]
    simp only [Ledger.circulation, circulatingTallies, List.map_cons, List.map_nil, List.sum_cons,
      List.sum_nil] at ih ⊢
    cases htype : x.account.ttype <;> rw [htype] at hb hs ha hm <;>
      simp only [reduceCtorEq, if_true, if_false] at hb hs ha hm <;> omega

def NodeState.oneOrder (o : MetaDEx) (funds : List (Posting Account)) : NodeState :=
  { NodeState.initial .main .zero with
    ledger := .ofPostings (funds ++ [⟨⟨o.addr, o.property, .metadexReserve⟩, o.amountRemaining⟩])
    metadex := Book.file ∅ o.property o.unitPrice o }

theorem NodeState.bookInvariant_of_entries {s : NodeState} (hledger : s.ledger = .ofPostings ps)
    (hsum : (ps.map fun x => |x.amount|).sum ≤ int64Max)
    (hentries : ∀ e ∈ Book.entries s.metadex,
      (0 < e.2.2.amountRemaining ∧ e.2.2.amountRemaining ≤ e.2.2.amountForSale) ∧
      0 < e.2.2.amountDesired ∧
      (e.2.2.amountForSale ≤ int64Max ∧ e.2.2.amountDesired ≤ int64Max) ∧
      (e.1 = e.2.2.property ∧ e.2.1 = e.2.2.unitPrice) ∧
      Book.total s.metadex (MetaDEx.reserves e.2.2.addr e.2.2.property) ≤
        s.ledger.money e.2.2.addr e.2.2.property .metadexReserve) : s.BookInvariant := by
  have hrange : s.ledger.InRange := hledger ▸ Ledger.inRange_ofPostings
  have hall := fun {p r o} (ho : o ∈ Book.level s.metadex p r) =>
    hentries (p, r, o) (Book.mem_entries.mpr ho)
  refine ⟨hrange, fun ho => (hall ho).1, fun ho => (hall ho).2.1, fun ho => (hall ho).2.2.1,
    fun ho => (hall ho).2.2.2.1, ?_, ?_⟩
  · intro a p
    by_cases hheld : ∃ e ∈ Book.entries s.metadex, e.2.2.addr = a ∧ e.2.2.property = p
    · obtain ⟨e, he, rfl, rfl⟩ := hheld
      exact (hentries e he).2.2.2.2
    · have hzero : Book.total s.metadex (MetaDEx.reserves a p) = 0 := by
        rw [Book.total_eq_sum_entries]
        apply List.sum_eq_zero
        intro x hx
        obtain ⟨e, he, rfl⟩ := List.mem_map.mp hx
        exact if_neg fun h => hheld ⟨e, he, h⟩
      rw [hzero]
      exact (hrange a p _ (by decide)).1
  · intro p
    rw [hledger]
    exact Ledger.circulation_ofPostings_le.trans hsum

end OneOrder

def sampleOrder : MetaDEx := .incoming ['A'] 10 3 100 4 200 1 1

theorem bookInvariant_sampleOrder : (NodeState.oneOrder sampleOrder []).BookInvariant :=
  NodeState.bookInvariant_of_entries rfl (by decide) (by decide +kernel)

def sampleCheapOrder : MetaDEx := .incoming ['C'] 9 3 10 4 10 3 1

def sampleDearOrder : MetaDEx := .incoming ['A'] 9 3 10 4 30 4 2

/-- Three price levels, with orders of two owners, and a buyer. -/
def sampleLevels : NodeState :=
  { NodeState.initial .main .zero with
    ledger := .ofPostings [⟨⟨['B'], 4, .balance⟩, 250⟩, ⟨⟨['A'], 3, .metadexReserve⟩, 110⟩,
      ⟨⟨['C'], 3, .metadexReserve⟩, 10⟩]
    metadex := Book.file (Book.file (Book.file ∅ 3 2 sampleOrder) 3 1 sampleCheapOrder) 3 3
      sampleDearOrder }

theorem bookInvariant_sampleLevels : sampleLevels.BookInvariant :=
  NodeState.bookInvariant_of_entries rfl (by decide) (by decide +kernel)

end TradeLayer
