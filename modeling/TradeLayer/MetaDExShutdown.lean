import Mathlib.Data.List.TakeWhile
import TradeLayer.BookInvariant

namespace TradeLayer
open Library

namespace NodeState

variable {s s' : NodeState} {orders : List (PropertyId × ℚ × MetaDEx)}
variable {e : PropertyId × ℚ × MetaDEx}

/-- The loops of `MetaDEx_SHUTDOWN_ALLPAIR` for a number of passes, over the orders from the
iterator on: it is moved on only where an order is removed. -/
def shutdownAllPairLoop : Nat → List (PropertyId × ℚ × MetaDEx) → NodeState →
    Except Abort (Option NodeState)
  | _, [], s => .ok (some s)
  | 0, _ :: _, _ => .ok none
  | passes + 1, e :: rest, s =>
    if isAllPair e then do
      let s ← s.cancelOrder e
      shutdownAllPairLoop passes rest s
    else shutdownAllPairLoop passes (e :: rest) s

theorem shutdownAllPairLoop_of_not_isAllPair (he : isAllPair e = false) (passes : Nat) :
    shutdownAllPairLoop passes (e :: orders) s = .ok none := by
  induction passes with
  | zero => rfl
  | succ passes ih => rw [shutdownAllPairLoop, he, if_neg Bool.false_ne_true, ih]

theorem shutdownAllPairLoop_eq_some {passes : Nat} :
    shutdownAllPairLoop passes orders s = .ok (some s') ↔
      orders.all isAllPair = true ∧ orders.length ≤ passes ∧
        orders.foldlM cancelOrder s = .ok s' := by
  induction passes generalizing orders s with
  | zero => cases orders <;> simp [shutdownAllPairLoop]
  | succ passes ih =>
    cases orders with
    | nil => simp [shutdownAllPairLoop]
    | cons e orders =>
      cases he : isAllPair e with
      | false => simp [shutdownAllPairLoop_of_not_isAllPair he, he]
      | true =>
        rw [shutdownAllPairLoop, if_pos he, List.foldlM_cons, List.all_cons, he, Bool.true_and,
          List.length_cons, Nat.add_le_add_iff_right]
        cases s.cancelOrder e with
        | error e => simp
        | ok m => simp [ih]

theorem shutdownAllPairLoop_of_not_all (hall : orders.all isAllPair = false) (passes : Nat)
    (hok : ∃ s', (orders.takeWhile isAllPair).foldlM cancelOrder s = .ok s') :
    shutdownAllPairLoop passes orders s = .ok none := by
  induction orders generalizing s passes with
  | nil => exact absurd hall (by decide)
  | cons e orders ih =>
    cases he : isAllPair e with
    | false => exact shutdownAllPairLoop_of_not_isAllPair he passes
    | true =>
      cases passes with
      | zero => rfl
      | succ passes =>
        rw [List.all_cons, he, Bool.true_and] at hall
        rw [List.takeWhile_cons_of_pos he, List.foldlM_cons] at hok
        obtain ⟨s', hok⟩ := hok
        obtain ⟨m, hm, hok⟩ := bind_eq_ok.mp hok
        rw [shutdownAllPairLoop, if_pos he, hm, ok_bind]
        exact ih hall passes ⟨s', hok⟩

/-- The shutdown returns where enough passes end the loop, and does not return where no number of
passes does. -/
theorem metaDExShutdownAllPair_eq (h : s.BookInvariant) :
    (s.metaDExShutdownAllPair = .ok (0, s') ↔
      ∃ passes, shutdownAllPairLoop passes (Book.entries s.metadex) s = .ok (some s')) ∧
    (s.metaDExShutdownAllPair = .error .divergence ↔
      ∀ passes, shutdownAllPairLoop passes (Book.entries s.metadex) s = .ok none) := by
  have hsub := List.takeWhile_sublist (l := Book.entries s.metadex) isAllPair
  obtain ⟨m, hm, -, -⟩ := h.cancelAll (fun e he => hsub.subset he)
    ((Book.entries_nodup _).sublist hsub)
  rw [metaDExShutdownAllPair, hm, ok_bind]
  cases hall : (Book.entries s.metadex).all isAllPair with
  | true =>
    have htake : (Book.entries s.metadex).takeWhile isAllPair = Book.entries s.metadex :=
      List.takeWhile_eq_self_iff.mpr (List.all_eq_true.mp hall)
    rw [htake] at hm
    have hloop : shutdownAllPairLoop (Book.entries s.metadex).length (Book.entries s.metadex) s =
        .ok (some m) := shutdownAllPairLoop_eq_some.mpr ⟨hall, le_rfl, hm⟩
    constructor
    · simp only [if_true, Except.ok.injEq, Prod.mk.injEq, true_and]
      constructor
      · rintro rfl
        exact ⟨_, hloop⟩
      · rintro ⟨passes, hsome⟩
        obtain ⟨-, -, hs'⟩ := shutdownAllPairLoop_eq_some.mp hsome
        exact Except.ok.inj (hm.symm.trans hs')
    · simp only [if_true, reduceCtorEq, false_iff]
      intro hnone
      simp [hnone] at hloop
  | false =>
    have hloop (passes : Nat) := shutdownAllPairLoop_of_not_all hall passes ⟨m, hm⟩
    simp [hloop]

def allPairReserves (a : Address) (p : PropertyId) (o : MetaDEx) : Int :=
  if tlPropertyTmsc < o.property ∧ tlPropertyTmsc < o.desProperty then MetaDEx.reserves a p o else 0

/-- Exactly the orders without a base property are gone, what they had left is back in the
balances of their owners, and nothing else has changed. -/
structure ShutsDown (s s' : NodeState) : Prop where
  frame : s' = { s with ledger := s'.ledger, metadex := s'.metadex }
  freeze_eq : s'.ledger.freeze = s.ledger.freeze
  book : ∀ p r o, o ∈ Book.level s'.metadex p r ↔ o ∈ Book.level s.metadex p r ∧
    ¬ (tlPropertyTmsc < o.property ∧ tlPropertyTmsc < o.desProperty)
  balance : ∀ a p, s'.ledger.money a p .balance =
    s.ledger.money a p .balance + Book.total s.metadex (allPairReserves a p)
  reserve : ∀ a p, s'.ledger.money a p .metadexReserve =
    s.ledger.money a p .metadexReserve - Book.total s.metadex (allPairReserves a p)
  others : ∀ a p t, t ≠ .balance → t ≠ .metadexReserve →
    s'.ledger.money a p t = s.ledger.money a p t

theorem isAllPair_eq_true : isAllPair e = true ↔
    tlPropertyTmsc < e.2.2.property ∧ tlPropertyTmsc < e.2.2.desProperty := by
  rw [isAllPair, Bool.and_eq_true, decide_eq_true_eq, decide_eq_true_eq, and_comm]

theorem shutsDown_of_refunded (h : Refunded (Book.entries s.metadex) s s')
    (hall : (Book.entries s.metadex).all isAllPair = true) : ShutsDown s s' := by
  have hpair {e : PropertyId × ℚ × MetaDEx} (he : e ∈ Book.entries s.metadex) :=
    isAllPair_eq_true.mp (List.all_eq_true.mp hall e he)
  have htotal (a : Address) (p : PropertyId) : Book.total s.metadex (allPairReserves a p) =
      ((Book.entries s.metadex).map fun e => MetaDEx.reserves a p e.2.2).sum := by
    rw [Book.total_eq_sum_entries]
    exact congrArg List.sum (List.map_congr_left fun e he => if_pos (hpair he))
  have hmoney (a : Address) (p : PropertyId) (t : TallyType) := h.posted.money_eq a p t
  simp only [net_refunds, ← htotal] at hmoney
  refine ⟨h.frame, h.posted.freeze_eq, ?_, ?_, ?_, ?_⟩
  · intro p r o
    rw [← Book.mem_entries, h.mem_entries, ← Book.mem_entries]
    exact and_congr_right fun he => iff_of_false (not_not.mpr he) (not_not.mpr (hpair he))
  · intro a p
    rw [hmoney]
    simp
  · intro a p
    rw [hmoney]
    simp [sub_eq_add_neg]
  · intro a p t hb hr
    rw [hmoney]
    simp [hb, hr]

/-- The shutdown returns and does what it is for exactly where every order of the book trades two
properties that are not base properties. -/
theorem shutsDown_iff (h : s.BookInvariant) :
    (∃ s', s.metaDExShutdownAllPair = .ok (0, s') ∧ ShutsDown s s') ↔
      ∀ p r, ∀ o ∈ Book.level s.metadex p r,
        tlPropertyTmsc < o.property ∧ tlPropertyTmsc < o.desProperty := by
  constructor
  · rintro ⟨s', hs', -⟩ p r o ho
    obtain ⟨passes, hloop⟩ := (metaDExShutdownAllPair_eq h).1.mp hs'
    obtain ⟨hall, -, -⟩ := shutdownAllPairLoop_eq_some.mp hloop
    exact isAllPair_eq_true.mp (List.all_eq_true.mp hall (p, r, o) (Book.mem_entries.mpr ho))
  · intro hpairs
    have hall : (Book.entries s.metadex).all isAllPair = true := by
      rw [List.all_eq_true]
      rintro ⟨p, r, o⟩ ho
      exact isAllPair_eq_true.mpr (hpairs p r o (Book.mem_entries.mp ho))
    obtain ⟨s', hs', hrefunded, -⟩ := h.cancelAll (fun e he => he) (Book.entries_nodup _)
    have hloop : shutdownAllPairLoop (Book.entries s.metadex).length (Book.entries s.metadex) s =
        .ok (some s') := shutdownAllPairLoop_eq_some.mpr ⟨hall, le_rfl, hs'⟩
    exact ⟨s', (metaDExShutdownAllPair_eq h).1.mpr ⟨_, hloop⟩,
      shutsDown_of_refunded hrefunded hall⟩

end NodeState

theorem shutsDown_sampleOrder :
    ∃ s', (NodeState.oneOrder sampleOrder []).metaDExShutdownAllPair = .ok (0, s') ∧
      NodeState.ShutsDown (NodeState.oneOrder sampleOrder []) s' := by
  refine (NodeState.shutsDown_iff bookInvariant_sampleOrder).mpr ?_
  intro p r o ho
  have hmem : (p, r, o) ∈ Book.entries (NodeState.oneOrder sampleOrder []).metadex :=
    Book.mem_entries.mpr ho
  have hentries : Book.entries (NodeState.oneOrder sampleOrder []).metadex =
      [(3, 2, sampleOrder)] := by decide +kernel
  rw [hentries, List.mem_singleton] at hmem
  cases hmem
  decide

def sampleBaseOrder : MetaDEx := .incoming ['A'] 10 3 100 1 200 1 1

/-- With that order alone in the book the shutdown does not end. -/
theorem shutdown_of_sampleBaseOrder : (NodeState.oneOrder sampleBaseOrder []).BookInvariant ∧
    ((NodeState.oneOrder sampleBaseOrder []).metaDExShutdownAllPair.map fun _ => ()) =
      .error .divergence ∧
    ∀ passes, NodeState.shutdownAllPairLoop passes
      (Book.entries (NodeState.oneOrder sampleBaseOrder []).metadex)
      (NodeState.oneOrder sampleBaseOrder []) = .ok none := by
  have hinv : (NodeState.oneOrder sampleBaseOrder []).BookInvariant :=
    NodeState.bookInvariant_of_entries rfl (by decide) (by decide +kernel)
  have hentries : Book.entries (NodeState.oneOrder sampleBaseOrder []).metadex =
      [(3, 2, sampleBaseOrder)] := by decide +kernel
  refine ⟨hinv, by decide +kernel, fun passes => ?_⟩
  rw [hentries]
  exact NodeState.shutdownAllPairLoop_of_not_isAllPair (by decide) passes

end TradeLayer
