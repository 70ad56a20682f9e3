import TradeLayer.ContractFills

namespace TradeLayer
open Library

def Abort.IsTallyAssert : Abort → Prop
  | .tallyAssert _ _ _ => True
  | _ => False

theorem Abort.ofUpdates_isTallyAssert : Abort.OfUpdates Abort.IsTallyAssert :=
  ⟨not_false, not_false, not_false, not_false⟩

theorem Abort.IsTallyAssert.isCrash {e : Abort} (h : e.IsTallyAssert) : e.IsCrash := by
  cases e with
  | tallyAssert => trivial
  | _ => cases h

namespace Ledger

def position (l : Ledger) (a : Address) (c : PropertyId) : Int :=
  l.money a c .positiveBalance - l.money a c .negativeBalance

def OneSided (l : Ledger) : Prop :=
  ∀ a c, l.money a c .positiveBalance = 0 ∨ l.money a c .negativeBalance = 0

structure EvenPositions (l : Ledger) : Prop where
  oneSided : ∀ a c, l.money a c .positiveBalance = 0 ∨ l.money a c .negativeBalance = 0
  balanced : ∀ c, l.supply c .positiveBalance = l.supply c .negativeBalance

/-- Changes of positions one after the other never take one out of the 64-bit range. -/
def StaysInt64 (l : Ledger) (changes : List (Address → PropertyId → Int)) : Prop :=
  ∀ done, done <+: changes → ∀ a c, |l.position a c + (done.map fun k => k a c).sum| ≤ int64Max

variable {l l' : Ledger} {k : Address → PropertyId → Int}
variable {ks : List (Address → PropertyId → Int)}

theorem StaysInt64.head (h : l.StaysInt64 (k :: ks)) (a : Address) (c : PropertyId) :
    |l.position a c + k a c| ≤ int64Max := by
  have hfirst := h [k] (List.prefix_cons_iff.mpr (.inr ⟨[], rfl, List.nil_prefix⟩)) a c
  simpa using hfirst

theorem StaysInt64.tail (h : l.StaysInt64 (k :: ks))
    (hpos : ∀ a c, l'.position a c = l.position a c + k a c) : l'.StaysInt64 ks := by
  intro done hdone a c
  have hall := h (k :: done) (List.cons_prefix_cons.mpr ⟨rfl, hdone⟩) a c
  rw [List.map_cons, List.sum_cons, ← add_assoc, ← hpos] at hall
  exact hall

theorem staysInt64_singleton (hl : l.InRange)
    (h : ∀ a c, k a c ≠ 0 → |l.position a c + k a c| ≤ int64Max) : l.StaysInt64 [k] := by
  have hnow : ∀ a c, |l.position a c| ≤ int64Max := by
    intro a c
    have hpositive := hl a c .positiveBalance (by decide)
    have hnegative := hl a c .negativeBalance (by decide)
    rw [position, abs_le]
    omega
  intro done hdone a c
  obtain rfl | ⟨done, rfl, hend⟩ := List.prefix_cons_iff.mp hdone
  · simpa using hnow a c
  · rw [List.prefix_nil.mp hend, List.map_singleton, List.sum_singleton]
    by_cases hk : k a c = 0
    · rw [hk, add_zero]
      exact hnow a c
    · exact h a c hk

end Ledger

def ContractDex.change (f : ContractDex × ContractDex) (a : Address) (c : PropertyId) : Int :=
  if f.2.property = c ∧ f.2.addr ≠ f.1.addr then
    (if (buyer f.1 f.2).addr = a then nCouldBuy f.1 f.2 else 0) -
      if (seller f.1 f.2).addr = a then nCouldBuy f.1 f.2 else 0
  else 0

namespace NodeState

variable {s m : NodeState} {env : Environment} {pnew pold : ContractDex} {price : Nat}
variable {sp : SPEntry} {a : Address} {c : PropertyId} {orders : List (Nat × ContractDex)}

section Asserts

theorem change_seller (haddr : pold.addr ≠ pnew.addr) :
    ContractDex.change (pnew, pold) (pnew.seller pold).addr pold.property =
      -pnew.nCouldBuy pold := by
  have hne := (ContractDex.seller_ne_buyer haddr).symm
  simp only [ContractDex.change, haddr, hne, ne_eq, not_false_eq_true, and_self, if_true, if_false,
    zero_sub]

theorem change_buyer (haddr : pold.addr ≠ pnew.addr) :
    ContractDex.change (pnew, pold) (pnew.buyer pold).addr pold.property =
      pnew.nCouldBuy pold := by
  have hne := ContractDex.seller_ne_buyer haddr
  simp only [ContractDex.change, haddr, hne, ne_eq, not_false_eq_true, and_self, if_true, if_false,
    sub_zero]

theorem seller_le (hn : 0 ≤ pnew.nCouldBuy pold) (hl : s.ledger.InRange)
    (hside : s.ledger.OneSided)
    (hstays : -int64Max ≤ s.ledger.position (pnew.seller pold).addr pold.property -
      pnew.nCouldBuy pold) :
    s.ledger.money (pnew.seller pold).addr pold.property .negativeBalance +
      (pnew.nCouldBuy pold - sellerNetted s.ledger pnew pold) ≤ int64Max := by
  have hheld := (hl (pnew.seller pold).addr pold.property .positiveBalance
    (by decide)).1
  have hmax : (0 : Int) ≤ int64Max := by decide
  rw [Ledger.position] at hstays
  rw [sellerNetted, netted]
  rcases hside (pnew.seller pold).addr pold.property with hside | hside
  · omega
  · omega

theorem buyer_le (hn : 0 ≤ pnew.nCouldBuy pold) (hl : s.ledger.InRange)
    (hside : s.ledger.OneSided)
    (hstays : s.ledger.position (pnew.buyer pold).addr pold.property +
      pnew.nCouldBuy pold ≤ int64Max) :
    s.ledger.money (pnew.buyer pold).addr pold.property .positiveBalance +
      (pnew.nCouldBuy pold - buyerNetted s.ledger pnew pold) ≤ int64Max := by
  have hheld := (hl (pnew.buyer pold).addr pold.property .negativeBalance
    (by decide)).1
  have hmax : (0 : Int) ≤ int64Max := by decide
  rw [Ledger.position] at hstays
  rw [buyerNetted, netted]
  rcases hside (pnew.buyer pold).addr pold.property with hside | hside
  · omega
  · omega

theorem asserts_matchContract (hl : s.ledger.InRange) (heven : s.ledger.EvenPositions)
    (hstays : pnew.nCouldBuy pold ≠ 0 → ∀ a, |s.ledger.position a pold.property +
      ContractDex.change (pnew, pold) a pold.property| ≤ int64Max) :
    Avoids Abort.IsTallyAssert (s.matchContract env price pnew pold) := by
  refine avoids_matchContract Abort.ofUpdates_isTallyAssert fun _ hn sp =>
    avoids_settleContract Abort.ofUpdates_isTallyAssert ?_ fun _ _ _ => not_false
  intro hnonneg m hm
  have hcrash : CrashFree (m.assertTallies (matchPostings m.ledger pnew pold)) := by
    rw [← hm] at hl heven hstays
    apply crashFree_matchPostings hl (lt_of_le_of_ne hnonneg hn.symm)
    · intro haddr
      have hseller := hstays hn (pnew.seller pold).addr
      rw [change_seller haddr, abs_le] at hseller
      exact seller_le hnonneg hl heven.oneSided hseller.1
    · intro haddr
      have hbuyer := hstays hn (pnew.buyer pold).addr
      rw [change_buyer haddr, abs_le] at hbuyer
      exact buyer_le hnonneg hl heven.oneSided hbuyer.2
  exact fun e he hassert => hcrash e he hassert.isCrash

end Asserts

section Matches

theorem money_of_matched (hm : Matched pnew pold sp s m) {t : TallyType} (ht : t ≠ .balance) :
    m.ledger.money a c t = s.ledger.money a c t +
      Posting.net (· = ⟨a, c, t⟩) (matchPostings s.ledger pnew pold) := by
  obtain ⟨qs, hp, hqs⟩ := hm.posted
  rw [hp.money_eq, Posting.net_append, hqs.net_eq_zero ht, add_zero]

theorem supply_of_matched (hm : Matched pnew pold sp s m) {t : TallyType} (ht : t ≠ .balance) :
    m.ledger.supply c t = s.ledger.supply c t +
      Posting.net (fun k => k.property = c ∧ k.ttype = t) (matchPostings s.ledger pnew pold) := by
  obtain ⟨qs, hp, hqs⟩ := hm.posted
  have hfees : Posting.net (fun k : Account => k.property = c ∧ k.ttype = t) qs = 0 := by
    apply Posting.net_eq_zero
    intro x hx hk
    exact ht (hk.2.symm.trans (hqs x hx).1)
  rw [hp.supply_eq, Posting.net_append, hfees, add_zero]

theorem position_of_matched (hl : s.ledger.Nonneg) (hm : Matched pnew pold sp s m) :
    m.ledger.position a c = s.ledger.position a c + ContractDex.change (pnew, pold) a c := by
  have hn := hm.positive.le
  rw [Ledger.position, money_of_matched hm (by decide), money_of_matched hm (by decide),
    Ledger.position, ContractDex.change]
  by_cases haddr : pold.addr = pnew.addr
  · simp [matchPostings, haddr]
  · rw [net_matchPostings hl hn haddr, net_matchPostings hl hn haddr]
    simp only [Account.mk.injEq, reduceCtorEq, and_false, and_true, if_false, haddr, ne_eq,
      not_false_eq_true]
    by_cases hc : pold.property = c
    · by_cases hseller : (pnew.seller pold).addr = a
      all_goals by_cases hbuyer : (pnew.buyer pold).addr = a
      all_goals simp only [hc, hseller, hbuyer, and_self, and_true, if_true, if_false]
      all_goals omega
    · simp only [hc, and_false, if_false]
      omega

theorem oneSided_of_matched (hl : s.ledger.Nonneg) (hsides : s.ledger.OneSided)
    (hm : Matched pnew pold sp s m) : m.ledger.OneSided := by
  intro a c
  have hside := hsides a c
  rw [money_of_matched hm (by decide), money_of_matched hm (by decide)]
  by_cases haddr : pold.addr = pnew.addr
  · have hnone : matchPostings s.ledger pnew pold = [] := if_neg (not_not.mpr haddr)
    rw [hnone]
    simpa using hside
  · have hne := ContractDex.seller_ne_buyer haddr
    have hn := hm.positive
    have hpos := hl a c .positiveBalance (by decide)
    have hneg := hl a c .negativeBalance (by decide)
    rw [net_matchPostings hl hn.le haddr, net_matchPostings hl hn.le haddr]
    simp only [Account.mk.injEq, reduceCtorEq, and_false, and_true, if_false, sellerNetted,
      buyerNetted, netted]
    by_cases hc : pold.property = c
    · subst hc
      by_cases hseller : (pnew.seller pold).addr = a
      · subst hseller
        simp only [hne.symm, false_and, and_self, if_true, if_false]
        omega
      · by_cases hbuyer : (pnew.buyer pold).addr = a
        · subst hbuyer
          simp only [hne, false_and, and_self, if_true, if_false]
          omega
        · simp only [hseller, hbuyer, false_and, if_false, add_zero]
          exact hside
    · simp only [hc, and_false, if_false, add_zero]
      exact hside

theorem evenPositions_of_matched (hl : s.ledger.Nonneg) (heven : s.ledger.EvenPositions)
    (hm : Matched pnew pold sp s m) : m.ledger.EvenPositions := by
  refine ⟨oneSided_of_matched hl heven.oneSided hm, fun c => ?_⟩
  have hbalanced := heven.balanced c
  rw [supply_of_matched hm (by decide), supply_of_matched hm (by decide)]
  by_cases haddr : pold.addr = pnew.addr
  · have hnone : matchPostings s.ledger pnew pold = [] := if_neg (not_not.mpr haddr)
    rw [hnone]
    simpa using hbalanced
  · rw [net_matchPostings hl hm.positive.le haddr, net_matchPostings hl hm.positive.le haddr]
    simp only [reduceCtorEq, and_false, and_true, if_false]
    split_ifs <;> omega

/-- The passes over the orders that a new order comes by refuse no position update, and keep the
positions even. -/
theorem positions_of_meetAll (hl : s.ledger.InRange) (heven : s.ledger.EvenPositions)
    (hstays : s.ledger.StaysInt64
      ((pnew.fillsAlong (orders.map Prod.snd)).map ContractDex.change)) :
    Avoids Abort.IsTallyAssert (meetAll env orders pnew s) ∧
      ∀ r, meetAll env orders pnew s = .ok r →
        r.2.ledger.InRange ∧ r.2.ledger.EvenPositions := by
  induction orders generalizing pnew s with
  | nil =>
    refine ⟨.ok, ?_⟩
    intro r hr
    cases hr
    exact ⟨hl, heven⟩
  | cons e orders ih =>
    obtain ⟨price, pold⟩ := e
    rw [List.map_cons, ContractDex.fillsAlong] at hstays
    have hfirst : Avoids Abort.IsTallyAssert (s.matchContract env price pnew pold) := by
      apply asserts_matchContract hl heven
      intro hn a
      rw [if_neg hn, List.map_cons] at hstays
      exact hstays.head a pold.property
    have hnext : ∀ pmid m, s.matchContract env price pnew pold = .ok (pmid, m) →
        Avoids Abort.IsTallyAssert (meetAll env orders pmid m) ∧
          ∀ r, meetAll env orders pmid m = .ok r →
            r.2.ledger.InRange ∧ r.2.ledger.EvenPositions := by
      intro pmid m hm
      have hnonneg : s.ledger.Nonneg := fun a p t ht => (hl a p t ht).1
      obtain ⟨-, -, ⟨hn, rfl, rfl⟩ | ⟨sp, m', hsp, hm', rfl, rfl⟩⟩ := matchContract_matched hm
      · rw [if_pos hn] at hstays
        exact ih hl heven hstays
      · rw [if_neg hm'.positive.ne', List.map_cons] at hstays
        have htail := hstays.tail fun a c => position_of_matched hnonneg hm'
        have heven' := evenPositions_of_matched hnonneg heven hm'
        exact ih (hm'.inRange hl) heven' htail
    constructor
    · apply hfirst.bind
      intro x hx
      exact (hnext x.1 x.2 hx).1
    · intro r hr
      obtain ⟨⟨pmid, m⟩, hm, hr⟩ := bind_eq_ok.mp hr
      exact (hnext pmid m hm).2 r hr

end Matches

end NodeState

end TradeLayer
