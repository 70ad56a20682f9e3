import TradeLayer.DexPayments

namespace TradeLayer
open Library

namespace NodeState

structure Completes (s : NodeState) (env : Environment) (seller buyer : Address)
    (amountPaid block : Int) (found : FoundAccept) : Prop where
  found_eq : s.paymentAccept env seller buyer block = some found
  price : found.accept.btcDesiredOriginal ≠ 0
  covers : ∃ purchased, calculateDExPurchase found.accept.offerAmountOriginal
    found.accept.btcDesiredOriginal amountPaid = .ok purchased ∧
      found.accept.acceptAmountRemaining ≤ purchased

/-- An offer that is gone left nothing behind, unsold or promised to other buyers. -/
def DeletesOnlyEmpty (s : NodeState) (seller : Address) (p : PropertyId) (s' : NodeState) : Prop :=
  s.offerExists seller p = true → s'.offerExists seller p = false →
    s'.ledger.money seller p .sellOfferReserve = 0 ∧ s'.ledger.money seller p .acceptReserve = 0

variable {s s' m : NodeState} {env : Environment} {seller buyer : Address} {p : PropertyId}
variable {amountPaid block rc : Int} {found : FoundAccept} {accept : Accept}

/-- The accept that a payment has used up is erased if it is the payer's, and otherwise no accept
is found to erase. -/
theorem acceptDestroy_of_found (accept : Accept)
    (hfound : s.paymentAccept env seller buyer block = some found)
    (haccepts : m.myAccepts = s.myAccepts) (hzero : accept.acceptAmountRemaining = 0) :
    ∃ rc m', (m.setAccept found.key accept).acceptDestroy buyer seller found.property true =
      .ok (rc, m') ∧ m'.ledger = m.ledger ∧ m'.myOffers = m.myOffers := by
  rcases locates_or_reversed hfound with ⟨p, old, hl⟩ | ⟨p, old, hr⟩
  · obtain rfl := Option.some.inj (hl.paymentAccept_eq.symm.trans hfound)
    have hget : (m.setAccept (strAcceptAddrPropAddrCombo seller buyer p) accept).getAccept seller p
        buyer = some accept := by
      rw [getAccept, setAccept, OrderedMap.get?_set, if_pos rfl]
    rw [acceptDestroy, FoundAccept.key, hget]
    simp only [hzero, lt_irrefl, if_false]
    exact ⟨_, _, rfl, rfl, rfl⟩
  · obtain rfl := Option.some.inj (hr.paymentAccept_eq.symm.trans hfound)
    have hne : strAcceptAddrPropAddrCombo seller buyer p ≠
        strAcceptAddrPropAddrCombo buyer seller p := by
      intro hkeys
      have hnone := hr.none_eq
      rw [getAccept, hkeys] at hnone
      have hsame := hnone.symm.trans hr.accept_eq
      cases hsame
    have hget : (m.setAccept (strAcceptAddrPropAddrCombo buyer seller p) accept).getAccept seller p
        buyer = none := by
      rw [getAccept, setAccept, OrderedMap.get?_set, if_neg hne, haccepts]
      exact hr.none_eq
    rw [acceptDestroy, FoundAccept.key, hget]
    exact ⟨_, _, rfl, rfl, rfl⟩

theorem offerExists_of_offerDestroy (h : s.offerDestroy seller p = .ok (rc, s'))
    (hzero : s.ledger.money seller p .sellOfferReserve = 0) :
    s'.ledger = s.ledger ∧ s'.offerExists seller p = false := by
  rw [offerDestroy] at h
  split_ifs at h with hexists
  · simp only [money_sellOfferReserve, hzero, lt_irrefl, if_false] at h
    cases h
    refine ⟨rfl, ?_⟩
    rw [offerExists, getOffer, eraseOffer, OrderedMap.get?_erase, if_pos rfl]
    rfl
  · cases h
    exact ⟨rfl, eq_false_of_ne_true hexists⟩

/-- A payment that completes an accept takes the rest of it from the seller's reserve, and the
offer is gone after it if it was before or if both reserves are read as empty. -/
theorem Completes.offerExists_eq (hc : s.Completes env seller buyer amountPaid block found)
    (h : s.payment env seller buyer amountPaid block = .ok (rc, s')) :
    s'.ledger.money seller found.property .sellOfferReserve =
        s.ledger.money seller found.property .sellOfferReserve ∧
      s'.ledger.money seller found.property .acceptReserve =
        s.ledger.money seller found.property .acceptReserve -
          max 0 found.accept.acceptAmountRemaining ∧
      (s'.offerExists seller found.property = false ↔
        s.offerExists seller found.property = false ∨
          s'.ledger.money seller found.property .sellOfferReserve = 0 ∧
            s'.ledger.getTokenBalance seller found.property .acceptReserve = 0) := by
  obtain ⟨hfound, hprice, purchased, hpurchased, hle⟩ := hc
  rw [payment, hfound] at h
  dsimp only at h
  rw [if_neg hprice, hpurchased, ok_bind, min_eq_right hle] at h
  obtain ⟨m, hm, h⟩ := bind_eq_ok.mp h
  rw [if_pos le_rfl] at h
  obtain ⟨t, ht, h⟩ := bind_eq_ok.mp h
  cases h
  change (m.setAccept found.key
    (found.accept.reduce found.accept.acceptAmountRemaining)).finishAccept _ _ _ = _ at ht
  have hposted := posted_of_assertTallies hm
  have hsell := hposted.money_ite (a := seller) (q := found.property) (t := .sellOfferReserve)
  have hreserve := hposted.money_ite (a := seller) (q := found.property) (t := .acceptReserve)
  simp only [Account.mk.injEq, reduceCtorEq, and_false, if_false, sub_zero, add_zero] at hsell
  simp only [Account.mk.injEq, reduceCtorEq, and_false, and_true, if_false, add_zero] at hreserve
  have hoffers : m.myOffers = s.myOffers := by rw [hposted.1]
  have haccepts : m.myAccepts = s.myAccepts := by rw [hposted.1]
  obtain ⟨rc', m', hdestroy, hledger, hoffers'⟩ :=
    acceptDestroy_of_found (found.accept.reduce found.accept.acceptAmountRemaining) hfound
      haccepts (sub_self _)
  have hexists : m'.offerExists seller found.property = s.offerExists seller found.property := by
    rw [offerExists, getOffer, hoffers', hoffers]
    rfl
  have hreserve' : m.ledger.money seller found.property .acceptReserve =
      s.ledger.money seller found.property .acceptReserve -
        max 0 found.accept.acceptAmountRemaining := by
    rw [hreserve]
    split_ifs <;> omega
  rw [finishAccept, hdestroy, ok_bind] at ht
  change (if m.ledger.getTokenBalance seller found.property .sellOfferReserve = 0 ∧
      m.ledger.getTokenBalance seller found.property .acceptReserve = 0 then
    m'.offerDestroy seller found.property >>= fun r => .ok r.2 else .ok m') = .ok _ at ht
  rw [money_sellOfferReserve] at ht
  split_ifs at ht with hempty
  · obtain ⟨⟨rc'', t'⟩, ht', hdone⟩ := bind_eq_ok.mp ht
    cases hdone
    have hzero : m'.ledger.money seller found.property .sellOfferReserve = 0 := by
      rw [hledger]
      exact hempty.1
    obtain ⟨hsame, hgone⟩ := offerExists_of_offerDestroy ht' hzero
    rw [hsame, hledger]
    exact ⟨hsell, hreserve', iff_of_true hgone (.inr hempty)⟩
  · cases ht
    rw [hledger, hexists]
    exact ⟨hsell, hreserve', (or_iff_left hempty).symm⟩

/-- A payment that completes an accept deletes only offers with nothing left exactly where the
reserve of promised tokens is read, something is unsold, there is no offer to delete or nothing
is promised to other buyers. -/
theorem deletesOnlyEmpty_iff (hc : s.Completes env seller buyer amountPaid block found)
    (h : s.payment env seller buyer amountPaid block = .ok (rc, s')) :
    s.DeletesOnlyEmpty seller found.property s' ↔
      found.property ≤ tlPropertyTmsc ∨
        s.ledger.money seller found.property .sellOfferReserve ≠ 0 ∨
        s.offerExists seller found.property = false ∨
        s.ledger.money seller found.property .acceptReserve =
          max 0 found.accept.acceptAmountRemaining := by
  obtain ⟨hsell, hreserve, hgone⟩ := hc.offerExists_eq h
  have hread : s'.ledger.getTokenBalance seller found.property .acceptReserve =
      if tlPropertyTmsc < found.property then 0
      else s'.ledger.money seller found.property .acceptReserve := by
    simp [Ledger.getTokenBalance]
  rw [DeletesOnlyEmpty, hgone, hread, hsell, hreserve, sub_eq_zero]
  by_cases hbase : found.property ≤ tlPropertyTmsc
  · rw [if_neg hbase.not_gt, sub_eq_zero]
    refine iff_of_true (fun hoffer hempty => ?_) (.inl hbase)
    rcases hempty with hnone | hempty
    · rw [hoffer] at hnone
      cases hnone
    · exact hempty
  · rw [if_pos (not_le.mp hbase)]
    cases s.offerExists seller found.property <;> simp [hbase]
    tauto

def paymentTerms (s : NodeState) (env : Environment) (seller buyer : Address) (block : Int) :
    Option (PropertyId × Int × Int × Int) :=
  (s.paymentAccept env seller buyer block).map fun found =>
    (found.property, found.accept.offerAmountOriginal, found.accept.btcDesiredOriginal,
      found.accept.acceptAmountRemaining)

theorem completes_of_paymentTerms {offered desired remaining purchased : Int}
    (h : s.paymentTerms env seller buyer block = some (p, offered, desired, remaining))
    (hprice : desired ≠ 0) (hpurchased : calculateDExPurchase offered desired amountPaid =
      .ok purchased) (hle : remaining ≤ purchased) :
    ∃ found, s.Completes env seller buyer amountPaid block found ∧ found.property = p := by
  obtain ⟨found, hfound, hterms⟩ := Option.map_eq_some_iff.mp h
  cases hterms
  exact ⟨found, ⟨hfound, hprice, purchased, hpurchased, hle⟩, rfl⟩

def payAfter (s : NodeState) (env : Environment) (calls : List (Int × Operation))
    (seller buyer : Address) (amountPaid block : Int) : Except Abort (NodeState × NodeState) := do
  let s ← s.runOperations env calls
  let (_, s') ← s.payment env seller buyer amountPaid block
  return (s, s')

theorem payAfter_eq_ok {calls : List (Int × Operation)}
    (h : s.payAfter env calls seller buyer amountPaid block = .ok (m, s')) :
    s.runOperations env calls = .ok m ∧
      ∃ rc, m.payment env seller buyer amountPaid block = .ok (rc, s') := by
  obtain ⟨t, hrun, h⟩ := bind_eq_ok.mp h
  obtain ⟨⟨rc, t'⟩, hpayment, h⟩ := bind_eq_ok.mp h
  cases h
  exact ⟨hrun, rc, hpayment⟩

/-- The buyer who accepted four of the five tokens of an offer pays for all four. -/
theorem deletesOnlyEmpty_of_sampleAccepted :
    ∃ s s' found, sampleSellers.payAfter (.plain .test) (sampleAccepted 5) ['s'] ['c'] 4 101 =
        .ok (s, s') ∧
      s.Completes (.plain .test) ['s'] ['c'] 4 101 found ∧
      s.DeletesOnlyEmpty ['s'] found.property s' := by
  obtain ⟨⟨s, s'⟩, hrun, hsample⟩ := exists_ok_of_map
    (g := fun r => (r.1.paymentTerms (.plain .test) ['s'] ['c'] 101,
      r.1.ledger.money ['s'] 3 .sellOfferReserve))
    (x := sampleSellers.payAfter (.plain .test) (sampleAccepted 5) ['s'] ['c'] 4 101)
    (b := (some (3, 5, 5, 4), 1)) (by decide +kernel)
  obtain ⟨hterms, hsell⟩ := Prod.mk.inj hsample
  have hpurchased : calculateDExPurchase 5 5 4 = .ok 4 := by decide +kernel
  obtain ⟨found, hc, hp⟩ := completes_of_paymentTerms hterms (by decide) hpurchased le_rfl
  obtain ⟨-, rc, hpayment⟩ := payAfter_eq_ok hrun
  refine ⟨s, s', found, hrun, hc, (deletesOnlyEmpty_iff hc hpayment).mpr (.inr (.inl ?_))⟩
  dsimp only at hsell
  rw [hp, hsell]
  decide

def sampleBuyers : List (Int × Operation) :=
  [(100, .offerCreate ['s'] 3 10 10 0 10 1), (100, .acceptCreate ['c'] ['s'] 3 5 0),
    (100, .acceptCreate ['d'] ['s'] 3 5 0)]

/-- When the first of them has paid, the offer is deleted with five tokens still promised to the
second. -/
theorem offer_deleted_of_sampleBuyers : sampleSellers.DexStart ∧
    (∀ c ∈ sampleBuyers, c.2.OnDex) ∧
    ∃ s s' found, sampleSellers.payAfter (.plain .test) sampleBuyers ['s'] ['c'] 5 101 =
        .ok (s, s') ∧
      s.Completes (.plain .test) ['s'] ['c'] 5 101 found ∧ found.property = 3 ∧
      s.offerExists ['s'] 3 = true ∧ s'.offerExists ['s'] 3 = false ∧
      s'.ledger.money ['s'] 3 .acceptReserve = 5 ∧
      (s'.getAccept ['s'] 3 ['d']).map Accept.acceptAmountRemaining = some 5 := by
  obtain ⟨⟨s, s'⟩, hrun, hsample⟩ := exists_ok_of_map
    (g := fun r => (r.1.paymentTerms (.plain .test) ['s'] ['c'] 101, r.1.offerExists ['s'] 3))
    (x := sampleSellers.payAfter (.plain .test) sampleBuyers ['s'] ['c'] 5 101)
    (b := (some (3, 10, 10, 5), true)) (by decide +kernel)
  obtain ⟨r, hrun', hleft⟩ := exists_ok_of_map
    (g := fun r => (r.2.offerExists ['s'] 3, r.2.ledger.money ['s'] 3 .acceptReserve,
      (r.2.getAccept ['s'] 3 ['d']).map Accept.acceptAmountRemaining))
    (x := sampleSellers.payAfter (.plain .test) sampleBuyers ['s'] ['c'] 5 101)
    (b := (false, 5, some 5)) (by decide +kernel)
  obtain rfl : (s, s') = r := Except.ok.inj (hrun.symm.trans hrun')
  obtain ⟨hterms, hbefore⟩ := Prod.mk.inj hsample
  simp only [Prod.mk.injEq] at hleft
  obtain ⟨hafter, hmoney, haccept⟩ := hleft
  have hpurchased : calculateDExPurchase 10 10 5 = .ok 5 := by decide +kernel
  obtain ⟨found, hc, hp⟩ := completes_of_paymentTerms hterms (by decide) hpurchased le_rfl
  have hcalls : ∀ c ∈ sampleBuyers, c.2.OnDex := by
    simp [sampleBuyers, Operation.OnDex, PlainAddress]
  exact ⟨dexStart_sampleSellers, hcalls, s, s', found, hrun, hc, hp, hbefore, hafter, hmoney,
    haccept⟩

end NodeState

end TradeLayer
