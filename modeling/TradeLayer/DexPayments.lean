import TradeLayer.DexLookup
import TradeLayer.DexRuns

namespace TradeLayer
open Library

def purchase (accept : Accept) (amountPaid : Int) : Int :=
  ⌈((amountPaid * accept.offerAmountOriginal : Int) : ℚ) / accept.btcDesiredOriginal⌉

def Accept.reduce (accept : Accept) (n : Int) : Accept :=
  { accept with acceptAmountRemaining := accept.acceptAmountRemaining - n }

namespace NodeState

/-- A payment moves an amount of the seller's reserve to the buyer and reduces the accept. -/
structure Pays (s : NodeState) (seller buyer : Address) (p : PropertyId) (accept : Accept)
    (n : Int) (s' : NodeState) : Prop where
  money_eq : ∀ a q t, s'.ledger.money a q t = s.ledger.money a q t +
    Posting.net (fun k : Account => k = ⟨a, q, t⟩)
      (Posting.transfer ⟨seller, p, .acceptReserve⟩ ⟨buyer, p, .balance⟩ n)
  remaining_eq : ((s'.getAccept seller p buyer).map Accept.acceptAmountRemaining).getD 0 =
    accept.acceptAmountRemaining - n

variable {s s' m : NodeState} {env : Environment} {seller buyer : Address} {p : PropertyId}
variable {n amountPaid block rc : Int} {found : FoundAccept} {accept : Accept}

section Purchase

theorem purchase_zero : purchase accept 0 = 0 := by
  simp [purchase]

theorem purchase_pos (hpaid : 0 < amountPaid) (hoffered : 0 < accept.offerAmountOriginal)
    (hdesired : 0 < accept.btcDesiredOriginal) : 0 < purchase accept amountPaid := by
  rw [purchase, Int.ceil_pos]
  have hproduct : (0 : ℚ) < ((amountPaid * accept.offerAmountOriginal : Int) : ℚ) := by
    exact_mod_cast mul_pos hpaid hoffered
  have hprice : (0 : ℚ) < accept.btcDesiredOriginal := by exact_mod_cast hdesired
  exact div_pos hproduct hprice

theorem purchase_le_iff (hdesired : 0 < accept.btcDesiredOriginal) :
    purchase accept amountPaid ≤ n ↔
      amountPaid * accept.offerAmountOriginal ≤ n * accept.btcDesiredOriginal := by
  have hprice : (0 : ℚ) < accept.btcDesiredOriginal := by exact_mod_cast hdesired
  rw [purchase, Int.ceil_le, div_le_iff₀ hprice]
  norm_cast

theorem calculateDExPurchase_eq (hpaid : 0 ≤ amountPaid)
    (hoffered : 0 < accept.offerAmountOriginal) (hdesired : accept.btcDesiredOriginal ≠ 0) :
    calculateDExPurchase accept.offerAmountOriginal accept.btcDesiredOriginal amountPaid =
      if 0 < accept.btcDesiredOriginal ∧ amountPaid * accept.offerAmountOriginal ≤
          int64Max * accept.btcDesiredOriginal then .ok (purchase accept amountPaid)
      else .error .rangeAssert := by
  rw [calculateDExPurchase, convertTo256_of_nonneg hoffered.le, ok_bind]
  by_cases hpos : 0 < accept.btcDesiredOriginal
  · obtain ⟨r, hr⟩ := exists_divideAndRoundUp
      (x := amountPaid.toNat * accept.offerAmountOriginal.toNat)
      (d := accept.btcDesiredOriginal.toNat) (Int.pos_iff_toNat_pos.mp hpos)
    have hpurchase : purchase accept amountPaid = r := by
      have hceil := ceil_of_divideAndRoundUp hr (Int.pos_iff_toNat_pos.mp hpos)
      rw [Int.natCast_mul, Int.toNat_of_nonneg hpaid, Int.toNat_of_nonneg hoffered.le,
        Int.toNat_of_nonneg hpos.le] at hceil
      exact hceil
    rw [convertTo256_of_nonneg hpos.le, ok_bind, convertTo256_of_nonneg hpaid, ok_bind, hr,
      ok_bind, convertTo64]
    simp only [← purchase_le_iff hpos, hpurchase, hpos, true_and]
  · rw [if_neg fun h => hpos h.1, convertTo256, if_neg fun h => hpos (h.lt_of_ne' hdesired)]
    rfl

end Purchase

section Outcome

theorem payment_of_none (h : s.paymentAccept env seller buyer block = none) :
    s.payment env seller buyer amountPaid block = .ok (dexErrorPayment - 1, s) := by
  rw [payment, h]

theorem payment_of_unfit (hi : DexInv s) (hpaid : 0 ≤ amountPaid)
    (h : s.paymentAccept env seller buyer block = some found)
    (hunfit : ¬ (0 < found.accept.btcDesiredOriginal ∧
      amountPaid * found.accept.offerAmountOriginal ≤
        int64Max * found.accept.btcDesiredOriginal)) :
    s.payment env seller buyer amountPaid block = .error .rangeAssert := by
  obtain ⟨-, -, -, hoffered, hdesired⟩ := hi.accepts _ _ (found_mem h)
  rw [payment, h]
  dsimp only
  rw [if_neg hdesired, calculateDExPurchase_eq hpaid hoffered hdesired, if_neg hunfit, error_bind]

theorem payment_eq (hpaid : 0 ≤ amountPaid)
    (h : s.paymentAccept env seller buyer block = some found)
    (hoffered : 0 < found.accept.offerAmountOriginal)
    (hprice : 0 < found.accept.btcDesiredOriginal)
    (hfit : amountPaid * found.accept.offerAmountOriginal ≤
      int64Max * found.accept.btcDesiredOriginal)
    (hn : n = min (purchase found.accept amountPaid) found.accept.acceptAmountRemaining) :
    s.payment env seller buyer amountPaid block =
      s.assertTallies (if 0 < n then Posting.transfer ⟨seller, found.property, .acceptReserve⟩
        ⟨buyer, found.property, .balance⟩ n else []) >>= fun m =>
      if found.accept.acceptAmountRemaining ≤ n then
        ((m.setAccept found.key (found.accept.reduce n)).finishAccept seller buyer
          found.property).map (if 0 < n then 0 else dexErrorPayment, ·)
      else .ok (if 0 < n then 0 else dexErrorPayment,
        m.setAccept found.key (found.accept.reduce n)) := by
  rw [payment, h]
  dsimp only
  rw [if_neg hprice.ne', calculateDExPurchase_eq hpaid hoffered hprice.ne',
    if_pos ⟨hprice, hfit⟩, ok_bind, ← hn]
  rfl

theorem payment_of_zero (hi : DexInv s)
    (h : s.paymentAccept env seller buyer block = some found)
    (hprice : 0 < found.accept.btcDesiredOriginal) :
    ∃ s', s.payment env seller buyer 0 block = .ok (dexErrorPayment, s') := by
  obtain ⟨-, hpos, -, hoffered, -⟩ := hi.accepts _ _ (found_mem h)
  have hfit : 0 * found.accept.offerAmountOriginal ≤
      int64Max * found.accept.btcDesiredOriginal := by
    rw [zero_mul]
    exact mul_nonneg (by decide) hprice.le
  have hn : 0 = min (purchase found.accept 0) found.accept.acceptAmountRemaining := by
    rw [purchase_zero, min_eq_left hpos.le]
  rw [payment_eq le_rfl h hoffered hprice hfit hn]
  simp only [lt_irrefl, if_false, hpos.not_ge]
  exact ⟨_, rfl⟩

theorem payment_of_fit (hpaid : 0 < amountPaid)
    (h : s.paymentAccept env seller buyer block = some found)
    (hopen : 0 < found.accept.acceptAmountRemaining)
    (hoffered : 0 < found.accept.offerAmountOriginal)
    (hprice : 0 < found.accept.btcDesiredOriginal)
    (hfit : amountPaid * found.accept.offerAmountOriginal ≤
      int64Max * found.accept.btcDesiredOriginal)
    (hn : n = min (purchase found.accept amountPaid) found.accept.acceptAmountRemaining) :
    0 < n ∧ s.payment env seller buyer amountPaid block =
      s.assertTallies (Posting.transfer ⟨seller, found.property, .acceptReserve⟩
        ⟨buyer, found.property, .balance⟩ n) >>= fun m =>
      if found.accept.acceptAmountRemaining ≤ n then
        ((m.setAccept found.key (found.accept.reduce n)).finishAccept seller buyer
          found.property).map (0, ·)
      else .ok (0, m.setAccept found.key (found.accept.reduce n)) := by
  have hn₀ : 0 < n := by
    rw [hn]
    exact lt_min (purchase_pos hpaid hoffered hprice) hopen
  refine ⟨hn₀, ?_⟩
  rw [payment_eq hpaid.le h hoffered hprice hfit hn]
  simp only [if_pos hn₀]

theorem remaining_le_acceptSum (hi : DexInv s) (hseller : PlainAddress seller)
    (hbuyer : PlainAddress buyer) (h : s.getAccept seller p buyer = some accept) :
    accept.acceptAmountRemaining ≤ s.acceptSum seller p := by
  have hmem := OrderedMap.get?_eq_some.mp h
  have hterm : accept.acceptAmountRemaining ∈ s.myAccepts.toList.map fun e =>
      if onSeller seller p e.1 then e.2.acceptAmountRemaining else 0 := by
    refine List.mem_map.mpr ⟨_, hmem, ?_⟩
    dsimp only
    rw [if_pos ((onSeller_acceptKey hseller hbuyer).mpr ⟨rfl, rfl⟩)]
  apply List.single_le_sum _ _ hterm
  intro x hx
  obtain ⟨e, he, rfl⟩ := List.mem_map.mp hx
  split_ifs
  · exact (hi.accepts e.1 e.2 (OrderedMap.get?_eq_some.mpr he)).2.1.le
  · exact le_rfl

theorem offerDestroy_of_zero (h : s.ledger.getTokenBalance seller p .sellOfferReserve = 0) :
    ∃ rc s', s.offerDestroy seller p = .ok (rc, s') ∧ s'.ledger = s.ledger ∧
      s'.myAccepts = s.myAccepts := by
  rw [offerDestroy]
  split_ifs
  · simp only [h, lt_irrefl, if_false]
    exact ⟨_, _, rfl, rfl, rfl⟩
  · exact ⟨_, s, rfl, rfl, rfl⟩

theorem finishAccept_of_zero (s : NodeState) (seller buyer : Address) (p : PropertyId)
    (hzero : accept.acceptAmountRemaining = 0) :
    ∃ s', (s.setAccept (strAcceptAddrPropAddrCombo seller buyer p) accept).finishAccept seller
        buyer p = .ok s' ∧ s'.ledger = s.ledger ∧
      s'.myAccepts = s.myAccepts.erase (strAcceptAddrPropAddrCombo seller buyer p) := by
  rw [finishAccept_eq hzero]
  split_ifs with hreserves
  · obtain ⟨rc, s', hs', hledger, haccepts⟩ := offerDestroy_of_zero
      (s := s.eraseAccept (strAcceptAddrPropAddrCombo seller buyer p)) hreserves.1
    refine ⟨s', ?_, hledger, haccepts⟩
    rw [hs']
    rfl
  · exact ⟨_, rfl, rfl, rfl⟩

theorem transfer_cases (seller buyer : Address) (p : PropertyId) (hl : s.ledger.InRange)
    (hn : 0 < n) (hfunds : n ≤ s.ledger.money seller p .acceptReserve) :
    s.ledger.money buyer p .balance + n ≤ int64Max ∧ (∃ m, s.assertTallies
        (Posting.transfer ⟨seller, p, .acceptReserve⟩ ⟨buyer, p, .balance⟩ n) = .ok m) ∨
      ¬ s.ledger.money buyer p .balance + n ≤ int64Max ∧ ∃ e, s.assertTallies
        (Posting.transfer ⟨seller, p, .acceptReserve⟩ ⟨buyer, p, .balance⟩ n) = .error e := by
  have hne : (⟨seller, p, .acceptReserve⟩ : Account) ≠ ⟨buyer, p, .balance⟩ := nofun
  have hcovers := Ledger.covers_transfer hl hne hn nofun nofun
  have hunfrozen : ¬ s.ledger.DebitsFrozen seller p (-n) .acceptReserve := fun hd => nomatch hd.1
  have hplain : Ledger.Plain (Posting.transfer ⟨seller, p, .acceptReserve⟩
      ⟨buyer, p, .balance⟩ n) := Ledger.plain_transfer ⟨nofun, nofun⟩ ⟨nofun, nofun⟩
  rcases assertTallies_covers hl hplain with ⟨hcov, m, hm, -⟩ | ⟨hcov, e, -, he⟩
  · exact .inl ⟨(hcovers.mp hcov).2.2, m, hm⟩
  · exact .inr ⟨fun hmax => hcov (hcovers.mpr ⟨hunfrozen, hfunds, hmax⟩), e, he⟩

/-- A payment for the payer's accept pays it where the payer's balance can take the tokens. -/
theorem Locates.payment_cases (hl : s.Locates env seller buyer block p accept) (hi : DexInv s)
    (hseller : PlainAddress seller) (hbuyer : PlainAddress buyer) (hpaid : 0 < amountPaid)
    (hprice : 0 < accept.btcDesiredOriginal)
    (hfit : amountPaid * accept.offerAmountOriginal ≤ int64Max * accept.btcDesiredOriginal)
    (hn : n = min (purchase accept amountPaid) accept.acceptAmountRemaining) :
    s.ledger.money buyer p .balance + n ≤ int64Max ∧
        (∃ s', s.payment env seller buyer amountPaid block = .ok (0, s') ∧
          s.Pays seller buyer p accept n s') ∨
      ¬ s.ledger.money buyer p .balance + n ≤ int64Max ∧
        ∃ e, s.payment env seller buyer amountPaid block = .error e := by
  obtain ⟨-, hopen, -, hoffered, -⟩ := hi.accepts _ _ hl.accept_eq
  obtain ⟨hn₀, hpayment⟩ :=
    payment_of_fit hpaid hl.paymentAccept_eq hopen hoffered hprice hfit hn
  have hle : n ≤ accept.acceptAmountRemaining := hn ▸ min_le_right _ _
  have hfunds : n ≤ s.ledger.money seller p .acceptReserve := by
    rw [hi.reserve seller p hseller]
    exact hle.trans (remaining_le_acceptSum hi hseller hbuyer hl.accept_eq)
  rw [hpayment]
  rcases transfer_cases seller buyer p hi.inRange hn₀ hfunds with ⟨hmax, m, hm⟩ | ⟨hmax, e, he⟩
  · refine .inl ⟨hmax, ?_⟩
    have hposted := posted_of_assertTallies hm
    rw [hm, ok_bind]
    dsimp only [FoundAccept.key]
    split_ifs with hall
    · have hzero : (accept.reduce n).acceptAmountRemaining = 0 :=
        sub_eq_zero.mpr (hall.antisymm hle)
      obtain ⟨s', hs', hledger, haccepts⟩ := finishAccept_of_zero m seller buyer p hzero
      refine ⟨s', by rw [hs']; rfl, ?_, ?_⟩
      · intro a q t
        rw [hledger]
        exact hposted.2.money_eq a q t
      · rw [getAccept, haccepts, OrderedMap.get?_erase, if_pos rfl]
        exact hzero.symm
    · refine ⟨_, rfl, hposted.2.money_eq, ?_⟩
      rw [getAccept, setAccept, OrderedMap.get?_set, if_pos rfl]
      rfl
  · refine .inr ⟨hmax, e, ?_⟩
    rw [he, error_bind]

theorem returnTally_ne_acceptReserve (offer : Option Offer) (accept : Accept) :
    returnTally offer accept ≠ .acceptReserve := by
  rcases returnTally_cases offer accept with h | ⟨h, -⟩
  · rw [h]
    nofun
  · rw [h]
    nofun

theorem acceptReserve_of_finishAccept (h : s.finishAccept seller buyer p = .ok s') :
    s'.ledger.money seller p .acceptReserve ≤ s.ledger.money seller p .acceptReserve := by
  obtain ⟨⟨rc, m⟩, hm, h⟩ := bind_eq_ok.mp h
  have haccept : m.ledger.money seller p .acceptReserve ≤
      s.ledger.money seller p .acceptReserve := by
    rw [acceptDestroy.eq_def] at hm
    split at hm
    · cases hm
      exact le_rfl
    · obtain ⟨m', hm', hm⟩ := bind_eq_ok.mp hm
      cases hm
      have hmoney := (posted_of_assertTallies hm').money_ite (a := seller) (q := p)
        (t := .acceptReserve)
      have htally := returnTally_ne_acceptReserve (s.getOffer seller p) ‹_›
      simp only [Account.mk.injEq, htally, and_false, if_false, add_zero] at hmoney
      simp only [if_true, eraseAccept]
      rw [hmoney]
      split_ifs <;> omega
  dsimp only at h
  split_ifs at h
  · obtain ⟨⟨rc', m'⟩, hm', h⟩ := bind_eq_ok.mp h
    cases h
    rcases offerDestroy_cases hm' with ⟨-, -, rfl⟩ | ⟨-, -, m'', hm'', rfl⟩
    · exact haccept
    · have hmoney := hm''.money_ite (a := seller) (q := p) (t := .acceptReserve)
      simp only [Account.mk.injEq, reduceCtorEq, and_false, if_false, sub_zero, add_zero] at hmoney
      exact hmoney.trans_le haccept
  · cases h
    exact haccept

theorem Reversed.reserve_lt (hr : s.Reversed env seller buyer block p accept) (hi : DexInv s)
    (hpaid : 0 < amountPaid) (hprice : 0 < accept.btcDesiredOriginal)
    (hfit : amountPaid * accept.offerAmountOriginal ≤ int64Max * accept.btcDesiredOriginal)
    (h : s.payment env seller buyer amountPaid block = .ok (rc, s')) :
    rc = 0 ∧
      s'.ledger.money seller p .acceptReserve < s.ledger.money seller p .acceptReserve := by
  obtain ⟨-, hopen, -, hoffered, -⟩ := hi.accepts _ _ hr.accept_eq
  obtain ⟨hn, hpayment⟩ :=
    payment_of_fit hpaid hr.paymentAccept_eq hopen hoffered hprice hfit rfl
  rw [hpayment] at h
  obtain ⟨m, hm, h⟩ := bind_eq_ok.mp h
  have hmoney := (posted_of_assertTallies hm).money_transfer (a := seller) (q := p)
    (t := .acceptReserve)
  simp only [Account.mk.injEq, reduceCtorEq, and_false, if_true, if_false, add_zero] at hmoney
  dsimp only at hn
  split_ifs at h
  · obtain ⟨m', hm', hrc⟩ := exists_ok_of_map h
    cases hrc
    have hfinish := acceptReserve_of_finishAccept hm'
    simp only [setAccept] at hfinish
    refine ⟨rfl, ?_⟩
    omega
  · cases h
    refine ⟨rfl, ?_⟩
    simp only [setAccept]
    omega

end Outcome

/-- A payment returns, succeeds exactly for an open accept of the payer on an offer of the seller
and then pays it. -/
def PaysAccept (s : NodeState) (env : Environment) (seller buyer : Address)
    (amountPaid block : Int) : Prop :=
  ∃ rc s', s.payment env seller buyer amountPaid block = .ok (rc, s') ∧
    (rc = 0 ↔ 0 < amountPaid ∧ ∃ p accept, s.getAccept seller p buyer = some accept ∧
      0 < accept.acceptAmountRemaining) ∧
    (rc = 0 → ∃ p accept, s.getAccept seller p buyer = some accept ∧
      s.Pays seller buyer p accept
        (min accept.acceptAmountRemaining (purchase accept amountPaid)) s')

/-- The conditions of a payment: an accept of the payer on the seller is found if there is one,
its terms have a positive price and a purchase that fits, the buyer's balance can take it, and
the roles are exchanged at most for a payment of nothing. -/
structure PaymentSound (s : NodeState) (env : Environment) (seller buyer : Address)
    (amountPaid block : Int) : Prop where
  found : 0 < amountPaid → ∀ q accept, s.getAccept seller q buyer = some accept →
    ∃ p accept', s.Locates env seller buyer block p accept'
  fits : ∀ p accept, s.Locates env seller buyer block p accept →
    0 < accept.btcDesiredOriginal ∧
    amountPaid * accept.offerAmountOriginal ≤ int64Max * accept.btcDesiredOriginal ∧
    (0 < amountPaid → s.ledger.money buyer p .balance +
      min accept.acceptAmountRemaining (purchase accept amountPaid) ≤ int64Max)
  roles : ∀ p accept, s.Reversed env seller buyer block p accept →
    amountPaid = 0 ∧ 0 < accept.btcDesiredOriginal

variable {a : Address}
theorem PaysAccept.paymentSound (hi : DexInv s) (hpaid : 0 ≤ amountPaid)
    (hseller : PlainAddress seller) (hbuyer : PlainAddress buyer)
    (h : s.PaysAccept env seller buyer amountPaid block) :
    s.PaymentSound env seller buyer amountPaid block := by
  obtain ⟨rc, s', hpayment, hiff, hpays⟩ := h
  -- a price or a purchase that does not fit would have stopped the node
  have hfit : ∀ found, s.paymentAccept env seller buyer block = some found →
      0 < found.accept.btcDesiredOriginal ∧ amountPaid * found.accept.offerAmountOriginal ≤
        int64Max * found.accept.btcDesiredOriginal := by
    intro found hfound
    by_contra hunfit
    rw [payment_of_unfit hi hpaid hfound hunfit] at hpayment
    cases hpayment
  have hroles : ∀ p accept, s.Reversed env seller buyer block p accept → amountPaid = 0 := by
    intro p accept hr
    by_contra hne
    have hpos : 0 < amountPaid := hpaid.lt_of_ne' hne
    obtain ⟨hprice, hle⟩ := hfit _ hr.paymentAccept_eq
    obtain ⟨hrc, hlt⟩ := hr.reserve_lt hi hpos hprice hle hpayment
    obtain ⟨q, accept', haccept', hq⟩ := hpays hrc
    have hne : q ≠ p := by
      rintro rfl
      rw [hr.none_eq] at haccept'
      cases haccept'
    have hmoney := hq.money_eq seller p .acceptReserve
    simp only [Posting.transfer, Posting.net_cons, Posting.net_nil, Account.mk.injEq, hne,
      false_and, and_false, if_false, add_zero] at hmoney
    exact absurd hlt hmoney.ge.not_gt
  refine ⟨?_, ?_, fun p accept hr => ⟨hroles p accept hr, (hfit _ hr.paymentAccept_eq).1⟩⟩
  · intro hpos q accept haccept
    have hrc := hiff.mpr ⟨hpos, q, accept, haccept, (hi.accepts _ _ haccept).2.1⟩
    cases hfound : s.paymentAccept env seller buyer block with
    | none =>
      rw [payment_of_none hfound, hrc] at hpayment
      cases hpayment
    | some found =>
      rcases locates_or_reversed hfound with hl | ⟨p, accept', hr⟩
      · exact hl
      · exact absurd (hroles p accept' hr) hpos.ne'
  · intro p accept hl
    obtain ⟨hprice, hle⟩ := hfit _ hl.paymentAccept_eq
    refine ⟨hprice, hle, ?_⟩
    intro hpos
    rw [min_comm]
    rcases hl.payment_cases hi hseller hbuyer hpos hprice hle rfl with ⟨hmax, -⟩ | ⟨-, e, he⟩
    · exact hmax
    · rw [he] at hpayment
      cases hpayment

theorem PaymentSound.paysAccept (hi : DexInv s) (hpaid : 0 ≤ amountPaid)
    (hseller : PlainAddress seller) (hbuyer : PlainAddress buyer)
    (h : s.PaymentSound env seller buyer amountPaid block) :
    s.PaysAccept env seller buyer amountPaid block := by
  -- a payment of nothing finds an accept with a price or none, and fails either way
  have hzero : ∀ found, s.paymentAccept env seller buyer block = some found →
      0 < found.accept.btcDesiredOriginal → amountPaid = 0 →
      s.PaysAccept env seller buyer amountPaid block := by
    intro found hfound hprice hz
    subst hz
    obtain ⟨s', hs'⟩ := payment_of_zero hi hfound hprice
    refine ⟨_, s', hs', iff_of_false (by decide) fun hr => absurd hr.1 (lt_irrefl _), fun hrc => ?_⟩
    cases hrc
  cases hfound : s.paymentAccept env seller buyer block with
  | none =>
    refine ⟨_, s, payment_of_none hfound, iff_of_false (by decide) ?_, fun hrc => nomatch hrc⟩
    rintro ⟨hpos, q, accept, haccept, -⟩
    obtain ⟨p, accept', hl⟩ := h.found hpos q accept haccept
    rw [hl.paymentAccept_eq] at hfound
    cases hfound
  | some found =>
    rcases locates_or_reversed hfound with ⟨p, accept, hl⟩ | ⟨p, accept, hr⟩
    · obtain ⟨hprice, hle, hmax⟩ := h.fits p accept hl
      rcases hpaid.eq_or_lt with hz | hpos
      · exact hzero _ hl.paymentAccept_eq hprice hz.symm
      · rcases hl.payment_cases hi hseller hbuyer hpos hprice hle rfl with
          ⟨-, s', hs', hpays⟩ | ⟨hover, -⟩
        · have hopen := (hi.accepts _ _ hl.accept_eq).2.1
          refine ⟨0, s', hs', iff_of_true rfl ⟨hpos, p, accept, hl.accept_eq, hopen⟩, fun _ => ?_⟩
          rw [min_comm] at hpays
          exact ⟨p, accept, hl.accept_eq, hpays⟩
        · rw [min_comm] at hover
          exact absurd (hmax hpos) hover
    · obtain ⟨hz, hprice⟩ := h.roles p accept hr
      exact hzero _ hr.paymentAccept_eq hprice hz

/-- In every state that the exchange reaches by payments to sellers, a payment is safe and pays
the right accept exactly under the conditions for it. -/
theorem paysAccept_iff (hstart : s.DexStart) {calls : List (Int × Operation)}
    (hcalls : ∀ c ∈ calls, c.2.OnDex) (hpays : s.paysSellers env calls = true)
    (hrun : s.runOperations env calls = .ok s') (hseller : PlainAddress seller)
    (hbuyer : PlainAddress buyer) (hpaid : 0 ≤ amountPaid) :
    s'.PaysAccept env seller buyer amountPaid block ↔
      s'.PaymentSound env seller buyer amountPaid block := by
  have hi : DexInv s' := (dexKept_of_runOperations hstart.inv hcalls hpays hrun).inv
  constructor
  · intro h
    exact h.paymentSound hi hpaid hseller hbuyer
  · intro h
    exact h.paysAccept hi hpaid hseller hbuyer

def sampleAccepted (desired : Int) : List (Int × Operation) :=
  [(100, .offerCreate ['s'] 3 5 desired 0 10 1), (100, .acceptCreate ['c'] ['s'] 3 4 0)]

theorem paysAccept_of_sampleAccepted :
    ∃ s', sampleSellers.runOperations (.plain .test) (sampleAccepted 5) = .ok s' ∧
      s'.ledger.money ['s'] 3 .acceptReserve = 4 ∧
      (s'.PaysAccept (.plain .test) ['s'] ['c'] 1 101 ↔
        s'.PaymentSound (.plain .test) ['s'] ['c'] 1 101) := by
  obtain ⟨s', hrun, hmoney⟩ := exists_ok_of_map
    (g := fun s => s.ledger.money ['s'] 3 .acceptReserve)
    (x := sampleSellers.runOperations (.plain .test) (sampleAccepted 5)) (b := 4)
    (by decide +kernel)
  have hcalls : ∀ c ∈ sampleAccepted 5, c.2.OnDex := by
    simp [sampleAccepted, Operation.OnDex, PlainAddress]
  have hpays : sampleSellers.paysSellers (.plain .test) (sampleAccepted 5) = true := by
    decide +kernel
  have hs : PlainAddress ['s'] := by simp [PlainAddress]
  have hc : PlainAddress ['c'] := by simp [PlainAddress]
  exact ⟨s', hrun, hmoney,
    paysAccept_iff dexStart_sampleSellers hcalls hpays hrun hs hc (by decide)⟩

/-- A desired amount above the signed range is a negative price, which stops the node when the
buyer pays. -/
theorem payment_of_negative_price : sampleSellers.DexStart ∧
    (∀ c ∈ sampleAccepted (-2 ^ 63), c.2.OnDex) ∧
    sampleSellers.paysSellers (.plain .test) (sampleAccepted (-2 ^ 63)) = true ∧
    ∃ s', sampleSellers.runOperations (.plain .test) (sampleAccepted (-2 ^ 63)) = .ok s' ∧
      s'.payment (.plain .test) ['s'] ['c'] 1 101 = .error .rangeAssert := by
  obtain ⟨s', hrun, hpayment⟩ := exists_ok_of_map
    (g := fun s => failure (s.payment (.plain .test) ['s'] ['c'] 1 101))
    (x := sampleSellers.runOperations (.plain .test) (sampleAccepted (-2 ^ 63)))
    (b := some .rangeAssert) (by decide +kernel)
  refine ⟨dexStart_sampleSellers, ?_, by decide +kernel, s', hrun, eq_error_of_failure hpayment⟩
  simp [sampleAccepted, Operation.OnDex, PlainAddress]

end NodeState

end TradeLayer
