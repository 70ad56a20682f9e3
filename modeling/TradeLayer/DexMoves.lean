import TradeLayer.Dex

namespace TradeLayer
open Library

/-- Everything the exchange against bitcoins does to a state: it moves tokens between balances
and reserves and rewrites its own maps. -/
structure DexTransfers (s s' : NodeState) : Prop where
  frame : s' = { s with ledger := s'.ledger, myOffers := s'.myOffers, myAccepts := s'.myAccepts }
  posted : ∃ ps, s.ledger.Posted ps s'.ledger ∧ Moves ps

namespace DexTransfers

variable {s s' m : NodeState} {ps : List (Posting Account)} {key : List Char} {offer : Offer}
variable {accept : Accept}

theorem refl (s : NodeState) : DexTransfers s s :=
  ⟨rfl, [], .nil _, .nil⟩

theorem trans (h : DexTransfers s m) (h' : DexTransfers m s') : DexTransfers s s' := by
  obtain ⟨hf, ps, hp, hm⟩ := h
  obtain ⟨hf', qs, hq, hm'⟩ := h'
  refine ⟨?_, ps ++ qs, hp.trans hq, hm.append hm'⟩
  rw [hf', hf]

theorem of_posted (h : s.Posted ps m) (hm : Moves ps) : DexTransfers s m := by
  refine ⟨?_, ps, h.2, hm⟩
  rw [h.1]

theorem setOffer : DexTransfers s (s.setOffer key offer) := ⟨rfl, [], .nil _, .nil⟩

theorem eraseOffer : DexTransfers s (s.eraseOffer key) := ⟨rfl, [], .nil _, .nil⟩

theorem setAccept : DexTransfers s (s.setAccept key accept) := ⟨rfl, [], .nil _, .nil⟩

theorem eraseAccept : DexTransfers s (s.eraseAccept key) := ⟨rfl, [], .nil _, .nil⟩

end DexTransfers

namespace NodeState

variable {s s' : NodeState} {env : Environment} {seller buyer : Address} {p : PropertyId}
variable {amount block desired minFee feePaid rc : Int} {window txid : Nat} {force : Bool}

theorem offerCreate_cases
    (h : s.offerCreate seller p amount block desired minFee window txid = .ok (rc, s')) :
    Rejected rc s s' ∨ rc = 0 ∧ ∃ m offer, offer.property = p ∧
      s.Posted (Posting.transfer ⟨seller, p, .balance⟩ ⟨seller, p, .sellOfferReserve⟩ amount) m ∧
      s' = m.setOffer (strSellofferAddrPropCombo seller p) offer := by
  unfold offerCreate at h
  split_ifs at h with h₁ h₂ h₃ h₄ h₅
  any_goals exact .inl (.of_ok (by decide) h)
  obtain ⟨m, hm, h⟩ := bind_eq_ok.mp h
  cases h
  exact .inr ⟨rfl, m, _, rfl, posted_of_assertTallies hm, rfl⟩

theorem offerDestroy_cases (h : s.offerDestroy seller p = .ok (rc, s')) :
    s.offerExists seller p = false ∧ rc = dexErrorSellOffer - 11 ∧ s' = s ∨
      s.offerExists seller p = true ∧ rc = 0 ∧ ∃ m,
        s.Posted (if 0 < s.ledger.getTokenBalance seller p .sellOfferReserve then
            Posting.transfer ⟨seller, p, .sellOfferReserve⟩ ⟨seller, p, .balance⟩
              (s.ledger.getTokenBalance seller p .sellOfferReserve) else []) m ∧
        s' = m.eraseOffer (strSellofferAddrPropCombo seller p) := by
  unfold offerDestroy at h
  split_ifs at h with he
  · obtain ⟨m, hm, h⟩ := bind_eq_ok.mp h
    cases h
    exact .inr ⟨he, rfl, m, posted_of_assertTallies hm, rfl⟩
  · cases h
    exact .inl ⟨by simpa using he, rfl, rfl⟩

theorem acceptCreate_cases (h : s.acceptCreate buyer seller p amount block feePaid = .ok (rc, s')) :
    Rejected rc s s' ∨ rc = 0 ∧ ∃ n m offer accept,
      s.getOffer seller p = some offer ∧ accept.property = offer.property ∧
      s.Posted (Posting.transfer ⟨seller, p, .sellOfferReserve⟩ ⟨seller, p, .acceptReserve⟩ n) m ∧
      s' = m.setAccept (strAcceptAddrPropAddrCombo seller buyer p) accept := by
  unfold acceptCreate at h
  split at h
  case h_1 => exact .inl (.of_ok (by decide) h)
  case h_2 offer hoffer =>
    dsimp only at h
    split_ifs at h
    any_goals exact .inl (.of_ok (by decide) h)
    obtain ⟨m, hm, h⟩ := bind_eq_ok.mp h
    cases h
    exact .inr ⟨rfl, _, m, offer, _, hoffer, rfl, posted_of_assertTallies hm, rfl⟩

theorem dexTransfers_of_offerCreate
    (h : s.offerCreate seller p amount block desired minFee window txid = .ok (rc, s')) :
    DexTransfers s s' := by
  rcases offerCreate_cases h with ⟨-, rfl⟩ | ⟨-, m, offer, -, hm, rfl⟩
  · exact .refl _
  · exact (DexTransfers.of_posted hm (.transfer (by decide) (by decide))).trans .setOffer

theorem dexTransfers_of_offerDestroy (h : s.offerDestroy seller p = .ok (rc, s')) :
    DexTransfers s s' := by
  rcases offerDestroy_cases h with ⟨-, -, rfl⟩ | ⟨-, -, m, hm, rfl⟩
  · exact .refl _
  · exact (DexTransfers.of_posted hm (.ite (.transfer (by decide) (by decide)))).trans .eraseOffer

theorem dexTransfers_of_offerUpdate
    (h : s.offerUpdate seller p amount block desired minFee window txid = .ok (rc, s')) :
    DexTransfers s s' := by
  unfold offerUpdate at h
  split_ifs at h
  · obtain ⟨⟨rc', m⟩, hm, h⟩ := bind_eq_ok.mp h
    dsimp only at h
    split_ifs at h
    · exact (dexTransfers_of_offerDestroy hm).trans (dexTransfers_of_offerCreate h)
    · cases h
      exact dexTransfers_of_offerDestroy hm
  · cases h
    exact .refl _

theorem dexTransfers_of_acceptCreate
    (h : s.acceptCreate buyer seller p amount block feePaid = .ok (rc, s')) :
    DexTransfers s s' := by
  rcases acceptCreate_cases h with ⟨-, rfl⟩ | ⟨-, n, m, offer, accept, -, -, hm, rfl⟩
  · exact .refl _
  · exact (DexTransfers.of_posted hm (.transfer (by decide) (by decide))).trans .setAccept

theorem returnTally_mem (offer : Option Offer) (accept : Accept) :
    returnTally offer accept ∈ circulatingTallies := by
  unfold returnTally
  split
  · decide
  · split_ifs <;> decide

theorem dexTransfers_of_acceptDestroy (h : s.acceptDestroy buyer seller p force = .ok (rc, s')) :
    DexTransfers s s' := by
  unfold acceptDestroy at h
  split at h
  · cases h
    exact .refl _
  · obtain ⟨m, hm, h⟩ := bind_eq_ok.mp h
    cases h
    have hmove := DexTransfers.of_posted (posted_of_assertTallies hm)
      (.ite (.transfer (by decide) (returnTally_mem _ _)))
    split_ifs
    · exact hmove.trans .eraseAccept
    · exact hmove

theorem dexTransfers_of_finishAccept (h : s.finishAccept seller buyer p = .ok s') :
    DexTransfers s s' := by
  obtain ⟨⟨rc, m⟩, hm, h⟩ := bind_eq_ok.mp h
  dsimp only at h
  split_ifs at h
  · obtain ⟨⟨rc', m'⟩, hm', h⟩ := bind_eq_ok.mp h
    cases h
    exact (dexTransfers_of_acceptDestroy hm).trans (dexTransfers_of_offerDestroy hm')
  · cases h
    exact dexTransfers_of_acceptDestroy hm

theorem dexTransfers_of_payment (h : s.payment env seller buyer amount block = .ok (rc, s')) :
    DexTransfers s s' := by
  unfold payment at h
  split at h
  case h_1 =>
    cases h
    exact .refl _
  case h_2 found hfound =>
    split_ifs at h with hz
    · cases h
      exact .refl _
    · obtain ⟨n, -, h⟩ := bind_eq_ok.mp h
      obtain ⟨m, hm, h⟩ := bind_eq_ok.mp h
      have hpaid : ∀ key accept, DexTransfers s (m.setAccept key accept) := fun key accept =>
        (DexTransfers.of_posted (posted_of_assertTallies hm)
          (.ite (.transfer (by decide) (by decide)))).trans .setAccept
      dsimp only at h
      by_cases hd : found.accept.acceptAmountRemaining ≤ min n found.accept.acceptAmountRemaining
      · rw [if_pos hd] at h
        obtain ⟨m', hm', h⟩ := bind_eq_ok.mp h
        cases h
        exact (hpaid _ _).trans (dexTransfers_of_finishAccept hm')
      · rw [if_neg hd] at h
        cases h
        exact hpaid _ _

theorem dexTransfers_of_eraseExpiredLoop {accepts : List (List Char × Accept)}
    (h : eraseExpiredLoop block s accepts = .ok s') : DexTransfers s s' := by
  induction accepts generalizing s with
  | nil =>
    cases h
    exact .refl _
  | cons e accepts ih =>
    unfold eraseExpiredLoop at h
    split_ifs at h
    · split at h
      · obtain ⟨⟨rc, m⟩, hm, h⟩ := bind_eq_ok.mp h
        exact ((dexTransfers_of_acceptDestroy hm).trans .eraseAccept).trans (ih h)
      · cases h
    · exact ih h

theorem dexTransfers_of_eraseExpiredAccepts (h : s.eraseExpiredAccepts block = .ok s') :
    DexTransfers s s' :=
  dexTransfers_of_eraseExpiredLoop h

end NodeState

end TradeLayer
