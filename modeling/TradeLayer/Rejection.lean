import TradeLayer.Reach

namespace TradeLayer
open Library

namespace NodeState

variable {s s' m : NodeState} {env : Environment} {others : OtherTypes}
variable {place : Int ×ₗ Nat} {raw : RawTransaction} {kind : TransactionType}
variable {tx : CMPTransaction} {block rc reserve : Int} {idx : Nat}

/-- Two states with the same amounts, freeze sets, offers, accepts, orders and property
records. -/
structure SameState (s s' : NodeState) : Prop where
  money : ∀ a p t, s'.ledger.money a p t = s.ledger.money a p t
  freeze : s'.ledger.freeze = s.ledger.freeze
  offers : s'.myOffers = s.myOffers
  accepts : s'.myAccepts = s.myAccepts
  metadex : s'.metadex = s.metadex
  contractdex : s'.contractdex = s.contractdex
  properties : s'.spInfo = s.spInfo

theorem SameState.refl : SameState s s := ⟨fun _ _ _ => rfl, rfl, rfl, rfl, rfl, rfl, rfl⟩

theorem SameState.of_rejected (h : Rejected rc s s') : SameState s s' := by
  obtain ⟨-, rfl⟩ := h
  exact .refl

/-- The old offer is taken away and then the new terms are refused. -/
def LosesOffer (s : NodeState) (tx : CMPTransaction) : Prop :=
  s.UpdatesOffer (s.typeAllowed tx) tx ∧ s.RefusesTerms tx

/-- Margin is locked and then the order is refused for want of a price. -/
def LosesMargin (s : NodeState) (env : Environment) (tx : CMPTransaction) : Prop :=
  ∃ reserve, s.LocksMargin env tx reserve ∧ 0 < reserve ∧ tx.effectivePrice = 0

/-- The messages that come to be refused half way through their work. -/
def RefusedHalfway (s : NodeState) (env : Environment) (tx : CMPTransaction) : Prop :=
  s.ledger.freeze.isAddressFrozen tx.sender tx.property = false ∧
    (TransactionType.ofCode tx.type = some .tradeOffer ∧ s.LosesOffer tx ∨
      TransactionType.ofCode tx.type = some .contractdexTrade ∧ s.LosesMargin env tx)

theorem tradeOffer_unchanged_iff
    (h : s.logicMathTradeOffer (s.typeAllowed tx) tx = .ok (rc, s')) :
    (rc < 0 → SameState s s') ↔ ¬ s.LosesOffer tx := by
  constructor
  · rintro hsame ⟨hupdates, hrefuses⟩
    rw [logicMathTradeOffer_of_updatesOffer hupdates] at h
    obtain ⟨hrc, hgone⟩ := tradeOfferUpdate_refused_iff hupdates.offer h
    have hneg := hrc.mpr hrefuses
    have hoffer := hupdates.offer
    rw [offerExists, getOffer, ← (hsame hneg).offers] at hoffer
    exact absurd hoffer (by rw [← getOffer, ← offerExists, hgone hneg]; decide)
  · intro hkept hneg
    rcases logicMathTradeOffer_cases h with (h | ⟨rfl, -⟩) | ⟨hupdates, h⟩
    · exact .of_rejected h
    · exact absurd hneg (lt_irrefl _)
    · exact absurd ⟨hupdates, (tradeOfferUpdate_refused_iff hupdates.offer h).1.mp hneg⟩ hkept

theorem sameState_of_margin_iff {a : Address} {p : PropertyId}
    (h : s.Posted (if 0 < reserve then Posting.transfer ⟨a, p, .balance⟩
      ⟨a, p, .contractdexMargin⟩ reserve else []) m) : SameState s m ↔ ¬ 0 < reserve := by
  constructor
  · intro hsame hpos
    have hmoney := hsame.money a p .balance
    rw [h.2.money_eq, if_pos hpos] at hmoney
    simp only [Posting.transfer, Posting.net_cons, Posting.net_nil, Account.mk.injEq, reduceCtorEq,
      and_false, if_true, if_false] at hmoney
    omega
  · intro hpos
    rw [if_neg hpos] at h
    have hframe := h.1
    refine ⟨fun a p t => ?_, h.2.freeze_eq, ?_, ?_, ?_, ?_, ?_⟩
    · rw [h.2.money_eq, Posting.net_nil, add_zero]
    all_goals rw [hframe]

theorem sameState_withContract : SameState (s.withContract env tx) s' ↔ SameState s s' :=
  ⟨fun h => ⟨h.money, h.freeze, h.offers, h.accepts, h.metadex, h.contractdex, h.properties⟩,
    fun h => ⟨h.money, h.freeze, h.offers, h.accepts, h.metadex, h.contractdex, h.properties⟩⟩

theorem contractDexTrade_unchanged_iff
    (hfresh : toLex (tx.block, tx.txIdx) ∉ Book.positions s.contractdex)
    (h : s.logicMathContractDexTrade env tx = .ok (rc, s')) :
    (rc < 0 → SameState s s') ↔ ¬ s.LosesMargin env tx := by
  have hfresh' : toLex (tx.block, tx.txIdx) ∉
    Book.positions (s.withContract env tx).contractdex := hfresh
  constructor
  · rintro hsame ⟨reserve, hlocks, hpos, hprice⟩
    rw [logicMathContractDexTrade_of_locksMargin hlocks] at h
    obtain ⟨m, hp, ⟨-, hneg, rfl⟩ | ⟨hne, -, -⟩⟩ := contractTradeExecute_cases hfresh' h
    · exact (sameState_of_margin_iff hp).mp (sameState_withContract.mpr (hsame hneg)) hpos
    · exact hne hprice
  · intro hkept hneg
    rcases logicMathContractDexTrade_cases h with ⟨-, rfl | rfl⟩ | ⟨reserve, hlocks, h⟩
    · exact .refl
    · exact sameState_withContract.mp .refl
    · obtain ⟨m, hp, ⟨hprice, -, rfl⟩ | ⟨-, rfl, -⟩⟩ := contractTradeExecute_cases hfresh' h
      · have hnone : ¬ 0 < reserve := fun hpos => hkept ⟨reserve, hlocks, hpos, hprice⟩
        exact sameState_withContract.mp ((sameState_of_margin_iff hp).mpr hnone)
      · exact absurd hneg (lt_irrefl _)

theorem freezing_unchanged (hkind : TransactionType.ofCode raw.type = some kind)
    (hf : kind.IsFreezing = true)
    (h : s.interpretPacket env others (raw.parse block idx).unlockLogic = .ok (rc, s'))
    (hneg : rc < 0) : SameState s s' := by
  rcases interpretPacket_freezing_cases hkind hf h with h | ⟨rfl, -⟩
  · exact .of_rejected h
  · exact absurd hneg (lt_irrefl _)

/-- In every state that is reached, a message that returns an error has changed nothing, unless
it was refused half way. -/
theorem unchanged_of_refused_iff (hs : Reached env others place s)
    (hplace : place < toLex (block, idx))
    (hkind : TransactionType.ofCode raw.type = some kind) (hmodelled : kind.Modelled = true)
    (h : s.interpretPacket env others (raw.parse block idx).unlockLogic = .ok (rc, s')) :
    (rc < 0 → SameState s s') ↔
      ¬ ∃ tx, (raw.parse block idx).unlockLogic.interpretTransaction env others = some tx ∧
        s.RefusedHalfway env tx := by
  have hpacket := h
  cases hparse : (raw.parse block idx).unlockLogic.interpretTransaction env others with
  | none =>
    rw [interpretPacket_of_interpret_none rfl hparse] at h
    simp [SameState.of_rejected (.of_ok (by decide) h)]
  | some tx =>
    have hheader := RawTransaction.sameHeader_of_interpret hkind hmodelled hparse
    have htx : TransactionType.ofCode tx.type = some kind := (congrArg _ hheader.type).trans hkind
    have hplaceTx : place < toLex (tx.block, tx.txIdx) := by
      rw [hheader.block, hheader.txIdx]
      exact hplace
    rw [interpretPacket_of_interpret rfl hparse] at h
    simp only [Option.some.injEq, exists_eq_left', RefusedHalfway, htx]
    split_ifs at h with hfrozen
    · simp [hfrozen, SameState.of_rejected (.of_ok (by decide) h)]
    simp only [hfrozen, true_and]
    by_cases hoffer : kind = .tradeOffer
    · rw [logicMath, htx, hoffer] at h
      simp only [hoffer, reduceCtorEq, false_and, or_false, true_and]
      exact tradeOffer_unchanged_iff h
    by_cases hcontract : kind = .contractdexTrade
    · rw [logicMath, htx, hcontract] at h
      simp only [hcontract, reduceCtorEq, false_and, false_or, true_and]
      exact contractDexTrade_unchanged_iff (hs.sound.contractdex_fresh hplaceTx) h
    simp only [hoffer, hcontract, false_and, or_false, not_false_eq_true, iff_true]
    intro hneg
    by_cases hf : kind.IsFreezing = true
    · exact freezing_unchanged hkind hf hpacket hneg
    · have hplain : kind.IsPlain = true := by
        simp [TransactionType.IsPlain, hmodelled, hf, hoffer, hcontract]
      rcases answered_of_logicMath htx hplain (hs.sound.metadex_fresh hplaceTx) h with
        h | ⟨rfl, -⟩
      · exact .of_rejected h
      · exact absurd hneg (lt_irrefl _)

def sampleToSelf (payload : List UInt8) : RawTransaction := ⟨7, ['i'], ['i'], payload, 0⟩

def sampleGrant : RawTransaction :=
  sampleToSelf [0, 0, 0, 55, 0, 0, 0, 3, 0, 0, 0, 0, 0, 0, 0, 100]

def sampleOffer (subaction paymentWindow : UInt8) : RawTransaction :=
  sampleToSelf ([0, 1, 0, 20, 0, 0, 0, 3, 0, 0, 0, 0, 0, 0, 0, 50, 0, 0, 0, 0, 0, 0, 0, 9,
    paymentWindow, 0, 0, 0, 0, 0, 0, 0, 1, subaction])

def sampleGranted : NodeState :=
  (oneManaged .test ['i']).handle (.plain .test) .none 100 1 sampleGrant

def sampleOffered : NodeState :=
  sampleGranted.handle (.plain .test) .none 101 1 (sampleOffer 1 10)

theorem sampleOffered_reached : Reached (.plain .test) .none (toLex (101, 1)) sampleOffered := by
  have hstart : Reached (.plain .test) .none (toLex (0, 0)) (initial .test .zero) := .start
  have hmanaged : Reached (.plain .test) .none (toLex (0, 0)) (oneManaged .test ['i']) :=
    hstart.other (le_refl _) rfl (by simp [oneManaged, initial]) (by simp [oneManaged, initial])
  have hkindGrant : TransactionType.ofCode sampleGrant.type = some .grantPropertyTokens := by
    decide +kernel
  have hgranted : Reached (.plain .test) .none (toLex (100, 1)) sampleGranted :=
    hmanaged.handle (by decide) hkindGrant rfl (by decide +kernel)
  have hkindOffer : TransactionType.ofCode (sampleOffer 1 10).type = some .tradeOffer := by
    decide +kernel
  exact hgranted.handle (by decide) hkindOffer rfl (by decide +kernel)

/-- An update without a payment window is refused, and the offer is gone. -/
theorem offer_lost_of_sampleOffer :
    Reached (.plain .test) .none (toLex (101, 1)) sampleOffered ∧
      ∃ s', sampleOffered.interpretPacket (.plain .test) .none
          ((sampleOffer 2 0).parse 102 1).unlockLogic = .ok (dexErrorSellOffer - 101, s') ∧
        ¬ SameState sampleOffered s' := by
  refine ⟨sampleOffered_reached, ?_⟩
  obtain ⟨⟨rc, s'⟩, h, hr⟩ := exists_ok_of_map
    (g := fun r : Int × NodeState => (r.1, r.2.offerExists ['i'] 3))
    (x := sampleOffered.interpretPacket (.plain .test) .none
      ((sampleOffer 2 0).parse 102 1).unlockLogic)
    (b := (dexErrorSellOffer - 101, false)) (by decide +kernel)
  obtain ⟨rfl, hgone⟩ := Prod.mk.inj hr
  refine ⟨s', h, fun hsame => ?_⟩
  have hoffer : sampleOffered.offerExists ['i'] 3 = true := by decide +kernel
  rw [offerExists, getOffer, hsame.offers] at hgone
  exact absurd hoffer (by rw [offerExists, getOffer, hgone]; decide)

def sampleSend : RawTransaction :=
  sampleToSelf [0, 0, 0, 0, 0, 0, 0, 3, 0, 0, 0, 0, 0, 0, 0, 200]

theorem unchanged_of_sampleSend :
    ∃ s', sampleOffered.interpretPacket (.plain .test) .none (sampleSend.parse 102 1).unlockLogic =
        .ok (pktErrorSend - 25, s') ∧ SameState sampleOffered s' := by
  obtain ⟨⟨rc, s'⟩, h, hr⟩ := exists_ok_of_map (g := fun r : Int × NodeState => r.1)
    (x := sampleOffered.interpretPacket (.plain .test) .none (sampleSend.parse 102 1).unlockLogic)
    (b := pktErrorSend - 25) (by decide +kernel)
  obtain rfl : rc = pktErrorSend - 25 := hr
  have hkind : TransactionType.ofCode sampleSend.type = some .simpleSend := by decide +kernel
  refine ⟨s', h, (unchanged_of_refused_iff sampleOffered_reached (by decide) hkind rfl h).mpr ?_
    (by decide)⟩
  rintro ⟨tx, htx, -, h⟩
  have hheader := RawTransaction.sameHeader_of_interpret hkind rfl htx
  have htype : TransactionType.ofCode tx.type = some .simpleSend := by
    rw [hheader.type]
    decide +kernel
  rw [htype] at h
  rcases h with ⟨h, -⟩ | ⟨h, -⟩ <;> cases h

end NodeState

end TradeLayer
