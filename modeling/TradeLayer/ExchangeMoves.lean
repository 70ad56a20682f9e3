import TradeLayer.ContractMatches
import TradeLayer.DexMoves
import TradeLayer.Exchange
import TradeLayer.MetaDExTrades

namespace TradeLayer
open Library

namespace NodeState

variable {s s' : NodeState} {env : Environment} {allowed : PropertyId → Bool}
variable {tx : CMPTransaction} {rc reserve : Int}
variable {seller : Address} {p : PropertyId}

structure UpdatesOffer (s : NodeState) (allowed : PropertyId → Bool) (tx : CMPTransaction) :
    Prop where
  allowed_property : allowed tx.property = true
  range : tx.nValue.toNat < 2 ^ 63
  tradable : s.isFeatureActivated .freeDex tx.block = true ∨ tx.property = tlPropertyTmsc ∨
    tx.property = tlPropertyMsc
  action : tx.version = mpTxPktV0 ∧ tx.nValue ≠ 0 ∨
    tx.version = mpTxPktV1 ∧ tx.subaction = subactionUpdate
  offer : s.offerExists tx.sender tx.property = true

theorem logicMathTradeOffer_of_updatesOffer (h : s.UpdatesOffer allowed tx) :
    s.logicMathTradeOffer allowed tx = s.tradeOfferUpdate tx := by
  have htradable : ¬ (¬ s.isFeatureActivated .freeDex tx.block = true ∧
      tx.property ≠ tlPropertyTmsc ∧ tx.property ≠ tlPropertyMsc) := by
    have := h.tradable
    tauto
  rw [logicMathTradeOffer, if_neg (not_not.mpr h.allowed_property), if_neg (not_le.mpr h.range),
    if_neg htradable]
  rcases h.action with ⟨hv, hn⟩ | ⟨hv, hsub⟩
  · rw [if_pos hv, tradeOfferV0, if_pos hn, if_pos h.offer]
  · rw [if_neg (by rw [hv]; decide), if_pos hv, tradeOfferV1, if_pos h.offer,
      if_neg (by rw [hsub]; decide), if_pos hsub]

theorem offerCreate_rejected_or {amount block desired minFee : Int} {window txid : Nat}
    (h : s.offerCreate seller p amount block desired minFee window txid = .ok (rc, s')) :
    Rejected rc s s' ∨ rc = 0 ∧ DexTransfers s s' :=
  (offerCreate_cases h).imp_right fun hc => ⟨hc.1, dexTransfers_of_offerCreate h⟩

theorem offerDestroy_rejected_or (h : s.offerDestroy seller p = .ok (rc, s')) :
    Rejected rc s s' ∨ rc = 0 ∧ DexTransfers s s' := by
  rcases offerDestroy_cases h with ⟨-, rfl, rfl⟩ | ⟨-, hrc, -⟩
  · exact .inl ⟨by decide, rfl⟩
  · exact .inr ⟨hrc, dexTransfers_of_offerDestroy h⟩

theorem tradeOfferV0_cases (h : s.tradeOfferV0 tx = .ok (rc, s')) :
    (Rejected rc s s' ∨ rc = 0 ∧ DexTransfers s s') ∨
      tx.nValue ≠ 0 ∧ s.offerExists tx.sender tx.property = true ∧
        s.tradeOfferUpdate tx = .ok (rc, s') := by
  unfold tradeOfferV0 at h
  by_cases hn : tx.nValue ≠ 0 <;> by_cases ho : s.offerExists tx.sender tx.property = true
  · rw [if_pos hn, if_pos ho] at h
    exact .inr ⟨hn, ho, h⟩
  · rw [if_pos hn, if_neg ho] at h
    exact .inl (offerCreate_rejected_or h)
  · rw [if_neg hn, if_pos ho] at h
    exact .inl (offerDestroy_rejected_or h)
  · rw [if_neg hn, if_neg ho] at h
    exact .inl (.inl (.of_ok (by decide) h))

theorem tradeOfferV1_cases (h : s.tradeOfferV1 tx = .ok (rc, s')) :
    (Rejected rc s s' ∨ rc = 0 ∧ DexTransfers s s') ∨
      tx.subaction = subactionUpdate ∧ s.offerExists tx.sender tx.property = true ∧
        s.tradeOfferUpdate tx = .ok (rc, s') := by
  unfold tradeOfferV1 at h
  split_ifs at h with ho hcancel hupdate hnew
  · exact .inl (offerDestroy_rejected_or h)
  · exact .inr ⟨hupdate, ho, h⟩
  · exact .inl (.inl (.of_ok (by decide) h))
  · exact .inl (offerCreate_rejected_or h)
  · exact .inl (.inl (.of_ok (by decide) h))

theorem logicMathTradeOffer_cases (h : s.logicMathTradeOffer allowed tx = .ok (rc, s')) :
    (Rejected rc s s' ∨ rc = 0 ∧ DexTransfers s s') ∨
      s.UpdatesOffer allowed tx ∧ s.tradeOfferUpdate tx = .ok (rc, s') := by
  unfold logicMathTradeOffer at h
  by_cases hallowed : allowed tx.property = true
  swap
  · rw [if_pos hallowed] at h
    exact .inl (.inl (.of_ok (by decide) h))
  rw [if_neg (not_not.mpr hallowed)] at h
  split_ifs at h with hrange htradable hv0 hv1
  · exact .inl (.inl (.of_ok (by decide) h))
  · exact .inl (.inl (.of_ok (by decide) h))
  · refine (tradeOfferV0_cases h).imp_right fun ⟨hn, ho, hu⟩ => ⟨⟨hallowed, ?_, ?_, ?_, ho⟩, hu⟩
    · exact not_le.mp hrange
    · tauto
    · exact .inl ⟨hv0, hn⟩
  · refine (tradeOfferV1_cases h).imp_right fun ⟨hsub, ho, hu⟩ => ⟨⟨hallowed, ?_, ?_, ?_, ho⟩, hu⟩
    · exact not_le.mp hrange
    · tauto
    · exact .inr ⟨hv1, hsub⟩
  · exact .inl (.inl (.of_ok (by decide) h))

/-- The terms of an offer that are refused once the old offer has been taken back. -/
def RefusesTerms (s : NodeState) (tx : CMPTransaction) : Prop :=
  tx.blocktimelimit = 0 ∨ asInt64 tx.amountDesired = 0 ∨ asInt64 tx.nValue ≤ 0 ∨
    s.ledger.money tx.sender tx.property .balance +
      max (s.ledger.money tx.sender tx.property .sellOfferReserve) 0 < asInt64 tx.nValue

theorem offerCreate_refused_iff {amount block desired minFee : Int} {window txid : Nat}
    (hnone : s.offerExists seller p = false)
    (h : s.offerCreate seller p amount block desired minFee window txid = .ok (rc, s')) :
    rc < 0 ↔ window = 0 ∨ desired = 0 ∨ amount ≤ 0 ∨ s.ledger.money seller p .balance < amount := by
  have hbalance : s.ledger.getTokenBalance seller p .balance = s.ledger.money seller p .balance :=
    rfl
  unfold offerCreate at h
  rw [hnone, hbalance] at h
  simp only [Bool.false_eq_true, if_false] at h
  split_ifs at h with h₁ h₂ h₃ h₄
  · cases h
    simp [h₁]
    decide
  · cases h
    simp [h₂]
    decide
  · cases h
    simp [h₃]
    decide
  · obtain ⟨m, -, h⟩ := bind_eq_ok.mp h
    cases h
    simp only [lt_irrefl, h₁, h₂, false_or, false_iff, not_or, not_le, not_lt]
    omega
  · cases h
    simp [not_lt.mp h₄]
    decide

theorem tradeOfferUpdate_refused_iff (ho : s.offerExists tx.sender tx.property = true)
    (h : s.tradeOfferUpdate tx = .ok (rc, s')) :
    (rc < 0 ↔ s.RefusesTerms tx) ∧ (rc < 0 → s'.offerExists tx.sender tx.property = false) := by
  rw [tradeOfferUpdate, offerUpdate, if_pos ho] at h
  obtain ⟨⟨rc', m⟩, hm, h⟩ := bind_eq_ok.mp h
  rcases offerDestroy_cases hm with ⟨hno, -, -⟩ | ⟨-, rfl, m', hm', rfl⟩
  · rw [ho] at hno
    cases hno
  dsimp only at h
  rw [if_pos rfl] at h
  have hnone : (m'.eraseOffer (strSellofferAddrPropCombo tx.sender tx.property)).offerExists
      tx.sender tx.property = false := by
    simp [offerExists, getOffer, eraseOffer, OrderedMap.get?_erase]
  have hmoney : m'.ledger.money tx.sender tx.property .balance =
      s.ledger.money tx.sender tx.property .balance +
        max (s.ledger.money tx.sender tx.property .sellOfferReserve) 0 := by
    have hreserve : s.ledger.getTokenBalance tx.sender tx.property .sellOfferReserve =
      s.ledger.money tx.sender tx.property .sellOfferReserve := rfl
    rw [hm'.2.money_eq, hreserve]
    split_ifs with hpos
    · simp [Posting.transfer, max_eq_left hpos.le]
    · simp [max_eq_right (not_lt.mp hpos)]
  have hiff := offerCreate_refused_iff hnone h
  refine ⟨hiff.trans ?_, fun hrc => ?_⟩
  · rw [RefusesTerms, ← hmoney]
    rfl
  · rcases offerCreate_cases h with ⟨-, rfl⟩ | ⟨rfl, -⟩
    · exact hnone
    · exact absurd hrc (lt_irrefl _)

def collateral (s : NodeState) (pfuture : FutureContractObject) (tx : CMPTransaction)
    (ttype : TallyType) : Int :=
  s.ledger.money tx.sender pfuture.fcoCollateralCurrency ttype

/-- The checks that an order for contracts passes before its margin is computed. -/
structure ReachesMargin (s : NodeState) (env : Environment) (tx : CMPTransaction) : Prop where
  block_active : (env.chainActive tx.block).isSome = true
  registered : s.kycRegister tx.sender
    (kycResult (s.getFutureContractObject env tx)) = true
  period : ∃ expiry, checked32 ((s.getFutureContractObject env tx).fcoInitBlock +
      asInt32 (s.getFutureContractObject env tx).fcoBlocksUntilExpiration) =
        .ok expiry ∧
    ¬ (expiry < tx.block ∨ tx.block < (s.getFutureContractObject env tx).fcoInitBlock)

/-- The checks that it passes before its margin is locked. -/
structure LocksMargin (s : NodeState) (env : Environment) (tx : CMPTransaction) (reserve : Int) :
    Prop extends ReachesMargin s env tx where
  margin : amountToReserve (s.getFutureContractObject env tx) tx = .ok reserve
  funds : ¬ (s.collateral (s.getFutureContractObject env tx) tx .balance < reserve ∨
    s.collateral (s.getFutureContractObject env tx) tx .balance = 0)

def withContract (s : NodeState) (env : Environment) (tx : CMPTransaction) : NodeState :=
  { s with idContract := (s.getFutureContractObject env tx).fcoPropertyId }

theorem logicMathContractDexTrade_of_reaches (h : s.ReachesMargin env tx)
    (hpfuture : s.getFutureContractObject env tx = pfuture) :
    s.logicMathContractDexTrade env tx = amountToReserve pfuture tx >>= fun reserve =>
      if s.collateral pfuture tx .balance < reserve ∨ s.collateral pfuture tx .balance = 0 then
        .ok (pktErrorSend - 25, s.withContract env tx)
      else (s.withContract env tx).contractTradeExecute env pfuture tx reserve := by
  subst hpfuture
  obtain ⟨hblock, hregistered, expiry, hexpiry, hperiod⟩ := h
  have hblock' : ¬ (env.chainActive tx.block).isNone = true := by
    simpa [Option.isSome_iff_ne_none] using hblock
  rw [logicMathContractDexTrade, if_neg hblock', if_neg (not_not.mpr hregistered), hexpiry,
    ok_bind, if_neg hperiod]
  rfl

theorem logicMathContractDexTrade_of_locksMargin (h : s.LocksMargin env tx reserve) :
    s.logicMathContractDexTrade env tx = (s.withContract env tx).contractTradeExecute env
      (s.getFutureContractObject env tx) tx reserve := by
  rw [logicMathContractDexTrade_of_reaches h.toReachesMargin rfl, h.margin, ok_bind]
  exact if_neg h.funds

/-- An order for contracts is refused, which changes nothing but the last contract looked up,
or its margin is locked. -/
theorem logicMathContractDexTrade_cases (h : s.logicMathContractDexTrade env tx = .ok (rc, s')) :
    rc < 0 ∧ (s' = s ∨ s' = s.withContract env tx) ∨ ∃ reserve, s.LocksMargin env tx reserve ∧
      (s.withContract env tx).contractTradeExecute env
        (s.getFutureContractObject env tx) tx reserve = .ok (rc, s') := by
  unfold logicMathContractDexTrade at h
  split_ifs at h with hblock
  · cases h
    exact .inl ⟨by decide, .inl rfl⟩
  dsimp only at h
  by_cases hregistered : s.kycRegister tx.sender
    (kycResult (s.getFutureContractObject env tx)) = true
  swap
  · rw [if_pos hregistered] at h
    cases h
    exact .inl ⟨by decide, .inr rfl⟩
  rw [if_neg (not_not.mpr hregistered)] at h
  obtain ⟨expiry, hexpiry, h⟩ := bind_eq_ok.mp h
  split_ifs at h with hperiod
  · cases h
    exact .inl ⟨by decide, .inr rfl⟩
  obtain ⟨reserve, hreserve, h⟩ := bind_eq_ok.mp h
  split_ifs at h with hfunds
  · cases h
    exact .inl ⟨by decide, .inr rfl⟩
  · refine .inr ⟨reserve, ⟨⟨?_, hregistered, expiry, hexpiry, hperiod⟩, hreserve, hfunds⟩, h⟩
    simpa [Option.isSome_iff_ne_none] using hblock

end NodeState

end TradeLayer
