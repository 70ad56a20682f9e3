import TradeLayer.Effects
import TradeLayer.ExchangeMoves
import TradeLayer.FreezeMessages

namespace TradeLayer
open Library

def TransactionType.IsPlain (kind : TransactionType) : Bool :=
  kind.Modelled && !kind.IsFreezing && kind != .tradeOffer && kind != .contractdexTrade

namespace NodeState

variable {s s' m : NodeState} {env : Environment} {others : OtherTypes}
variable {allowed : PropertyId → Bool} {tx : CMPTransaction} {kind : TransactionType}
variable {rc reserve : Int} {place : Int ×ₗ Nat}

def Answered (place : Int ×ₗ Nat) (rc : Int) (s s' : NodeState) : Prop :=
  Rejected rc s s' ∨ rc = 0 ∧ Keeps place s s'

namespace Answered

theorem of_rejected_or {P : Prop} (h : Rejected rc s s' ∨ rc = 0 ∧ P)
    (hP : P → Keeps place s s') : Answered place rc s s' :=
  h.imp_right fun hd => ⟨hd.1, hP hd.2⟩

theorem keeps (h : Answered place rc s s') : Keeps place s s' :=
  h.elim Keeps.of_rejected And.right

end Answered

theorem keeps_of_stoStages {receivers : OwnerAddrType} {m₁ m₂ m₃ : NodeState}
    (h : StoStages s env tx receivers m₁ m₂ m₃ s') : Keeps place s s' := by
  have hcredit : Keeps place m₁ m₂ := by
    have hc := h.credit
    unfold stoCreditFee at hc
    split_ifs at hc
    · cases hc
      exact .refl
    · exact .of_paidOut (paidOut_of_addFee hc)
  have hnotify : Keeps place m₃ s' := by
    have hn := h.notify
    unfold stoNotify at hn
    split_ifs at hn
    · exact .of_paidOut (paidOut_of_notifyTotalTokensChanged hn)
    · cases hn
      exact .refl
  exact (((Keeps.of_posted h.charge).trans hcredit).trans (.of_posted h.pay)).trans hnotify

theorem answered_of_logicMathSendToOwners
    (h : s.logicMathSendToOwners env allowed tx = .ok (rc, s')) : Answered place rc s s' := by
  refine .of_rejected_or (logicMathSendToOwners_cases h) ?_
  rintro ⟨receivers, -, -, m₁, m₂, m₃, hstages⟩
  exact keeps_of_stoStages hstages

theorem answered_of_logicMathSendVestingTokens
    (h : s.logicMathSendVestingTokens tx = .ok (rc, s')) : Answered place rc s s' := by
  obtain ⟨hrc, hframe, hp⟩ := logicMathSendVestingTokens_cases h
  exact .inr ⟨hrc, .of_spares hp.spares (by rw [hframe]) (by rw [hframe])⟩

theorem answered_of_logicMathSendPeggedCurrency
    (h : s.logicMathSendPeggedCurrency allowed tx = .ok (rc, s')) : Answered place rc s s' := by
  refine .of_rejected_or (logicMathSendPeggedCurrency_cases h) ?_
  rintro ⟨hframe, hp⟩
  exact .of_spares hp.spares (by rw [hframe]) (by rw [hframe])

theorem answered_of_logicMathGrantTokens
    (h : s.logicMathGrantTokens env allowed tx = .ok (rc, s')) : Answered place rc s s' := by
  rcases logicMathGrantTokens_passes h with h | ⟨sp, blockHash, -, h⟩
  · exact .inl h
  · obtain ⟨hrc, db, m, hp, hpaid⟩ := grantExecute_cases h
    have hrecord : Keeps place s { s with spInfo := db } := .of_spares .refl rfl rfl
    exact .inr ⟨hrc, (hrecord.trans (.of_posted hp)).trans (.of_paidOut hpaid)⟩

theorem answered_of_logicMathRevokeTokens
    (h : s.logicMathRevokeTokens env allowed tx = .ok (rc, s')) : Answered place rc s s' := by
  rcases logicMathRevokeTokens_passes h with h | ⟨sp, blockHash, -, -, h⟩
  · exact .inl h
  · obtain ⟨hrc, db, m, hp, hpaid⟩ := revokeExecute_cases h
    have hrecord : Keeps place m { m with spInfo := db } := .of_spares .refl rfl rfl
    exact .inr ⟨hrc, ((Keeps.of_posted hp).trans hrecord).trans (.of_paidOut hpaid)⟩

theorem answered_of_logicMathChangeIssuer
    (h : s.logicMathChangeIssuer env allowed tx = .ok (rc, s')) : Answered place rc s s' := by
  refine .of_rejected_or (logicMathChangeIssuer_cases h) ?_
  rintro ⟨-, sp, blockHash, -, rfl⟩
  exact .of_spares .refl rfl rfl

theorem answered_of_logicMathAcceptOfferBtc
    (h : s.logicMathAcceptOfferBtc allowed tx = .ok (rc, s')) : Answered place rc s s' := by
  unfold logicMathAcceptOfferBtc at h
  split_ifs at h with hallowed hrange
  · exact .inl (.of_ok (by decide) h)
  · have hmove := dexTransfers_of_acceptCreate h
    exact (acceptCreate_cases h).imp_right fun hc => ⟨hc.1, .of_dexTransfers hmove⟩
  · exact .inl (.of_ok (by decide) h)

theorem checkPair_neg (h : s.checkPair allowed tx = some rc) : rc < 0 := by
  unfold checkPair at h
  split_ifs at h <;> cases h <;> decide

theorem checkPairAmounts_neg (h : s.checkPairAmounts allowed tx = some rc) : rc < 0 := by
  rcases Option.or_eq_some_iff.mp h with h | ⟨-, h⟩
  · exact checkPair_neg h
  · split_ifs at h <;> cases h <;> decide

theorem answered_of_logicMathMetaDExTrade
    (hfresh : toLex (tx.block, tx.txIdx) ∉ Book.positions s.metadex)
    (h : s.logicMathMetaDExTrade env allowed tx = .ok (rc, s')) :
    Answered (toLex (tx.block, tx.txIdx)) rc s s' := by
  unfold logicMathMetaDExTrade at h
  split at h
  case h_1 r hr =>
    exact .inl (.of_ok (checkPairAmounts_neg hr) h)
  case h_2 =>
    split_ifs at h
    · exact .inl (.of_ok (by decide) h)
    · exact .inl (.of_ok (by decide) h)
    · have hkeeps := Keeps.of_metaDExAdd h
      rcases metaDExAdd_cases h with ⟨rfl, rfl⟩ | ⟨o, m, ht, h⟩
      · exact .inl ⟨by decide, rfl⟩
      · rcases h with ⟨-, hc, -, -⟩ | ⟨-, -, rfl, -⟩ | ⟨-, rfl, -⟩
        · obtain ⟨x, hx, hk⟩ := Keyed.contains_eq_true.mp hc
          have ho : o.position = toLex (tx.block, tx.txIdx) :=
            congrArg MetaDEx.position (incoming_of_trades ht).1
          have hpos : o.position ∈ Book.positions m.metadex := ⟨_, _, x, hx, hk⟩
          exact absurd (positions_of_trades ht (ho ▸ hpos)) hfresh
        · exact .inr ⟨rfl, hkeeps⟩
        · exact .inr ⟨rfl, hkeeps⟩

theorem answered_of_cancels (h : rc < 0 ∧ s' = s ∨ rc = 0 ∧ Cancels s s') :
    Answered place rc s s' :=
  .of_rejected_or h .of_cancels

theorem answered_of_logicMathMetaDExCancelPrice
    (h : s.logicMathMetaDExCancelPrice allowed tx = .ok (rc, s')) : Answered place rc s s' := by
  unfold logicMathMetaDExCancelPrice at h
  split at h
  case h_1 r hr => exact .inl (.of_ok (checkPairAmounts_neg hr) h)
  case h_2 => exact answered_of_cancels (metaDExCancelAtPrice_cases h)

theorem answered_of_logicMathMetaDExCancelPair
    (h : s.logicMathMetaDExCancelPair allowed tx = .ok (rc, s')) : Answered place rc s s' := by
  unfold logicMathMetaDExCancelPair at h
  split at h
  case h_1 r hr => exact .inl (.of_ok (checkPair_neg hr) h)
  case h_2 => exact answered_of_cancels (metaDExCancelAllForPair_cases h)

theorem answered_of_logicMathMetaDExCancelEcosystem
    (h : s.logicMathMetaDExCancelEcosystem allowed tx = .ok (rc, s')) :
    Answered place rc s s' := by
  unfold logicMathMetaDExCancelEcosystem at h
  split_ifs at h
  · exact .inl (.of_ok (by decide) h)
  · exact answered_of_cancels (metaDExCancelEverything_cases h)
  · exact .inl (.of_ok (by decide) h)

theorem keeps_of_shutdownIf {f : Feature} {featureId : Nat}
    {shutdown : NodeState → Except Abort (Int × NodeState)}
    (hshutdown : ∀ s s' rc, shutdown s = .ok (rc, s') → Cancels s s')
    (h : s.shutdownIf f featureId shutdown = .ok s') : Keeps place s s' := by
  unfold shutdownIf at h
  split_ifs at h
  · obtain ⟨⟨rc, m⟩, hm, rfl⟩ := exists_ok_of_map h
    exact .of_cancels (hshutdown _ _ _ hm)
  · cases h
    exact .refl

theorem answered_of_logicMathDeactivation
    (h : s.logicMathDeactivation env allowed tx = .ok (rc, s')) : Answered place rc s s' := by
  unfold logicMathDeactivation at h
  split_ifs at h
  · split at h
    · exact .inl (.of_ok (by decide) h)
    · obtain ⟨m₁, h₁, h⟩ := bind_eq_ok.mp h
      obtain ⟨m₂, h₂, h⟩ := bind_eq_ok.mp h
      cases h
      have hfeatures : ∀ {features}, Keeps place s { s with features } :=
        .of_spares .refl rfl rfl
      exact .inr ⟨rfl, (hfeatures.trans (keeps_of_shutdownIf
        (fun _ _ _ => cancels_of_metaDExShutdown) h₁)).trans (keeps_of_shutdownIf
        (fun _ _ _ => cancels_of_metaDExShutdownAllPair) h₂)⟩
  · exact .inl (.of_ok (by decide) h)
  · exact .inl (.of_ok (by decide) h)

theorem answered_of_logicMathActivation
    (h : s.logicMathActivation env allowed tx = .ok (rc, s')) : Answered place rc s s' := by
  unfold logicMathActivation at h
  split_ifs at h
  · split at h
    · exact .inl (.of_ok (by decide) h)
    · cases h
      exact .inr ⟨rfl, .of_spares .refl rfl rfl⟩
  · exact .inl (.of_ok (by decide) h)
  · exact .inl (.of_ok (by decide) h)

theorem keeps_of_logicMathTradeOffer (h : s.logicMathTradeOffer allowed tx = .ok (rc, s')) :
    Keeps place s s' := by
  rcases logicMathTradeOffer_cases h with (h | ⟨-, h⟩) | ⟨-, h⟩
  · exact .of_rejected h
  · exact .of_dexTransfers h
  · exact .of_dexTransfers (dexTransfers_of_offerUpdate h)

theorem keeps_of_contractDexAdd {a : Address} {p : PropertyId} {n block : Int}
    {txid idx effectivePrice action : Nat}
    (h : s.contractDexAdd env a p n block txid idx effectivePrice action = .ok (rc, s')) :
    Keeps (toLex (block, idx)) s s' := by
  rcases contractDexAdd_cases h with ⟨-, -, rfl⟩ | ⟨-, o, m, hfilled, h⟩
  · exact .refl
  · obtain ⟨ps, hp⟩ := hfilled.posted
    have hbook : m.metadex = s.metadex := by
      have hframe := hfilled.frame
      dsimp only at hframe
      rw [hframe]
    have hmatched : Keeps (toLex (block, idx)) s m := by
      refine ⟨hp.spares, ?_, ?_⟩
      · rw [hbook]
        exact Set.subset_insert _ _
      · exact (hfilled.positions (Set.Subset.refl _)).trans (Set.subset_insert _ _)
    rcases h with ⟨-, rfl, -⟩ | ⟨-, rfl⟩ | ⟨-, rfl⟩
    · exact hmatched
    · obtain ⟨n', ho⟩ := hfilled.order
      have hk : o.position = toLex (block, idx) := congrArg ContractDex.position ho
      exact ⟨hmatched.spares, hmatched.metadex,
        Book.positions_file (.inl hk) hmatched.contractdex⟩
    · exact hmatched

/-- An order for contracts whose place is not yet taken, with its margin locked: a price of
zero is refused, any other order is filed. -/
theorem contractTradeExecute_cases {pfuture : FutureContractObject}
    (hfresh : toLex (tx.block, tx.txIdx) ∉ Book.positions s.contractdex)
    (h : s.contractTradeExecute env pfuture tx reserve = .ok (rc, s')) :
    ∃ m, s.Posted (if 0 < reserve then
        Posting.transfer ⟨tx.sender, pfuture.fcoCollateralCurrency, .balance⟩
          ⟨tx.sender, pfuture.fcoCollateralCurrency, .contractdexMargin⟩ reserve else []) m ∧
      (tx.effectivePrice = 0 ∧ rc < 0 ∧ s' = m ∨
        tx.effectivePrice ≠ 0 ∧ rc = 0 ∧ Keeps (toLex (tx.block, tx.txIdx)) m s') := by
  obtain ⟨m, hm, h⟩ := bind_eq_ok.mp h
  have hp := posted_of_assertTallies hm
  refine ⟨m, hp, ?_⟩
  have hkeeps := keeps_of_contractDexAdd h
  rw [← UInt64.toNat_inj, ne_eq, ← UInt64.toNat_inj]
  rcases contractDexAdd_cases h with ⟨hprice, rfl, rfl⟩ | ⟨hprice, o, m', hfilled, h⟩
  · exact .inl ⟨hprice, by decide, rfl⟩
  · refine .inr ⟨hprice, ?_, hkeeps⟩
    rcases h with ⟨-, -, hmem⟩ | ⟨rfl, -⟩ | ⟨rfl, -⟩
    · obtain ⟨n', ho⟩ := hfilled.order
      have hk : o.position = toLex (tx.block, tx.txIdx) := congrArg ContractDex.position ho
      have hbook : m.contractdex = s.contractdex := by rw [hp.1]
      have hplace := hfilled.positions (Set.Subset.refl _) hmem
      rw [hk, hbook] at hplace
      exact absurd hplace hfresh
    · rfl
    · rfl

theorem keeps_of_logicMathContractDexTrade
    (hfresh : toLex (tx.block, tx.txIdx) ∉ Book.positions s.contractdex)
    (h : s.logicMathContractDexTrade env tx = .ok (rc, s')) :
    Keeps (toLex (tx.block, tx.txIdx)) s s' := by
  have hlooked : Keeps (toLex (tx.block, tx.txIdx)) s (s.withContract env tx) :=
    .of_spares .refl rfl rfl
  rcases logicMathContractDexTrade_cases h with ⟨-, rfl | rfl⟩ | ⟨reserve, -, h⟩
  · exact .refl
  · exact hlooked
  · have hfresh' : toLex (tx.block, tx.txIdx) ∉
      Book.positions (s.withContract env tx).contractdex := hfresh
    obtain ⟨m, hp, ⟨-, -, rfl⟩ | ⟨-, -, hk⟩⟩ := contractTradeExecute_cases hfresh' h
    · exact hlooked.trans (.of_posted hp)
    · exact (hlooked.trans (.of_posted hp)).trans hk

theorem answered_of_logicMath (hkind : TransactionType.ofCode tx.type = some kind)
    (hplain : kind.IsPlain = true)
    (hfresh : toLex (tx.block, tx.txIdx) ∉ Book.positions s.metadex)
    (h : s.logicMath env others tx = .ok (rc, s')) :
    Answered (toLex (tx.block, tx.txIdx)) rc s s' := by
  rw [logicMath, hkind] at h
  cases kind with
  | simpleSend => exact .of_rejected_or (logicMathSimpleSend_cases h) fun hd => .of_posted hd.2
  | sendToOwners => exact answered_of_logicMathSendToOwners h
  | sendAll =>
    refine .of_rejected_or (logicMathSendAll_cases h) ?_
    rintro ⟨ps, hp, -⟩
    exact .of_posted hp
  | sendVesting => exact answered_of_logicMathSendVestingTokens h
  | acceptOfferBtc => exact answered_of_logicMathAcceptOfferBtc h
  | metadexTrade => exact answered_of_logicMathMetaDExTrade hfresh h
  | metadexCancelPrice => exact answered_of_logicMathMetaDExCancelPrice h
  | metadexCancelPair => exact answered_of_logicMathMetaDExCancelPair h
  | metadexCancelEcosystem => exact answered_of_logicMathMetaDExCancelEcosystem h
  | grantPropertyTokens => exact answered_of_logicMathGrantTokens h
  | revokePropertyTokens => exact answered_of_logicMathRevokeTokens h
  | changeIssuerAddress => exact answered_of_logicMathChangeIssuer h
  | sendPeggedCurrency => exact answered_of_logicMathSendPeggedCurrency h
  | commitChannel =>
    exact .of_rejected_or (logicMathCommitChannel_cases h) fun hp => .of_posted hp
  | transfer => exact .of_rejected_or (logicMathTransfer_cases h) fun hp => .of_posted hp
  | deactivation => exact answered_of_logicMathDeactivation h
  | activation => exact answered_of_logicMathActivation h
  | _ => cases hplain

end NodeState

end TradeLayer
