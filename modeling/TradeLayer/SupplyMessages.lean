import TradeLayer.ContractFills
import TradeLayer.SupplyMoves

namespace TradeLayer
open Library

namespace NodeState

variable {s s' : NodeState} {env : Environment} {allowed : PropertyId → Bool}
variable {tx : CMPTransaction} {p : PropertyId} {block rc : Int}

theorem gains_of_logicMathSimpleSend (h : s.logicMathSimpleSend allowed tx = .ok (rc, s')) :
    Gains block p 0 s s' := by
  rcases logicMathSimpleSend_cases h with h | ⟨-, hlt, hp⟩
  · exact .of_rejected h
  · rw [wireTransfer_eq hlt] at hp
    exact .of_state_moves hp (.transfer (by decide) (by decide))

theorem gains_of_logicMathSendAll (h : s.logicMathSendAll allowed tx = .ok (rc, s')) :
    Gains block p 0 s s' := by
  rcases logicMathSendAll_cases h with h | ⟨-, ps, hp, hm⟩
  · exact .of_rejected h
  · exact .of_state_moves hp hm

theorem dexTransfers_of_logicMathTradeOffer (h : s.logicMathTradeOffer allowed tx = .ok (rc, s')) :
    DexTransfers s s' := by
  unfold logicMathTradeOffer tradeOfferV0 tradeOfferV1 at h
  split_ifs at h
  all_goals first
    | exact dexTransfers_of_offerUpdate h
    | exact dexTransfers_of_offerCreate h
    | exact dexTransfers_of_offerDestroy h
    | (cases h; exact .refl _)

theorem dexTransfers_of_logicMathAcceptOfferBtc
    (h : s.logicMathAcceptOfferBtc allowed tx = .ok (rc, s')) : DexTransfers s s' := by
  unfold logicMathAcceptOfferBtc at h
  split_ifs at h
  · cases h
    exact .refl _
  · exact dexTransfers_of_acceptCreate h
  · cases h
    exact .refl _

theorem gains_of_logicMathMetaDExTrade
    (h : s.logicMathMetaDExTrade env allowed tx = .ok (rc, s')) : Gains tx.block p 0 s s' := by
  unfold logicMathMetaDExTrade at h
  split at h
  · cases h
    exact .refl
  · split_ifs at h
    · cases h
      exact .refl
    · cases h
      exact .refl
    · exact gains_of_metaDExAdd h

theorem gains_of_logicMathMetaDExCancelPrice
    (h : s.logicMathMetaDExCancelPrice allowed tx = .ok (rc, s')) : Gains block p 0 s s' := by
  unfold logicMathMetaDExCancelPrice at h
  split at h
  · cases h
    exact .refl
  · exact gains_of_cancel (metaDExCancelAtPrice_cases h)

theorem gains_of_logicMathMetaDExCancelPair
    (h : s.logicMathMetaDExCancelPair allowed tx = .ok (rc, s')) : Gains block p 0 s s' := by
  unfold logicMathMetaDExCancelPair at h
  split at h
  · cases h
    exact .refl
  · exact gains_of_cancel (metaDExCancelAllForPair_cases h)

theorem gains_of_logicMathMetaDExCancelEcosystem
    (h : s.logicMathMetaDExCancelEcosystem allowed tx = .ok (rc, s')) : Gains block p 0 s s' := by
  unfold logicMathMetaDExCancelEcosystem at h
  split_ifs at h
  · cases h
    exact .refl
  · exact gains_of_cancel (metaDExCancelEverything_cases h)
  · cases h
    exact .refl

section Contracts

/-- An order for contracts is about another property: neither the contract nor its collateral
is the property. -/
structure TradesOther (s : NodeState) (env : Environment) (p : PropertyId) (tx : CMPTransaction) :
    Prop where
  contract : (s.getFutureContractObject env tx).fcoPropertyId ≠ p
  collateral : (s.getFutureContractObject env tx).fcoCollateralCurrency ≠ p
  record : ∀ sp, s.spInfo.getSP (s.getFutureContractObject env tx).fcoPropertyId =
    some sp → sp.collateralCurrency ≠ p

variable {pnew pnew' pold : ContractDex} {price : Nat} {l : Ledger}

theorem property_matchPostings :
    ∀ x ∈ matchPostings l pnew pold, x.account.property = pold.property := by
  have hposition : ∀ {who : Address} {n : Int} {t u : TallyType},
      ∀ x ∈ positionPostings l who pold.property n t u, x.account.property = pold.property := by
    intro who n t u x hx
    unfold positionPostings at hx
    dsimp only at hx
    split_ifs at hx <;> simp only [List.mem_cons, List.not_mem_nil, or_false] at hx
    · rw [hx]
    · rcases hx with rfl | rfl <;> rfl
    · rw [hx]
  intro x hx
  unfold matchPostings at hx
  dsimp only at hx
  split_ifs at hx
  · rcases List.mem_append.mp hx with hx | hx <;> exact hposition x hx
  · cases hx

theorem gains_of_matchContract (hproperty : pnew.property ≠ p)
    (hrecord : ∀ sp, s.spInfo.getSP pnew.property = some sp → sp.collateralCurrency ≠ p)
    (h : s.matchContract env price pnew pold = .ok (pnew', s')) :
    Gains block p 0 s s' ∧ s'.spInfo = s.spInfo ∧ pnew'.property = pnew.property := by
  obtain ⟨-, hsame, ⟨-, rfl, rfl⟩ | ⟨sp, m, hsp, hm, rfl, rfl⟩⟩ := matchContract_matched h
  · exact ⟨.refl, rfl, rfl⟩
  · obtain ⟨qs, hposted, hqs⟩ := hm.posted
    obtain ⟨n, n', hafter⟩ := ContractDex.afterMatch_eq pnew pold
    have hspInfo : (m.replaceContract pnew.property price pold (pnew.afterMatch pold).1
        (ContractDex.remaining pnew pold)).spInfo = s.spInfo := by
      rw [replaceContract, hm.settled.frame]
    refine ⟨.of_others hposted ?_ ?_ hspInfo, hspInfo, by rw [hafter]⟩
    · rw [List.forall_mem_append]
      constructor
      · intro x hx
        rw [property_matchPostings x hx, hsame]
        exact hproperty
      · intro x hx
        rw [(hqs x hx).2]
        exact hrecord sp (hsame ▸ hsp)
    · rw [replaceContract, hm.settled.frame]

theorem gains_of_meetAll {orders : List (Nat × ContractDex)} {x : ContractDex × NodeState}
    (hproperty : pnew.property ≠ p)
    (hrecord : ∀ sp, s.spInfo.getSP pnew.property = some sp → sp.collateralCurrency ≠ p)
    (h : meetAll env orders pnew s = .ok x) : Gains block p 0 s x.2 := by
  induction orders generalizing pnew s with
  | nil =>
    cases h
    exact .refl
  | cons e orders ih =>
    obtain ⟨⟨pmid, m⟩, hm, h⟩ := bind_eq_ok.mp h
    obtain ⟨hgains, hspInfo, hmid⟩ := gains_of_matchContract hproperty hrecord hm
    refine hgains.keep (ih ?_ ?_ h)
    · rw [hmid]
      exact hproperty
    · rw [hmid, hspInfo]
      exact hrecord

theorem gains_of_logicMathContractDexTrade (hother : s.TradesOther env p tx)
    (h : s.logicMathContractDexTrade env tx = .ok (rc, s')) : Gains block p 0 s s' := by
  have hlooked : Gains block p 0 s (s.withContract env tx) :=
    .of_others (s := s) (.nil _) (by simp) rfl rfl
  rcases logicMathContractDexTrade_cases h with ⟨-, rfl | rfl⟩ | ⟨reserve, -, h⟩
  · exact .refl
  · exact hlooked
  · obtain ⟨m, hm, h⟩ := bind_eq_ok.mp h
    have hp := posted_of_assertTallies hm
    have hlocked : Gains block p 0 (s.withContract env tx) m := by
      refine .of_others hp.2 (fun x hx => ?_) (by rw [hp.1]) (by rw [hp.1])
      split_ifs at hx
      · simp only [Posting.transfer, List.mem_cons, List.not_mem_nil, or_false] at hx
        rcases hx with rfl | rfl <;> exact hother.collateral
      · cases hx
    refine (hlooked.keep hlocked).keep ?_
    by_cases hprice : tx.effectivePrice.toNat = 0
    · rw [contractDexAdd, if_pos hprice] at h
      cases h
      exact .refl
    · rw [contractDexAdd_eq (Nat.pos_of_ne_zero hprice)] at h
      obtain ⟨r, hr, hrest⟩ := exists_ok_of_map h
      have hspInfo : m.spInfo = s.spInfo := by
        rw [hp.1]
        rfl
      have hmet : Gains block p 0 m r.2 := by
        refine gains_of_meetAll hother.contract ?_ hr
        rw [hspInfo]
        exact hother.record
      have hs' : s' = (insertRest r).2 := (congrArg Prod.snd hrest).symm
      subst hs'
      refine hmet.keep ?_
      rcases insertRest_cases (r := r) with ⟨heq, -⟩ | ⟨-, -, heq⟩
      · rw [heq]
        exact .refl
      · rw [heq]
        exact .of_others (s := r.2) (.nil _) (by simp) rfl rfl

end Contracts

section Issuance

variable {sp new : SPEntry} {q : PropertyId} {blockHash : Nat}

theorem gains_of_updateSP (h : s.updateSP q new = .ok s') (hsp : s.spInfo.getSP q = some sp)
    (hmanual : new.manual = sp.manual) (hfixed : new.fixed = sp.fixed) : Gains block p 0 s s' := by
  obtain ⟨hq, rfl⟩ := updateSP_eq_ok.mp h
  refine ⟨?_, id, fun _ _ => rfl, id, fun _ => id, fun _ => (add_zero _).symm⟩
  rintro ⟨sp', hsp', hm, hf⟩
  obtain ⟨-, hget, -⟩ := SPInfo.updateSP_eq s.spInfo new hq
  by_cases hpq : p = q
  · subst hpq
    rw [hsp] at hsp'
    cases hsp'
    exact ⟨new, by rw [hget, if_pos rfl], hmanual.trans hm, hfixed.trans hf⟩
  · exact ⟨sp', by rw [hget, if_neg hpq]; exact hsp', hm, hf⟩

theorem gains_of_assertTally {a : Address} {n : Int}
    (h : s.assertTally a q n .balance = .ok s') :
    Gains block p (if p = q then n else 0) s s' := by
  have hp := posted_of_assertTally h
  have hgains : Gains block p _ s s' :=
    .of_posted hp.2 (by simp [circulatingTallies]) (by rw [hp.1]) (by rw [hp.1])
  simpa [Account.Circulating, circulatingTallies, eq_comm] using hgains

theorem gains_of_grantExecute (hsp : s.spInfo.getSP tx.property = some sp)
    (h : s.grantExecute env tx sp blockHash = .ok (rc, s')) :
    Gains tx.block p (if p = tx.property then asInt64 tx.nValue else 0) s s' := by
  obtain ⟨m₁, h₁, h⟩ := bind_eq_ok.mp h
  obtain ⟨m₂, h₂, h⟩ := bind_eq_ok.mp h
  obtain ⟨m₃, h₃, h⟩ := bind_eq_ok.mp h
  cases h
  have hrecord : Gains tx.block p 0 s m₁ := gains_of_updateSP h₁ hsp rfl rfl
  simpa using (hrecord.trans (gains_of_assertTally h₂)).keep (gains_of_notifyTotalTokensChanged h₃)

theorem gains_of_revokeExecute (hsp : s.spInfo.getSP tx.property = some sp)
    (h : s.revokeExecute env tx sp blockHash = .ok (rc, s')) :
    Gains tx.block p (if p = tx.property then asInt64 (-tx.nValue) else 0) s s' := by
  obtain ⟨m₁, h₁, h⟩ := bind_eq_ok.mp h
  obtain ⟨m₂, h₂, h⟩ := bind_eq_ok.mp h
  obtain ⟨m₃, h₃, h⟩ := bind_eq_ok.mp h
  cases h
  have hsp₁ : m₁.spInfo.getSP tx.property = some sp := by
    rw [(posted_of_assertTally h₁).1]
    exact hsp
  have hrecord : Gains tx.block p 0 m₁ m₂ := gains_of_updateSP h₂ hsp₁ rfl rfl
  exact ((gains_of_assertTally h₁).keep hrecord).keep (gains_of_notifyTotalTokensChanged h₃)

end Issuance

end NodeState

end TradeLayer
