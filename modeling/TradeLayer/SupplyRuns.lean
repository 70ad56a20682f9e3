import TradeLayer.FrozenBalances
import TradeLayer.SupplyMessages

namespace TradeLayer
open Library

def settledTallies : List TallyType :=
  [.balance, .sellOfferReserve, .acceptReserve, .metadexReserve, .contractdexReserve,
    .positiveBalance, .negativeBalance, .realizedProfit, .realizedLosses, .count, .remaining,
    .liquidationPrice, .upnl, .nupnl, .unvested, .contractdexMargin, .channelReserve]

/-- The sum of a property over all addresses and all tallies but the pending one. -/
def Ledger.outstanding (l : Ledger) (p : PropertyId) : Int :=
  (settledTallies.map (l.supply p)).sum

theorem Ledger.outstanding_eq {l : Ledger} {p : PropertyId}
    (h : ∀ t, t ∉ circulatingTallies → t ≠ .pending → l.supply p t = 0) :
    l.outstanding p = l.circulation p := by
  have hzero : ((settledTallies.drop 4).map (l.supply p)).sum = 0 := by
    apply List.sum_eq_zero
    intro n hn
    obtain ⟨t, ht, rfl⟩ := List.mem_map.mp hn
    have hlist : ∀ t ∈ settledTallies.drop 4, t ∉ circulatingTallies ∧ t ≠ .pending := by decide
    exact h t (hlist t ht).1 (hlist t ht).2
  have hsplit : settledTallies = circulatingTallies ++ settledTallies.drop 4 := rfl
  rw [outstanding, hsplit, List.map_append, List.sum_append]
  exact (congrArg (_ + ·) hzero).trans (add_zero _)

section Total

variable {p : PropertyId} {n total : Int}

theorem eq_of_addTokens {x : Tally} (h : addTokens x p n = .ok total) :
    total = n + x.holding p := by
  simp only [addTokens, circulatingTallies, List.foldlM_cons, List.foldlM_nil, bind_eq_ok] at h
  obtain ⟨n₁, h₁, n₂, h₂, n₃, h₃, n₄, h₄, h⟩ := h
  cases h
  simp only [Tally.holding, circulatingTallies, List.map_cons, List.map_nil, List.sum_cons,
    List.sum_nil]
  have e₁ := (checked64_eq_ok.mp h₁).1
  have e₂ := (checked64_eq_ok.mp h₂).1
  have e₃ := (checked64_eq_ok.mp h₃).1
  have e₄ := (checked64_eq_ok.mp h₄).1
  omega

theorem eq_of_foldlM_addTokens {entries : List (Address × Tally)}
    (h : entries.foldlM (fun total e => addTokens e.2 p total) n = .ok total) :
    total = n + (entries.map fun e => e.2.holding p).sum := by
  induction entries generalizing n with
  | nil =>
    cases h
    simp
  | cons e entries ih =>
    rw [List.foldlM_cons] at h
    obtain ⟨m, hm, h⟩ := bind_eq_ok.mp h
    rw [ih h, eq_of_addTokens hm, List.map_cons, List.sum_cons, add_assoc]

theorem NodeState.eq_of_getTotalTokens {s : NodeState} (hmanaged : s.IsManaged p)
    (h : s.getTotalTokens p = .ok total) : total = s.circulation p ∧ InInt64 total := by
  obtain ⟨sp, hsp, -, hfixed⟩ := hmanaged
  rw [getTotalTokens, hsp] at h
  dsimp only at h
  rw [hfixed, if_neg Bool.false_ne_true] at h
  obtain ⟨held, hheld, h⟩ := bind_eq_ok.mp h
  obtain ⟨rfl, hin⟩ := checked64_eq_ok.mp h
  refine ⟨?_, hin⟩
  rw [eq_of_foldlM_addTokens hheld, zero_add, circulation, Ledger.circulation_eq_sum]

end Total

namespace NodeState

variable {s s' : NodeState} {env : Environment}
variable {allowed : PropertyId → Bool} {tx : CMPTransaction} {p : PropertyId}
variable {block gain rc : Int} {sp : SPEntry} {blockHash : Nat}

/-- A managed property whose tokens fit a signed variable, all of them in circulation. -/
structure Capped (block : Int) (p : PropertyId) (s : NodeState) : Prop where
  isManaged : s.IsManaged p
  nonneg : s.ledger.Nonneg
  outside : ∀ t, t ∉ circulatingTallies → t ≠ .pending → s.ledger.supply p t = 0
  cache : s.CacheInOrder p block

namespace Capped

theorem gains (hs : Capped block p s) (h : Gains block p gain s s')
    (hroom : s.circulation p + gain ≤ int64Max) : Capped block p s' where
  isManaged := h.isManaged hs.isManaged
  nonneg := h.nonneg hs.nonneg
  outside t ht hpending := (h.outside t ht).trans (hs.outside t ht hpending)
  cache :=
    { nonneg := h.cached hs.cache.upTo hs.cache.nonneg
      upTo := h.upTo hs.cache.upTo
      capped := (h.circulation_eq hs.cache.upTo).trans_le hroom }

theorem keeps (hs : Capped block p s) (h : Gains block p 0 s s') : Capped block p s' :=
  hs.gains h ((add_zero _).trans_le hs.cache.capped)

theorem later {later : Int} (hs : Capped block p s) (hle : block ≤ later) : Capped later p s :=
  ⟨hs.isManaged, hs.nonneg, hs.outside, hs.cache.nonneg, hs.cache.upTo.mono hle, hs.cache.capped⟩

theorem outstanding_le (hs : Capped block p s) : s.ledger.outstanding p ≤ int64Max := by
  rw [Ledger.outstanding_eq hs.outside]
  have hcapped := hs.cache.capped
  have hcached := hs.cache.nonneg
  rw [circulation] at hcapped
  omega

theorem balance_le (hs : Capped block p s) (a : Address) :
    s.ledger.money a p .balance ≤ s.circulation p := by
  have hsupply := hs.nonneg.money_le_supply (a := a) (p := p) (t := .balance) (by decide)
  have hsell := hs.nonneg.supply_nonneg (p := p) (t := .sellOfferReserve) (by decide)
  have haccept := hs.nonneg.supply_nonneg (p := p) (t := .acceptReserve) (by decide)
  have hmetadex := hs.nonneg.supply_nonneg (p := p) (t := .metadexReserve) (by decide)
  have hcached := hs.cache.nonneg
  simp only [circulation, Ledger.circulation, circulatingTallies, List.map_cons, List.map_nil,
    List.sum_cons, List.sum_nil]
  omega

theorem grant_fits (hs : Capped block tx.property s)
    (h : s.PassesGrant env allowed tx sp blockHash) :
    0 < asInt64 tx.nValue ∧ s.circulation tx.property + asInt64 tx.nValue ≤ int64Max := by
  obtain ⟨hne, hlt⟩ := valueOutOfRange_eq_false.mp h.range
  obtain ⟨total, htotal, hroom⟩ := h.room
  obtain ⟨rfl, hin⟩ := eq_of_getTotalTokens hs.isManaged htotal
  have hnonneg : 0 ≤ s.circulation tx.property :=
    (hs.nonneg [] tx.property .balance (by decide)).trans (hs.balance_le [])
  have hcapped := hs.cache.capped
  rw [UInt64.not_lt, UInt64.le_iff_toNat_le] at hroom
  have hdiff : (UInt64.ofInt (int64Max - s.circulation tx.property)).toNat =
      (int64Max - s.circulation tx.property).toNat := by
    rw [UInt64.ofInt, UInt64.toNat_ofNat']
    have hmax : int64Max = 2 ^ 63 - 1 := rfl
    omega
  rw [asInt64_of_lt hlt]
  have hpos : tx.nValue.toNat ≠ 0 := fun hz => hne (UInt64.toNat_inj.mp hz)
  omega

theorem exists_credit {m : NodeState} (hs : Capped block tx.property s)
    (h : s.PassesGrant env allowed tx sp blockHash) (hm : m.ledger = s.ledger) :
    ∃ m', m.assertTally tx.receiver tx.property (asInt64 tx.nValue) .balance = .ok m' := by
  obtain ⟨hpos, hfits⟩ := hs.grant_fits h
  have hnonneg := hs.nonneg tx.receiver tx.property .balance (by decide)
  have hle := hs.balance_le tx.receiver
  have hin : InInt64 (s.ledger.money tx.receiver tx.property .balance) :=
    ⟨le_trans (by decide) hnonneg, by omega⟩
  have haccepts : s.ledger.Accepts tx.receiver tx.property (asInt64 tx.nValue) .balance := by
    refine ⟨by decide, hpos.ne', (isOverflow_eq_false hin).mpr ⟨?_, ?_⟩, .inr ?_⟩
    · exact le_trans (by decide) (add_nonneg hnonneg hpos.le)
    · omega
    · exact add_nonneg hnonneg hpos.le
  rw [assertTally, hm]
  rcases Ledger.assertTally_cases s.ledger tx.receiver tx.property (asInt64 tx.nValue) .balance with
    ⟨hfrozen, -⟩ | ⟨-, hrefused, -⟩ | ⟨-, -, l, hl⟩
  · exact absurd hfrozen.2.1 (not_lt.mpr hpos.le)
  · exact absurd haccepts hrefused
  · rw [hl]
    exact ⟨_, rfl⟩

theorem grant (hs : Capped tx.block p s)
    (h : s.logicMathGrantTokens env allowed tx = .ok (rc, s')) : Capped tx.block p s' := by
  rcases logicMathGrantTokens_passes h with h | ⟨sp, blockHash, hpass, h⟩
  · exact hs.keeps (.of_rejected h)
  · have hgains := gains_of_grantExecute (p := p) hpass.record h
    by_cases hp : p = tx.property
    · rw [if_pos hp] at hgains
      refine hs.gains hgains ?_
      subst hp
      exact (hs.grant_fits hpass).2
    · rw [if_neg hp] at hgains
      exact hs.keeps hgains

theorem revoke (hs : Capped tx.block p s)
    (h : s.logicMathRevokeTokens env allowed tx = .ok (rc, s')) : Capped tx.block p s' := by
  rcases logicMathRevokeTokens_passes h with h | ⟨sp, blockHash, hrange, hsp, h⟩
  · exact hs.keeps (.of_rejected h)
  · refine hs.gains (gains_of_revokeExecute hsp h) ?_
    have hcapped := hs.cache.capped
    rw [asInt64_neg_of_lt (valueOutOfRange_eq_false.mp hrange).2]
    split_ifs <;> omega

end Capped

end NodeState

def TransactionType.MovesManaged : TransactionType → Bool
  | .simpleSend | .sendAll | .tradeOffer | .acceptOfferBtc | .metadexTrade | .metadexCancelPrice
  | .metadexCancelPair | .metadexCancelEcosystem | .contractdexTrade | .grantPropertyTokens
  | .revokePropertyTokens => true
  | _ => false

/-- A step of a node that moves tokens: a message, a payment in bitcoins for an accepted offer,
or the end of a block, which takes back the accepts that have expired. -/
inductive TokenStep
  | message (tx : CMPTransaction)
  | payment (seller buyer : Address) (amountPaid block : Int)
  | eraseExpiredAccepts (block : Int)

namespace TokenStep

def block : TokenStep → Int
  | message tx => tx.block
  | payment _ _ _ block => block
  | eraseExpiredAccepts block => block

def run (env : Environment) (others : OtherTypes) (s : NodeState) :
    TokenStep → Except Abort (Int × NodeState)
  | message tx => s.logicMath env others tx
  | payment seller buyer amountPaid block => s.payment env seller buyer amountPaid block
  | eraseExpiredAccepts block => (s.eraseExpiredAccepts block).map fun s => (0, s)

def Listed : TokenStep → Prop
  | message tx => ∃ kind, TransactionType.ofCode tx.type = some kind ∧ kind.MovesManaged = true
  | _ => True

def SparesMargin (env : Environment) (p : PropertyId) (s : NodeState) : TokenStep → Prop
  | message tx => TransactionType.ofCode tx.type = some .contractdexTrade → s.TradesOther env p tx
  | _ => True

end TokenStep

namespace NodeState

variable {s s' : NodeState} {env : Environment} {others : OtherTypes} {p : PropertyId}
variable {move : TokenStep} {block rc : Int} {tx : CMPTransaction} {kind : TransactionType}
variable {P : NodeState → TokenStep → Prop}

theorem Capped.message (hs : Capped tx.block p s)
    (hkind : TransactionType.ofCode tx.type = some kind) (hmoves : kind.MovesManaged = true)
    (hother : kind = .contractdexTrade → s.TradesOther env p tx)
    (h : s.logicMath env others tx = .ok (rc, s')) : Capped tx.block p s' := by
  rw [logicMath, hkind] at h
  cases kind with
  | simpleSend => exact hs.keeps (gains_of_logicMathSimpleSend h)
  | sendAll => exact hs.keeps (gains_of_logicMathSendAll h)
  | tradeOffer => exact hs.keeps (.of_dexTransfers (dexTransfers_of_logicMathTradeOffer h))
  | acceptOfferBtc => exact hs.keeps (.of_dexTransfers (dexTransfers_of_logicMathAcceptOfferBtc h))
  | metadexTrade => exact hs.keeps (gains_of_logicMathMetaDExTrade h)
  | metadexCancelPrice => exact hs.keeps (gains_of_logicMathMetaDExCancelPrice h)
  | metadexCancelPair => exact hs.keeps (gains_of_logicMathMetaDExCancelPair h)
  | metadexCancelEcosystem => exact hs.keeps (gains_of_logicMathMetaDExCancelEcosystem h)
  | contractdexTrade => exact hs.keeps (gains_of_logicMathContractDexTrade (hother rfl) h)
  | grantPropertyTokens => exact hs.grant h
  | revokePropertyTokens => exact hs.revoke h
  | _ => cases hmoves

theorem Capped.step (hs : Capped move.block p s) (hlisted : move.Listed)
    (hspares : move.SparesMargin env p s) (h : move.run env others s = .ok (rc, s')) :
    Capped move.block p s' := by
  cases move with
  | message tx =>
    obtain ⟨kind, hkind, hmoves⟩ := hlisted
    exact hs.message hkind hmoves (fun hk => hspares (hk ▸ hkind)) h
  | payment seller buyer amountPaid block =>
    exact hs.keeps (.of_dexTransfers (dexTransfers_of_payment h))
  | eraseExpiredAccepts block =>
    obtain ⟨m, hm, hr⟩ := exists_ok_of_map h
    cases hr
    exact hs.keeps (.of_dexTransfers (dexTransfers_of_eraseExpiredAccepts hm))

structure Unissued (block : Int) (p : PropertyId) (s : NodeState) : Prop where
  isManaged : s.IsManaged p
  nonneg : s.ledger.Nonneg
  supply : ∀ t, t ≠ .pending → s.ledger.supply p t = 0
  cached : s.feeCache.getCachedAmount p = 0
  upTo : s.feeCache.UpTo block

theorem Unissued.capped (h : Unissued block p s) : Capped block p s where
  isManaged := h.isManaged
  nonneg := h.nonneg
  outside t _ ht := h.supply t ht
  cache :=
    { nonneg := h.cached.ge
      upTo := h.upTo
      capped := by
        have hcirculation : s.ledger.circulation p = 0 := by
          simp only [Ledger.circulation, circulatingTallies, List.map_cons, List.map_nil,
            h.supply _ (by decide : TallyType.balance ≠ .pending),
            h.supply _ (by decide : TallyType.sellOfferReserve ≠ .pending),
            h.supply _ (by decide : TallyType.acceptReserve ≠ .pending),
            h.supply _ (by decide : TallyType.metadexReserve ≠ .pending)]
          rfl
        rw [circulation, hcirculation, h.cached]
        decide }

/-- The states at a block that follow the creation of a managed property by steps that move
tokens and meet a condition. -/
inductive Issued (env : Environment) (others : OtherTypes) (p : PropertyId)
    (P : NodeState → TokenStep → Prop) : Int → NodeState → Prop
  | start {block : Int} {s : NodeState} (h : Unissued block p s) : Issued env others p P block s
  | step {block rc : Int} {s s' : NodeState} {step : TokenStep}
      (hs : Issued env others p P block s) (hblock : block ≤ step.block) (hlisted : step.Listed)
      (hstep : P s step) (h : step.run env others s = .ok (rc, s')) :
      Issued env others p P step.block s'

theorem Issued.capped
    (h : Issued env others p (fun s step => step.SparesMargin env p s) block s) :
    Capped block p s := by
  induction h with
  | start h => exact h.capped
  | step _ hblock hlisted hstep h ih => exact (ih.later hblock).step hlisted hstep h

/-- As long as no order for contracts is about a managed property, the sum of its tokens fits a
signed variable and the credit of a grant that passes its checks is accepted. -/
theorem supply_capped (h : Issued env others p (fun s step => step.SparesMargin env p s) block s) :
    s.ledger.outstanding p ≤ int64Max ∧
      ∀ allowed tx sp blockHash, tx.property = p → s.PassesGrant env allowed tx sp blockHash →
        ∀ m, s.updateSP tx.property (recordAmounts sp tx blockHash (asInt64 tx.nValue) 0) = .ok m →
          ∃ m', m.assertTally tx.receiver tx.property (asInt64 tx.nValue) .balance = .ok m' := by
  refine ⟨h.capped.outstanding_le, ?_⟩
  rintro allowed tx sp blockHash rfl hpass m hm
  obtain ⟨-, rfl⟩ := updateSP_eq_ok.mp hm
  exact h.capped.exists_credit hpass rfl

def sampleCollateral : NodeState :=
  { sampleRegistered with
    spInfo := { sampleRegistered.spInfo with
      entries := sampleRegistered.spInfo.entries.set 4 { SPEntry.zero with
        propType := allPropertyTypeContract, name := ['C'], blocksUntilExpiration := 1000,
        notionalSize := coin, collateralCurrency := 3, marginRequirement := 1 }
      nextSpid := 5 } }

theorem unissued_sampleCollateral : Unissued 0 3 sampleCollateral where
  isManaged := ⟨_, rfl, rfl, rfl⟩
  nonneg a p t _ := (money_initial .regtest .zero a p t).ge
  supply _ _ := rfl
  cached := rfl
  upTo _ _ he := absurd he Keyed.not_mem_empty

def sampleIssue (block : Int) (receiver : Address) (nValue : UInt64) : CMPTransaction :=
  { CMPTransaction.setNull with
    type := 55, sender := ['i'], receiver, property := 3, nValue, txid := block.toNat, block,
    txIdx := 1 }

def sampleMargin : CMPTransaction :=
  { CMPTransaction.setNull with
    type := 29, sender := ['a'], txid := 101, block := 101, txIdx := 1,
    amount := 0x4000000000000000,
    effectivePrice := 1, leverage := 1, tradingAction := actionBuy }

def afterMessage (s : NodeState) (tx : CMPTransaction) : NodeState :=
  s.after (s.logicMath sampleContracts .none tx)

theorem Issued.afterMessage
    (hs : Issued sampleContracts .none p P block s) (hblock : block ≤ tx.block)
    (hkind : TransactionType.ofCode tx.type = some kind) (hmoves : kind.MovesManaged = true)
    (hP : P s (.message tx)) (h : (s.logicMath sampleContracts .none tx).toBool = true) :
    Issued sampleContracts .none p P tx.block (s.afterMessage tx) := by
  obtain ⟨rc, hrc⟩ := eq_ok_after (s := s) h
  have hle : block ≤ (TokenStep.message tx).block := hblock
  have hlisted : (TokenStep.message tx).Listed := ⟨kind, hkind, hmoves⟩
  exact hs.step hle hlisted hP hrc

def sampleIssued : NodeState :=
  sampleCollateral.afterMessage (sampleIssue 100 ['a'] 0x7fffffffffffffff)

def sampleLocked : NodeState := sampleIssued.afterMessage sampleMargin

def sampleOvergranted : NodeState :=
  sampleLocked.afterMessage (sampleIssue 102 ['b'] 0x4000000000000000)

theorem issued_sampleIssued
    (h : P sampleCollateral (.message (sampleIssue 100 ['a'] 0x7fffffffffffffff))) :
    Issued sampleContracts .none 3 P 100 sampleIssued := by
  have hkind : TransactionType.ofCode (sampleIssue 100 ['a'] 0x7fffffffffffffff).type =
    some .grantPropertyTokens := by decide +kernel
  exact (Issued.start unissued_sampleCollateral).afterMessage (by decide) hkind rfl h
    (by decide +kernel)

theorem supply_capped_of_sampleIssued : sampleIssued.ledger.outstanding 3 ≤ int64Max :=
  (supply_capped (issued_sampleIssued (fun hk => absurd hk (by decide +kernel)))).1

/-- What is locked as margin is not counted, so that as much can be granted again. -/
theorem exceeds_of_sampleMargin :
    Issued sampleContracts .none 3 (fun _ _ => True) 102 sampleOvergranted ∧
      int64Max < sampleOvergranted.ledger.outstanding 3 := by
  have hgranted : Issued sampleContracts .none 3 (fun _ _ => True) 100 sampleIssued :=
    issued_sampleIssued trivial
  have hmargin : TransactionType.ofCode sampleMargin.type = some .contractdexTrade := by
    decide +kernel
  have hlocked : Issued sampleContracts .none 3 (fun _ _ => True) 101 sampleLocked :=
    hgranted.afterMessage (by decide) hmargin rfl trivial (by decide +kernel)
  have hkind : TransactionType.ofCode (sampleIssue 102 ['b'] 0x4000000000000000).type =
    some .grantPropertyTokens := by decide +kernel
  exact ⟨hlocked.afterMessage (by decide) hkind rfl trivial (by decide +kernel),
    by decide +kernel⟩

end NodeState

end TradeLayer
