import TradeLayer.FreezeContracts

namespace TradeLayer
open Library

def TransactionType.IsSpending : TransactionType → Bool
  | .simpleSend | .sendToOwners | .sendAll | .tradeOffer | .metadexTrade | .contractdexTrade
  | .grantPropertyTokens | .revokePropertyTokens => true
  | _ => false

theorem TransactionType.IsSpending.modelled {kind : TransactionType} (h : kind.IsSpending = true) :
    kind.Modelled = true ∧ kind.IsFreezing = false := by
  cases kind with
  | simpleSend | sendToOwners | sendAll | tradeOffer | metadexTrade | contractdexTrade
  | grantPropertyTokens | revokePropertyTokens => exact ⟨rfl, rfl⟩
  | _ => cases h

namespace NodeState

variable {s s' : NodeState} {env : Environment} {others : OtherTypes}
variable {place : Int ×ₗ Nat} {raw : RawTransaction} {kind : TransactionType}
variable {tx : CMPTransaction} {block : Int} {idx : Nat}

theorem freezeSafe_logicMath (hs : Sound place s)
    (hkind : TransactionType.ofCode tx.type = some kind) (hspending : kind.IsSpending = true)
    (hfree : s.SenderFree tx) (hcharge : kind = .contractdexTrade → ¬ s.ChargesFrozen env tx) :
    FreezeSafe (s.logicMath env others tx) := by
  rw [logicMath, hkind]
  cases kind with
  | simpleSend => exact freezeSafe_logicMathSimpleSend hfree
  | sendToOwners => exact freezeSafe_logicMathSendToOwners hfree hs.unmanaged
  | sendAll => exact freezeSafe_logicMathSendAll
  | tradeOffer => exact freezeSafe_logicMathTradeOffer hfree
  | metadexTrade => exact freezeSafe_logicMathMetaDExTrade hfree
  | contractdexTrade => exact freezeSafe_logicMathContractDexTrade (hcharge rfl)
  | grantPropertyTokens => exact freezeSafe_logicMathGrantTokens
  | revokePropertyTokens => exact freezeSafe_logicMathRevokeTokens hfree
  | _ => cases hspending

/-- In every state that is reached, a message that sends, trades or manages tokens does not run
into the assertion about frozen addresses, and lowers no frozen balance, unless an order for
contracts is charged in a collateral that its sender is frozen for. -/
theorem frozen_balances_spared (hs : Reached env others place s)
    (hplace : place < toLex (block, idx))
    (hkind : TransactionType.ofCode raw.type = some kind) (hspending : kind.IsSpending = true)
    (hcharge : kind = .contractdexTrade → ∀ tx,
      (raw.parse block idx).unlockLogic.interpretTransaction env others = some tx →
        ¬ s.ChargesFrozen env tx) :
    FreezeSafe (s.interpretPacket env others (raw.parse block idx).unlockLogic) ∧
      ∀ rc s', s.interpretPacket env others (raw.parse block idx).unlockLogic = .ok (rc, s') →
        ∀ a p, s.ledger.freeze.isAddressFrozen a p = true →
          s.ledger.money a p .balance ≤ s'.ledger.money a p .balance := by
  obtain ⟨hmodelled, hfreezing⟩ := TransactionType.IsSpending.modelled hspending
  cases hparse : (raw.parse block idx).unlockLogic.interpretTransaction env others with
  | none =>
    rw [interpretPacket_of_interpret_none rfl hparse]
    refine ⟨.ok, fun rc s' h a p _ => ?_⟩
    cases h
    exact le_refl _
  | some tx =>
    have hheader := RawTransaction.sameHeader_of_interpret hkind hmodelled hparse
    have htx : TransactionType.ofCode tx.type = some kind := (congrArg _ hheader.type).trans hkind
    have hplaceTx : place < toLex (tx.block, tx.txIdx) := by
      rw [hheader.block, hheader.txIdx]
      exact hplace
    rw [interpretPacket_of_interpret rfl hparse]
    split_ifs with hfrozen
    · refine ⟨.ok, fun rc s' h a p _ => ?_⟩
      cases h
      exact le_refl _
    · have hfree : s.SenderFree tx := by simpa using hfrozen
      refine ⟨freezeSafe_logicMath hs.sound htx hspending hfree
        (fun hc => hcharge hc tx hparse), ?_⟩
      intro rc s' h
      exact (hs.sound.keeps_of_logicMath hplaceTx htx hmodelled hfreezing h).spares.balance_le

def sampleContracts : Environment :=
  { Environment.plain .regtest with
    newFutureContractObject := fun _ _ => ⟨4, allPropertyTypeContract, 1000, 3, 1, 0⟩ }

def sampleHolder : Address := List.replicate 20 'a'

def sampleRegistered : NodeState :=
  { oneManaged .regtest ['i'] with kycRegister := fun _ _ => true }

def sampleHolderGrant : RawTransaction :=
  ⟨1, ['i'], sampleHolder, [0, 0, 0, 55, 0, 0, 0, 3, 0, 0, 0, 0, 0, 0, 0, 100], 0⟩

def sampleEnable : RawTransaction := ⟨2, ['i'], [], [0, 0, 0, 71, 0, 0, 0, 3], 0⟩

def sampleFreeze : RawTransaction :=
  ⟨3, ['i'], [], [0, 0, 0, 185, 0, 0, 0, 3, 0, 0, 0, 0, 0, 0, 0, 0, 0] ++ List.replicate 20 97, 0⟩

def sampleHolding : NodeState :=
  sampleRegistered.handle sampleContracts .none 100 1 sampleHolderGrant

def sampleFreezable : NodeState := sampleHolding.handle sampleContracts .none 101 1 sampleEnable

def sampleHolderFrozen : NodeState :=
  sampleFreezable.handle sampleContracts .none 102 1 sampleFreeze

theorem sampleHolderFrozen_reached :
    Reached sampleContracts .none (toLex (102, 1)) sampleHolderFrozen := by
  have hstart : Reached sampleContracts .none (toLex (0, 0)) (initial .regtest .zero) := .start
  have hregistered : Reached sampleContracts .none (toLex (0, 0)) sampleRegistered :=
    hstart.other (le_refl _) rfl (by simp [sampleRegistered, oneManaged, initial])
      (by simp [sampleRegistered, oneManaged, initial])
  have hkindGrant : TransactionType.ofCode sampleHolderGrant.type = some .grantPropertyTokens := by
    decide +kernel
  have hholding : Reached sampleContracts .none (toLex (100, 1)) sampleHolding :=
    hregistered.handle (by decide) hkindGrant rfl (by decide +kernel)
  have hkindEnable : TransactionType.ofCode sampleEnable.type = some .enableFreezing := by
    decide +kernel
  have hfreezable : Reached sampleContracts .none (toLex (101, 1)) sampleFreezable :=
    hholding.handle (by decide) hkindEnable rfl (by decide +kernel)
  have hkindFreeze : TransactionType.ofCode sampleFreeze.type = some .freezePropertyTokens := by
    decide +kernel
  exact hfreezable.handle (by decide) hkindFreeze rfl (by decide +kernel)

def sampleContractOrder : RawTransaction :=
  ⟨4, sampleHolder, [],
    [0, 0, 0, 29, 0, 0, 0, 0, 0, 0, 0, 1, 0, 0, 0, 0, 0, 0, 0, 1, 0, 0, 0, 0, 0, 0,
    0, 1, 1], 0⟩

/-- The margin of an order for contracts is taken from a frozen balance. -/
theorem frozen_margin_of_sampleContractOrder :
    Reached sampleContracts .none (toLex (102, 1)) sampleHolderFrozen ∧
      sampleHolderFrozen.ledger.freeze.isAddressFrozen sampleHolder 3 = true ∧
      sampleHolderFrozen.interpretPacket sampleContracts .none
        (sampleContractOrder.parse 103 1).unlockLogic = .error (.addressFrozen sampleHolder 3) := by
  refine ⟨sampleHolderFrozen_reached, by decide +kernel, ?_⟩
  apply eq_error_of_failure
  decide +kernel

def sampleFrozenSend : RawTransaction :=
  ⟨5, sampleHolder, ['b'], [0, 0, 0, 0, 0, 0, 0, 3, 0, 0, 0, 0, 0, 0, 0, 1], 0⟩

theorem frozen_balances_spared_of_sampleFrozenSend :
    sampleHolderFrozen.ledger.freeze.isAddressFrozen sampleHolder 3 = true ∧
      FreezeSafe (sampleHolderFrozen.interpretPacket sampleContracts .none
        (sampleFrozenSend.parse 103 1).unlockLogic) := by
  have hkind : TransactionType.ofCode sampleFrozenSend.type = some .simpleSend := by decide +kernel
  exact ⟨by decide +kernel, (frozen_balances_spared sampleHolderFrozen_reached (by decide) hkind rfl
    nofun).1⟩

end NodeState

end TradeLayer
