import TradeLayer.FeatureReplay

namespace TradeLayer
open Library

theorem isTransactionTypeAllowed_activation {params : ConsensusParams} {b : Int} {p : PropertyId}
    {version : Nat} : isTransactionTypeAllowed params b p TransactionType.activation.code version =
      (decide (65535 = version) &&
        (isTestEcosystemProperty p || decide (params.mscAlertBlock ≤ b))) := by
  simp [isTransactionTypeAllowed, ConsensusParams.getRestrictions, TransactionRestriction.allows,
    TransactionType.code]

def RawTransaction.activationCall (raw : RawTransaction) (block : Int) : ActivationCall :=
  { txid := raw.txid, block, featureId := CMPTransaction.readNat raw.pkt 4 2
    activationBlock := asInt32 (CMPTransaction.readNat raw.pkt 6 4)
    minClientVersion := CMPTransaction.readNat raw.pkt 10 4 }

def TxRecord.activationCall (r : TxRecord) : ActivationCall := r.raw.activationCall r.block

namespace NodeState

variable {s s' : NodeState} {env : Environment} {others : OtherTypes} {raw : RawTransaction}
variable {block : Int} {idx : Nat} {rc : Int}

def withFeatures (s : NodeState) (features : FeatureState) : NodeState := { s with features }

/-- The checks that an activation message passes before the feature is looked at. -/
structure AdmitsActivation (s : NodeState) (env : Environment) (raw : RawTransaction)
    (block : Int) : Prop where
  length : ¬ raw.pkt.length < 14
  unfrozen : ¬ s.ledger.freeze.isAddressFrozen raw.sender 0 = true
  allowed : isTransactionTypeAllowed s.params block 0 TransactionType.activation.code
    (CMPTransaction.readNat raw.pkt 0 2) = true
  authorized : checkActivationAuthorization env raw.sender = true

theorem logicMathActivation_eq {allowed : PropertyId → Bool} {tx : CMPTransaction}
    {c : ActivationCall} (hc : c = ⟨tx.txid, tx.block, tx.featureId, asInt32 tx.activationBlock,
      tx.minClientVersion⟩) :
    s.logicMathActivation env allowed tx =
      if ¬ allowed tx.property then .ok (pktError - 22, s)
      else if ¬ checkActivationAuthorization env tx.sender then .ok (pktError - 51, s)
      else if s.features.Activates c then .ok (0, s.withFeatures (s.features.activate c))
      else .ok (pktError - 54, s) := by
  have hcall : s.features.activateFeature tx.featureId (asInt32 tx.activationBlock)
      tx.minClientVersion tx.block =
        (decide (s.features.Activates c), s.features.activate c) := by
    subst hc
    by_cases hact : s.features.Activates ⟨tx.txid, tx.block, tx.featureId,
        asInt32 tx.activationBlock, tx.minClientVersion⟩
    · simpa [hact, FeatureState.activate_of_activates] using
        FeatureState.activateFeature_eq s.features ⟨tx.txid, tx.block, tx.featureId,
          asInt32 tx.activationBlock, tx.minClientVersion⟩
    · simpa [hact, FeatureState.activate_of_not_activates] using
        FeatureState.activateFeature_eq s.features ⟨tx.txid, tx.block, tx.featureId,
          asInt32 tx.activationBlock, tx.minClientVersion⟩
  rw [logicMathActivation, hcall]
  by_cases hact : s.features.Activates c
  · simp only [hact, decide_true, if_true]
    rfl
  · simp only [hact, decide_false, if_false]

theorem interpretPacket_activation_eq (htype : raw.type = TransactionType.activation.code) :
    s.interpretPacket env others (raw.parse block idx).unlockLogic =
      if raw.pkt.length < 14 then .ok (pktError - 2, s)
      else if s.ledger.freeze.isAddressFrozen raw.sender 0 then .ok (pktError - 3, s)
      else if ¬ isTransactionTypeAllowed s.params block 0 TransactionType.activation.code
        (CMPTransaction.readNat raw.pkt 0 2) then .ok (pktError - 22, s)
      else if ¬ checkActivationAuthorization env raw.sender then .ok (pktError - 51, s)
      else if s.features.Activates (raw.activationCall block) then
        .ok (0, s.withFeatures (s.features.activate (raw.activationCall block)))
      else .ok (pktError - 54, s) := by
  let tx := (raw.parse block idx).unlockLogic
  have hkind : TransactionType.ofCode tx.withHeader.type = some .activation := by
    rw [← TransactionType.ofCode_code .activation, ← htype]
    rfl
  have hparse : tx.interpretTransaction env others =
      if raw.pkt.length < 14 then none
      else some { tx.withHeader with
        featureId := CMPTransaction.readNat raw.pkt 4 2
        activationBlock := CMPTransaction.readNat raw.pkt 6 4
        minClientVersion := CMPTransaction.readNat raw.pkt 10 4 } := by
    rw [CMPTransaction.interpretTransaction_eq, CMPTransaction.interpretPayload, hkind]
    have hpkt : tx.pkt = raw.pkt := rfl
    rw [hpkt]
    split_ifs with h₄ h₁₄ h₁₄
    · rfl
    · omega
    · exact if_pos h₁₄
    · exact if_neg h₁₄
  by_cases hlen : raw.pkt.length < 14
  · rw [if_pos hlen] at hparse ⊢
    rw [interpretPacket, show tx.rpcOnly = false from rfl, hparse]
    rfl
  · rw [if_neg hlen] at hparse ⊢
    rw [interpretPacket_of_interpret rfl hparse, logicMath, hkind]
    dsimp only
    rw [logicMathActivation_eq (c := raw.activationCall block) rfl]
    have htx : tx.withHeader.type = TransactionType.activation.code := htype
    simp only [typeAllowed, htx]
    rfl

theorem interpretPacket_activation_cases (htype : raw.type = TransactionType.activation.code)
    (h : s.interpretPacket env others (raw.parse block idx).unlockLogic = .ok (rc, s')) :
    Rejected rc s s' ∨ rc = 0 ∧ s.AdmitsActivation env raw block ∧
      s' = s.withFeatures (s.features.activate (raw.activationCall block)) := by
  rw [interpretPacket_activation_eq htype] at h
  split_ifs at h with hlen hfrozen hallowed hauth hact
  · exact .inl (.of_ok (by decide) h)
  · exact .inl (.of_ok (by decide) h)
  · cases h
    exact .inr ⟨rfl, ⟨hlen, hfrozen, hallowed, hauth⟩, rfl⟩
  · exact .inl (.of_ok (by decide) h)
  · exact .inl (.of_ok (by decide) h)
  · exact .inl (.of_ok (by decide) h)

theorem interpretPacket_of_admitsActivation (htype : raw.type = TransactionType.activation.code)
    (h : s.AdmitsActivation env raw block) :
    ∃ rc, s.interpretPacket env others (raw.parse block idx).unlockLogic =
      .ok (rc, s.withFeatures (s.features.activate (raw.activationCall block))) := by
  rw [interpretPacket_activation_eq htype, if_neg h.length, if_neg h.unfrozen,
    if_neg (not_not.mpr h.allowed), if_neg (not_not.mpr h.authorized)]
  by_cases hact : s.features.Activates (raw.activationCall block)
  · exact ⟨0, if_pos hact⟩
  · rw [if_neg hact, FeatureState.activate_of_not_activates hact]
    exact ⟨_, rfl⟩

theorem AdmitsActivation.withFeatures {f : FeatureState} (h : s.AdmitsActivation env raw block)
    (hf : f.params.mscAlertBlock = s.params.mscAlertBlock) :
    (s.withFeatures f).AdmitsActivation env raw block := by
  refine ⟨h.length, h.unfrozen, ?_, h.authorized⟩
  have hallowed := h.allowed
  rw [isTransactionTypeAllowed_activation] at hallowed ⊢
  rwa [show (s.withFeatures f).params = f.params from rfl, hf]

theorem interpretPacket_deactivation_cases
    (htype : raw.type = TransactionType.deactivation.code)
    (h : s.interpretPacket env others (raw.parse block idx).unlockLogic = .ok (rc, s')) :
    Rejected rc s s' ∨ rc = 0 := by
  have hpkt : CMPTransaction.readNat (raw.parse block idx).unlockLogic.pkt 2 2 =
    TransactionType.deactivation.code := htype
  have hkind := (congrArg TransactionType.ofCode hpkt).trans (TransactionType.ofCode_code _)
  rcases interpretPacket_cases hkind rfl h with h | ⟨tx, -, -, hheader, -, h⟩
  · exact .inl h
  · have htx : tx.type = TransactionType.deactivation.code := hheader.type.trans htype
    rw [logicMath, htx, TransactionType.ofCode_code] at h
    dsimp only at h
    unfold logicMathDeactivation at h
    split_ifs at h with hallowed hauth
    · split at h
      · exact .inl (.of_ok (by decide) h)
      · rw [closeTrades] at h
        obtain ⟨m, -, h⟩ := bind_eq_ok.mp h
        obtain ⟨m', -, h⟩ := bind_eq_ok.mp h
        cases h
        exact .inr rfl
    · exact .inl (.of_ok (by decide) h)
    · exact .inl (.of_ok (by decide) h)

end NodeState

end TradeLayer
