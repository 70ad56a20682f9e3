import TradeLayer.Managed

namespace TradeLayer
open Library

namespace NodeState

variable {s s' : NodeState} {env : Environment} {allowed : PropertyId → Bool}
variable {tx : CMPTransaction} {rc : Int} {logic : Except Abort (Int × NodeState)}
variable {sp : SPEntry}

theorem getSP_eq_ok {p : PropertyId} : s.getSP p = .ok sp ↔ s.spInfo.getSP p = some sp := by
  unfold getSP
  constructor
  · intro h
    split at h <;> cases h
    assumption
  · intro h
    rw [h]

theorem updateSP_eq_ok {p : PropertyId} :
    s.updateSP p sp = .ok s' ↔ (p ≠ tlPropertyMsc ∧ p ≠ tlPropertyTmsc) ∧
      s' = { s with spInfo := (s.spInfo.updateSP p sp).2 } := by
  unfold updateSP
  by_cases hp : p ≠ tlPropertyMsc ∧ p ≠ tlPropertyTmsc
  · obtain ⟨htrue, -, -⟩ := SPInfo.updateSP_eq s.spInfo sp hp
    generalize s.spInfo.updateSP p sp = r at htrue ⊢
    obtain ⟨b, db⟩ := r
    cases htrue
    exact ⟨fun h => ⟨hp, (Except.ok.inj h).symm⟩, fun h => congrArg Except.ok h.2.symm⟩
  · have hfalse := SPInfo.updateSP_base s.spInfo sp hp
    generalize s.spInfo.updateSP p sp = r at hfalse ⊢
    obtain ⟨b, db⟩ := r
    cases hfalse
    simp [hp]

def withIssuer (sp : SPEntry) (tx : CMPTransaction) (blockHash : Nat) : SPEntry :=
  { sp.updateIssuer tx.block tx.txIdx tx.receiver with
    issuer := tx.receiver, updateBlock := blockHash }

theorem logicMathChangeIssuer_cases (h : s.logicMathChangeIssuer env allowed tx = .ok (rc, s')) :
    Rejected rc s s' ∨ rc = 0 ∧ (tx.property ≠ tlPropertyMsc ∧ tx.property ≠ tlPropertyTmsc) ∧
      ∃ sp blockHash, s.spInfo.getSP tx.property = some sp ∧
        s' = { s with
          spInfo := (s.spInfo.updateSP tx.property (withIssuer sp tx blockHash)).2 } := by
  unfold logicMathChangeIssuer at h
  split at h
  · exact .inl (.of_ok (by decide) h)
  split_ifs at h with hallowed hvalid hreceiver
  any_goals exact .inl (.of_ok (by decide) h)
  all_goals
    obtain ⟨sp, hsp, h⟩ := bind_eq_ok.mp h
    split_ifs at h
    any_goals exact .inl (.of_ok (by decide) h)
  obtain ⟨m, hm, h⟩ := bind_eq_ok.mp h
  cases h
  obtain ⟨hp, hs'⟩ := updateSP_eq_ok.mp hm
  exact .inr ⟨rfl, hp, sp, _, getSP_eq_ok.mp hsp, hs'⟩

/-- What a grant does once it has been checked: the record is rewritten, the receiver is
credited and the fee cache may pay out. -/
theorem grantExecute_cases {blockHash : Nat}
    (h : s.grantExecute env tx sp blockHash = .ok (rc, s')) :
    rc = 0 ∧ ∃ db m, Posted { s with spInfo := db }
        [⟨⟨tx.receiver, tx.property, .balance⟩, asInt64 tx.nValue⟩] m ∧
      PaidOut tx.property m s' := by
  obtain ⟨m₁, h₁, h⟩ := bind_eq_ok.mp h
  obtain ⟨m₂, h₂, h⟩ := bind_eq_ok.mp h
  obtain ⟨m₃, h₃, h⟩ := bind_eq_ok.mp h
  cases h
  obtain ⟨-, rfl⟩ := updateSP_eq_ok.mp h₁
  exact ⟨rfl, _, m₂, posted_of_assertTally h₂, paidOut_of_notifyTotalTokensChanged h₃⟩

structure PassesGrant (s : NodeState) (env : Environment) (allowed : PropertyId → Bool)
    (tx : CMPTransaction) (sp : SPEntry) (blockHash : Nat) : Prop where
  block_active : env.chainActive tx.block = some blockHash
  allowed_property : allowed tx.property = true
  range : valueOutOfRange tx.nValue = false
  property_valid : s.spInfo.isPropertyIdValid tx.property = true
  record : s.spInfo.getSP tx.property = some sp
  manual : sp.manual = true
  issuer : tx.sender = sp.getIssuer tx.block
  room : ∃ total, s.getTotalTokens tx.property = .ok total ∧
    ¬ UInt64.ofInt (int64Max - total) < tx.nValue

theorem logicMathGrantTokens_passes (h : s.logicMathGrantTokens env allowed tx = .ok (rc, s')) :
    Rejected rc s s' ∨ ∃ sp blockHash, s.PassesGrant env allowed tx sp blockHash ∧
      s.grantExecute env tx sp blockHash = .ok (rc, s') := by
  unfold logicMathGrantTokens at h
  split at h
  · exact .inl (.of_ok (by decide) h)
  rename_i blockHash hblock
  split_ifs at h with hallowed hrange hvalid
  any_goals exact .inl (.of_ok (by decide) h)
  obtain ⟨sp, hsp, h⟩ := bind_eq_ok.mp h
  split_ifs at h with hmanual hissuer
  any_goals exact .inl (.of_ok (by decide) h)
  obtain ⟨total, htotal, h⟩ := bind_eq_ok.mp h
  split_ifs at h with hroom
  · exact .inl (.of_ok (by decide) h)
  · exact .inr ⟨sp, blockHash, ⟨hblock, hallowed, by simpa using hrange, hvalid,
      getSP_eq_ok.mp hsp, hmanual, not_not.mp hissuer, total, htotal, hroom⟩, h⟩

theorem revokeExecute_cases {blockHash : Nat}
    (h : s.revokeExecute env tx sp blockHash = .ok (rc, s')) :
    rc = 0 ∧ ∃ db m, s.Posted [⟨⟨tx.sender, tx.property, .balance⟩, asInt64 (-tx.nValue)⟩] m ∧
      PaidOut tx.property { m with spInfo := db } s' := by
  obtain ⟨m₁, h₁, h⟩ := bind_eq_ok.mp h
  obtain ⟨m₂, h₂, h⟩ := bind_eq_ok.mp h
  obtain ⟨m₃, h₃, h⟩ := bind_eq_ok.mp h
  cases h
  obtain ⟨-, rfl⟩ := updateSP_eq_ok.mp h₂
  exact ⟨rfl, _, m₁, posted_of_assertTally h₁, paidOut_of_notifyTotalTokensChanged h₃⟩

theorem logicMathRevokeTokens_passes (h : s.logicMathRevokeTokens env allowed tx = .ok (rc, s')) :
    Rejected rc s s' ∨ ∃ sp blockHash, valueOutOfRange tx.nValue = false ∧
      s.spInfo.getSP tx.property = some sp ∧
        s.revokeExecute env tx sp blockHash = .ok (rc, s') := by
  unfold logicMathRevokeTokens at h
  split at h
  · exact .inl (.of_ok (by decide) h)
  split_ifs at h with hallowed hrange
  any_goals exact .inl (.of_ok (by decide) h)
  all_goals
    obtain ⟨sp, hsp, h⟩ := bind_eq_ok.mp h
    split_ifs at h
    any_goals exact .inl (.of_ok (by decide) h)
  exact .inr ⟨sp, _, by simpa using hrange, getSP_eq_ok.mp hsp, h⟩

@[mk_iff]
structure IssuerManages (s : NodeState) (env : Environment) (allowed : PropertyId → Bool)
    (tx : CMPTransaction) : Prop where
  block_active : (env.chainActive tx.block).isSome = true
  allowed_property : allowed tx.property = true
  property_valid : s.spInfo.isPropertyIdValid tx.property = true
  record : ∃ sp, s.spInfo.getSP tx.property = some sp ∧ sp.manual = true ∧
    tx.sender = sp.getIssuer tx.block

instance : Decidable (s.IssuerManages env allowed tx) :=
  decidable_of_iff' _ (issuerManages_iff s env allowed tx)

theorem managedByIssuer_eq (h : s.IssuerManages env allowed tx) :
    s.managedByIssuer env allowed tx logic = logic := by
  obtain ⟨sp, hsp, hmanual, hissuer⟩ := h.record
  have hblock := Option.ne_none_iff_isSome.mpr h.block_active
  simp [managedByIssuer, getSP, hblock, h.allowed_property, h.property_valid, hsp, hmanual,
    ← hissuer]

theorem managedByIssuer_cases (h : s.managedByIssuer env allowed tx logic = .ok (rc, s')) :
    Rejected rc s s' ∨ s.IssuerManages env allowed tx ∧ logic = .ok (rc, s') := by
  unfold managedByIssuer at h
  split_ifs at h with hblock hallowed hvalid
  any_goals exact .inl (.of_ok (by decide) h)
  obtain ⟨sp, hsp, h⟩ := bind_eq_ok.mp h
  split_ifs at h with hmanual hissuer
  any_goals exact .inl (.of_ok (by decide) h)
  refine .inr ⟨⟨?_, hallowed, hvalid, sp, getSP_eq_ok.mp hsp, hmanual, not_not.mp hissuer⟩, h⟩
  simpa [Option.isSome_iff_ne_none] using hblock

theorem setFreeze_eq_ok {freeze : Except Abort FreezeState} :
    s.setFreeze freeze = .ok (rc, s') ↔ ∃ f, freeze = .ok f ∧ rc = 0 ∧ s' = s.withFreeze f := by
  rw [setFreeze, bind_eq_ok]
  constructor
  · rintro ⟨f, hf, h⟩
    cases h
    exact ⟨f, hf, rfl, rfl⟩
  · rintro ⟨f, hf, rfl, rfl⟩
    exact ⟨f, hf, rfl⟩

end NodeState

end TradeLayer
