import TradeLayer.Sends

namespace TradeLayer
open Library

theorem valueOutOfRange_eq_false {n : UInt64} :
    valueOutOfRange n = false ↔ n ≠ 0 ∧ n.toNat < 2 ^ 63 := by
  simp [valueOutOfRange]

theorem wireTransfer_eq {k k' : Account} {n : UInt64} (h : n.toNat < 2 ^ 63) :
    wireTransfer k k' n = Posting.transfer k k' n.toNat := by
  rw [wireTransfer, asInt64_neg_of_lt h, asInt64_of_lt h, Posting.transfer]

namespace NodeState

variable {s s' : NodeState} {env : Environment} {allowed : PropertyId → Bool}
variable {tx : CMPTransaction} {rc : Int} {receivers : OwnerAddrType}

theorem logicMathSimpleSend_cases (h : s.logicMathSimpleSend allowed tx = .ok (rc, s')) :
    Rejected rc s s' ∨ rc = 0 ∧ tx.nValue.toNat < 2 ^ 63 ∧
      s.Posted (wireTransfer ⟨tx.sender, tx.property, .balance⟩
        ⟨tx.receiver, tx.property, .balance⟩ tx.nValue) s' := by
  unfold logicMathSimpleSend at h
  split_ifs at h with hallowed hrange hvalid hbalance
  any_goals exact .inl (.of_ok (by decide) h)
  obtain ⟨m, hm, h⟩ := bind_eq_ok.mp h
  cases h
  have hlt := (valueOutOfRange_eq_false.mp (by simpa using hrange)).2
  exact .inr ⟨rfl, hlt, posted_of_assertTallies hm⟩

theorem logicMathSendVestingTokens_cases (h : s.logicMathSendVestingTokens tx = .ok (rc, s')) :
    rc = 0 ∧ s' = { s with ledger := s'.ledger, vestingAddresses := s'.vestingAddresses } ∧
      s.ledger.Posted (wireTransfer ⟨tx.sender, tx.property, .balance⟩
          ⟨tx.receiver, tx.property, .balance⟩ tx.nValue ++
        [⟨⟨tx.receiver, tlPropertyMsc, .unvested⟩, asInt64 tx.nValue⟩]) s'.ledger := by
  obtain ⟨m, hm, h⟩ := bind_eq_ok.mp h
  cases h
  have hp := posted_of_assertTallies hm
  refine ⟨rfl, ?_, hp.2⟩
  dsimp only
  rw [hp.1]

theorem logicMathSendPeggedCurrency_cases
    (h : s.logicMathSendPeggedCurrency allowed tx = .ok (rc, s')) :
    Rejected rc s s' ∨ rc = 0 ∧
      s' = { s with ledger := s'.ledger, peggedIssuers := s'.peggedIssuers } ∧
      s.ledger.Posted (wireTransfer ⟨tx.sender, tx.propertyId, .balance⟩
        ⟨tx.receiverOrSender.receiver, tx.propertyId, .balance⟩ tx.amount) s'.ledger := by
  have hkeeps : tx.receiverOrSender.sender = tx.sender ∧
      tx.receiverOrSender.propertyId = tx.propertyId ∧
      tx.receiverOrSender.amount = tx.amount := by
    unfold CMPTransaction.receiverOrSender
    split_ifs <;> exact ⟨rfl, rfl, rfl⟩
  unfold logicMathSendPeggedCurrency at h
  split_ifs at h with hallowed hvalid hbalance
  any_goals exact .inl (.of_ok (by decide) h)
  obtain ⟨m, hm, h⟩ := bind_eq_ok.mp h
  rw [hkeeps.1, hkeeps.2.1, hkeeps.2.2] at hm
  obtain ⟨hframe, hp⟩ := posted_of_assertTallies hm
  cases h
  refine .inr ⟨rfl, ?_, ?_⟩
  · split_ifs
    · rw [hframe]
    · dsimp only
      rw [hframe]
  · split_ifs <;> exact hp

theorem logicMathCommitChannel_cases (h : s.logicMathCommitChannel env allowed tx = .ok (rc, s')) :
    Rejected rc s s' ∨ rc = 0 ∧
      s.Posted (wireTransfer ⟨tx.sender, tx.propertyId, .balance⟩
        ⟨tx.receiver, tx.propertyId, .channelReserve⟩ tx.amountCommited) s' := by
  unfold logicMathCommitChannel at h
  split_ifs at h with hblock hallowed hchannel hvalid
  any_goals exact .inl (.of_ok (by decide) h)
  obtain ⟨m, hm, h⟩ := bind_eq_ok.mp h
  cases h
  exact .inr ⟨rfl, posted_of_assertTallies hm⟩

theorem logicMathTransfer_cases (h : s.logicMathTransfer env allowed tx = .ok (rc, s')) :
    Rejected rc s s' ∨ rc = 0 ∧
      s.Posted (wireTransfer ⟨tx.sender, tx.propertyId, .channelReserve⟩
        ⟨tx.receiver, tx.propertyId, .channelReserve⟩ tx.amount) s' := by
  unfold logicMathTransfer at h
  split_ifs at h with hblock hallowed hvalid
  any_goals exact .inl (.of_ok (by decide) h)
  obtain ⟨m, hm, h⟩ := bind_eq_ok.mp h
  cases h
  exact .inr ⟨rfl, posted_of_assertTallies hm⟩

theorem sendAllLoop_cases {l : List PropertyId} {sent sent' : Nat}
    (h : sendAllLoop tx l sent s = .ok (sent', s')) :
    sent ≤ sent' ∧ (sent' = sent → s' = s) ∧ ∃ ps, s.Posted ps s' ∧ Moves ps := by
  induction l generalizing sent s with
  | nil =>
    cases h
    exact ⟨le_rfl, fun _ => rfl, [], .nil _, .nil⟩
  | cons p l ih =>
    unfold sendAllLoop at h
    dsimp only at h
    split_ifs at h
    · cases h
      exact ⟨le_rfl, fun _ => rfl, [], .nil _, .nil⟩
    · exact ih h
    · obtain ⟨m, hm, h⟩ := bind_eq_ok.mp h
      obtain ⟨hle, -, ps, hps, hmoves⟩ := ih h
      exact ⟨by omega, fun he => by omega, _, (posted_of_assertTallies hm).trans hps,
        (Moves.transfer (by decide) (by decide)).append hmoves⟩
    · exact ih h

theorem logicMathSendAll_cases (h : s.logicMathSendAll allowed tx = .ok (rc, s')) :
    Rejected rc s s' ∨ rc = 0 ∧ ∃ ps, s.Posted ps s' ∧ Moves ps := by
  unfold logicMathSendAll at h
  split_ifs at h with hallowed
  · split at h
    · exact .inl (.of_ok (by decide) h)
    · obtain ⟨⟨sent, m⟩, hm, h⟩ := bind_eq_ok.mp h
      obtain ⟨-, hsame, hposted⟩ := sendAllLoop_cases hm
      dsimp only at h
      split_ifs at h with hsent
      · cases h
        exact .inl ⟨by decide, hsame hsent⟩
      · cases h
        exact .inr ⟨rfl, hposted⟩
  · exact .inl (.of_ok (by decide) h)

structure StoStages (s : NodeState) (env : Environment) (tx : CMPTransaction)
    (receivers : OwnerAddrType) (charged cached paid s' : NodeState) : Prop where
  charge : s.Posted [⟨⟨tx.sender, stoFeeProperty tx, .balance⟩, -stoTransferFee tx receivers⟩]
    charged
  credit : charged.stoCreditFee env tx (stoTransferFee tx receivers) = .ok cached
  pay : cached.Posted (stoPostings tx receivers) paid
  notify : paid.stoNotify env tx = .ok s'

theorem stoExecute_cases (h : s.stoExecute env tx receivers = .ok (rc, s')) :
    rc = 0 ∧ ∃ m₁ m₂ m₃, StoStages s env tx receivers m₁ m₂ m₃ s' := by
  obtain ⟨m₁, h₁, h⟩ := bind_eq_ok.mp h
  obtain ⟨m₂, h₂, h⟩ := bind_eq_ok.mp h
  obtain ⟨m₃, h₃, h⟩ := bind_eq_ok.mp h
  split_ifs at h with htotal
  obtain ⟨m₄, h₄, h⟩ := bind_eq_ok.mp h
  cases h
  exact ⟨rfl, m₁, m₂, m₃, posted_of_assertTally h₁, h₂, posted_of_assertTallies h₃, h₄⟩

theorem logicMathSendToOwners_cases (h : s.logicMathSendToOwners env allowed tx = .ok (rc, s')) :
    Rejected rc s s' ∨ rc = 0 ∧ ∃ receivers : OwnerAddrType,
      stoGetReceivers s.ledger tx.sender (stoDistributeTo tx) (asInt64 tx.nValue) = .ok receivers ∧
      receivers.toList.length ≠ 0 ∧ ∃ m₁ m₂ m₃, StoStages s env tx receivers m₁ m₂ m₃ s' := by
  unfold logicMathSendToOwners at h
  split_ifs at h with hallowed hrange hvalid hdistribution hbalance
  any_goals exact .inl (.of_ok (by decide) h)
  obtain ⟨receivers, hr, h⟩ := bind_eq_ok.mp h
  unfold stoPayFee at h
  dsimp only at h
  split_ifs at h with hnone hfee hfunds
  any_goals exact .inl (.of_ok (by decide) h)
  · obtain ⟨hrc, hstages⟩ := stoExecute_cases h
    exact .inr ⟨hrc, receivers, hr, hnone, hstages⟩
  · obtain ⟨needed, -, h⟩ := bind_eq_ok.mp h
    split_ifs at h with hfunds
    · exact .inl (.of_ok (by decide) h)
    · obtain ⟨hrc, hstages⟩ := stoExecute_cases h
      exact .inr ⟨hrc, receivers, hr, hnone, hstages⟩

end NodeState

end TradeLayer
