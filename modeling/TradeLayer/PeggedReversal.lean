import TradeLayer.PeggedIssues

namespace TradeLayer
open Library

namespace NodeState

variable {s s' : NodeState} {env : Environment} {allowed : PropertyId → Bool} {txid : Nat}
variable {tx : PacketFields} {sp : SPEntry} {locked : Nat}

theorem net_freedPostings {k : Account} (ht : k.ttype ≠ .positiveBalance)
    {contractsNeeded posContracts negContracts : Int} :
    Posting.net (· = k) (freedPostings tx contractsNeeded posContracts negContracts) =
      if k = ⟨tx.sender, tx.contractId.toNat, .negativeBalance⟩ then
        if 0 < posContracts ∧ negContracts = 0 then max (contractsNeeded - posContracts) 0
        else if posContracts = 0 ∧ 0 ≤ negContracts then contractsNeeded else 0
      else 0 := by
  have hpos : ¬ (⟨tx.sender, tx.contractId.toNat, .positiveBalance⟩ : Account) = k := by
    rintro rfl
    exact ht rfl
  unfold freedPostings
  simp only [eq_comm (a := k)]
  split_ifs with h₁ h₂ h₃ h₄ h₅ <;>
    simp only [Posting.net_cons, Posting.net_nil, *, if_true, if_false] <;> omega

/-- A redemption of the whole of an issue, by its sender and on its contract. -/
structure RedeemsAll (s : NodeState) (tx redeem : PacketFields) (sp : SPEntry) : Prop where
  sender : redeem.sender = tx.sender
  contract : redeem.contractId = tx.contractId
  amount : redeem.amount = tx.amount
  property : redeem.propertyId.toNat = s.spInfo.peggedId tx.ecosystem.toNat sp.denomination

/-- The redemption returns zero and leaves the sender with what it had before the issue, without
pegged tokens. -/
def RestoresPeg (s s' : NodeState) (allowed : PropertyId → Bool) (tx redeem : PacketFields) :
    Prop :=
  ∃ s'', s'.logicMathRedemptionPegged allowed redeem = .ok (0, s'') ∧
    s''.ledger.money tx.sender tx.propertyId.toNat .balance =
      s.ledger.money tx.sender tx.propertyId.toNat .balance ∧
    s''.ledger.money tx.sender tx.contractId.toNat .negativeBalance =
      s.ledger.money tx.sender tx.contractId.toNat .negativeBalance ∧
    s''.ledger.money tx.sender tx.contractId.toNat .contractdexReserve =
      s.ledger.money tx.sender tx.contractId.toNat .contractdexReserve ∧
    s''.ledger.money tx.sender tx.propertyId.toNat .contractdexReserve =
      s.ledger.money tx.sender tx.propertyId.toNat .contractdexReserve ∧
    s''.ledger.money tx.sender redeem.propertyId.toNat .balance = 0

section Redemption

variable {redeem : PacketFields} (hissue : PeggedIssue s s' tx sp locked)
  (hredeem : RedeemsAll s tx redeem sp) (hallowed : allowed redeem.propertyId.toNat = true)
  (hs : 0 < sp.notionalSize)
  (hpegged : s.ledger.money tx.sender redeem.propertyId.toNat .balance = 0)

include hissue hredeem hpegged

omit hredeem in
theorem pegged_ne_collateral : redeem.propertyId.toNat ≠ tx.propertyId.toNat := by
  intro heq
  rw [heq] at hpegged
  exact hissue.funded hpegged

theorem money_pegged : s'.ledger.money tx.sender redeem.propertyId.toNat .balance =
    tx.amount.toNat := by
  have hne := pegged_ne_collateral hissue hpegged
  rw [hissue.posted.money_eq, hpegged, ← hredeem.property]
  simp [backingPostings, hne.symm]

theorem money_collateral : s'.ledger.money tx.sender tx.propertyId.toNat .balance =
    s.ledger.money tx.sender tx.propertyId.toNat .balance - tx.amount.toNat := by
  have hne := pegged_ne_collateral hissue hpegged
  rw [hissue.posted.money_eq, ← hredeem.property]
  simp [backingPostings, hne]
  omega

omit hredeem hpegged

theorem money_short : s'.ledger.money tx.sender tx.contractId.toNat .negativeBalance =
    s.ledger.money tx.sender tx.contractId.toNat .negativeBalance - (locked * factorE : Nat) := by
  rw [hissue.posted.money_eq]
  simp [backingPostings]
  omega

theorem money_long : s'.ledger.money tx.sender tx.contractId.toNat .positiveBalance =
    s.ledger.money tx.sender tx.contractId.toNat .positiveBalance := by
  rw [hissue.posted.money_eq]
  simp [backingPostings]

theorem money_contracts : s'.ledger.money tx.sender tx.contractId.toNat .contractdexReserve =
    s.ledger.money tx.sender tx.contractId.toNat .contractdexReserve + (locked * factorE : Nat) +
      if tx.propertyId.toNat = tx.contractId.toNat then (tx.amount.toNat : Int) else 0 := by
  rw [hissue.posted.money_eq]
  simp [backingPostings, add_assoc]

theorem money_reserved : s'.ledger.money tx.sender tx.propertyId.toNat .contractdexReserve =
    s.ledger.money tx.sender tx.propertyId.toNat .contractdexReserve +
      (if tx.contractId.toNat = tx.propertyId.toNat then ((locked * factorE : Nat) : Int) else 0) +
      tx.amount.toNat := by
  rw [hissue.posted.money_eq]
  simp [backingPostings, add_assoc]

include hredeem hpegged hallowed hs

theorem redemption_eq : s'.logicMathRedemptionPegged allowed redeem =
    if 0 < tx.amount.toNat / sp.notionalSize then do
      let s'' ← s'.assertTallies (redemptionPostings redeem tx.propertyId.toNat
        (tx.amount.toNat / sp.notionalSize : Nat)
        (s'.ledger.money tx.sender tx.contractId.toNat .positiveBalance)
        (s'.ledger.money tx.sender tx.contractId.toNat .negativeBalance))
      return (0, s'')
    else .ok (0, s') := by
  obtain ⟨sp', hsp', hnotional, hcollateral⟩ := hissue.terms
  have hvalid : s'.spInfo.isPropertyIdValid redeem.propertyId.toNat = true := by
    rw [hredeem.property]
    exact hissue.valid
  have hfunds : ¬ s'.ledger.getTokenBalance redeem.sender redeem.propertyId.toNat .balance <
      asInt64 redeem.amount := by
    have hmoney := money_pegged hissue hredeem hpegged
    rw [hredeem.sender, hredeem.amount, asInt64_of_lt hissue.amount_lt]
    change ¬ s'.ledger.money _ _ _ < _
    omega
  have hquotient : ((tx.amount.toNat / sp.notionalSize : Nat) : Int) ≤ int64Max := by
    have hle := Nat.div_le_self tx.amount.toNat sp.notionalSize
    have hlt := hissue.amount_lt
    rw [int64Max]
    omega
  unfold logicMathRedemptionPegged
  rw [if_neg (by simp [hallowed]), if_neg (by simp [hvalid]), if_neg hfunds, hredeem.contract, hsp']
  simp only [hnotional, hcollateral, hissue.collateral, hredeem.amount, hredeem.sender,
    divide256, if_neg hs.ne', ok_bind, convertTo64_of_le hquotient]
  by_cases hpos : 0 < tx.amount.toNat / sp.notionalSize
  · have hamount : 0 < tx.amount := by
      have hle := Nat.div_le_self tx.amount.toNat sp.notionalSize
      rw [UInt64.lt_iff_toNat_lt]
      exact hpos.trans_le hle
    rw [if_pos hpos, if_pos ⟨Int.natCast_pos.mpr hpos, hamount⟩]
    rfl
  · rw [if_neg hpos, if_neg (fun h => hpos (Int.natCast_pos.mp h.1))]
    rfl

variable (ha : 0 < tx.amount.toNat)
  (hreserve : s.ledger.money tx.sender tx.contractId.toNat .contractdexReserve = 0)

include ha hreserve

theorem freed_of_restoresPeg (h : RestoresPeg s s' allowed tx redeem) :
    tx.amount.toNat / sp.notionalSize = locked * factorE ∧
      s.ledger.money tx.sender tx.contractId.toNat .positiveBalance = 0 ∧
      s.ledger.freeze.isAddressFrozen tx.sender redeem.propertyId.toNat = false := by
  have hpegged' := money_pegged hissue hredeem hpegged
  have hne := pegged_ne_collateral hissue hpegged
  obtain ⟨s'', hrun, hbalance, hnegative, hcontracts, hcollateral, hgone⟩ := h
  rw [redemption_eq hissue hredeem hallowed hs hpegged] at hrun
  split_ifs at hrun with hpos
  · simp only [bind_eq_ok, pure_eq_ok, Except.ok.injEq, Prod.mk.injEq, true_and] at hrun
    obtain ⟨t, ht, rfl⟩ := hrun
    generalize tx.amount.toNat / sp.notionalSize = freed at hpos ht ⊢
    have hposted := (posted_of_assertTallies ht).2
    have hfreed : freed = locked * factorE := by
      rw [hposted.money_eq, hissue.posted.money_eq, hreserve] at hcontracts
      simp only [redemptionPostings, backingPostings, Posting.net_cons, Posting.net_append,
        Posting.net_nil, hredeem.sender, hredeem.contract, hredeem.amount,
        asInt64_neg_of_lt hissue.amount_lt] at hcontracts
      rw [net_freedPostings (by simp)] at hcontracts
      simp only [Account.mk.injEq, true_and, and_true, and_false, reduceCtorEq, if_true, if_false,
        zero_add, add_zero] at hcontracts
      split_ifs at hcontracts <;> omega
    have hlong := money_long hissue
    refine ⟨hfreed, ?_, ?_⟩
    · rw [hposted.money_eq, hissue.posted.money_eq] at hnegative
      simp only [redemptionPostings, backingPostings, Posting.net_cons, Posting.net_append,
        Posting.net_nil, hredeem.sender, hredeem.contract] at hnegative
      rw [net_freedPostings (by simp), hredeem.sender, hredeem.contract, hlong] at hnegative
      simp only [Account.mk.injEq, and_false, reduceCtorEq, if_true, if_false, zero_add,
        add_zero] at hnegative
      split_ifs at hnegative <;> omega
    · have hfree := hposted.unfrozen _ List.mem_cons_self
      rw [Ledger.DebitsFrozen, hissue.posted.freeze_eq] at hfree
      simp only [hredeem.sender, hredeem.amount, asInt64_neg_of_lt hissue.amount_lt, true_and,
        not_and, Bool.not_eq_true] at hfree
      exact hfree (by omega)
  · cases hrun
    omega

omit hallowed hreserve hredeem hpegged in
theorem locked_pos : 0 < locked * factorE :=
  (Nat.mul_pos ha hs).trans_le (divideAndRoundUp_bounds hissue.rounded (Nat.mul_pos ha hs)).1

omit hallowed hreserve hs in
theorem covers_burn
    (hfree : s.ledger.freeze.isAddressFrozen tx.sender redeem.propertyId.toNat = false) :
    s'.ledger.Covers
      [⟨⟨tx.sender, redeem.propertyId.toNat, .balance⟩, -(tx.amount.toNat : Int)⟩] := by
  have hmoney := money_pegged hissue hredeem hpegged
  refine Ledger.covers_of_distinct (by simp) (List.forall_mem_singleton.mpr ⟨?_, ?_, ?_, ?_⟩)
  · simp only
    omega
  · rintro ⟨-, -, hfrozen⟩
    rw [hissue.posted.freeze_eq, hfree] at hfrozen
    cases hfrozen
  · simp only [Ledger.amountAt, Posting.net_nil, hmoney]
    omega
  · simp only [Ledger.amountAt, Posting.net_nil, hmoney, int64Max]
    omega

omit hallowed hreserve hredeem hpegged in
theorem covers_reserves (hl : s.ledger.InRange) : s'.ledger.Covers
    [⟨⟨tx.sender, tx.contractId.toNat, .contractdexReserve⟩, -((locked * factorE : Nat) : Int)⟩,
      ⟨⟨tx.sender, tx.propertyId.toNat, .contractdexReserve⟩, -(tx.amount.toNat : Int)⟩] := by
  have hlocked := locked_pos hissue hs ha
  have hcontracts := hl tx.sender tx.contractId.toNat .contractdexReserve (by decide)
  have hcollateral := hl tx.sender tx.propertyId.toNat .contractdexReserve (by decide)
  have hcontracts' := hissue.inRange tx.sender tx.contractId.toNat .contractdexReserve (by decide)
  have hcollateral' := hissue.inRange tx.sender tx.propertyId.toNat .contractdexReserve (by decide)
  have hmoney := money_contracts hissue
  have hmoney' := money_reserved hissue
  generalize locked * factorE = n at hlocked hmoney hmoney' ⊢
  apply Ledger.covers_pair
  · apply Ledger.fits_of_reserve
    · simp
    · simp only
      omega
    · simp only [Ledger.amountAt, hmoney]
      split_ifs <;> omega
    · simp only [Ledger.amountAt]
      omega
  · refine ⟨?_, fun hd => (by cases hd.1), ?_, ?_⟩
    · simp only
      omega
    · simp only [Ledger.amountAt, hmoney', Posting.net_cons, Posting.net_nil, Account.mk.injEq,
        true_and, and_true]
      split_ifs <;> omega
    · simp only [Ledger.amountAt, Posting.net_cons, Posting.net_nil]
      split_ifs <;> omega

omit hallowed hreserve in
theorem covers_balances (hl : s.ledger.InRange) : s'.ledger.Covers
    [⟨⟨tx.sender, tx.propertyId.toNat, .balance⟩, (tx.amount.toNat : Int)⟩,
      ⟨⟨tx.sender, tx.contractId.toNat, .negativeBalance⟩, ((locked * factorE : Nat) : Int)⟩] := by
  have hlocked := locked_pos hissue hs ha
  have hbalance := hl tx.sender tx.propertyId.toNat .balance (by decide)
  have hnegative := hl tx.sender tx.contractId.toNat .negativeBalance (by decide)
  have hbalance' := hissue.inRange tx.sender tx.propertyId.toNat .balance (by decide)
  have hnegative' := hissue.inRange tx.sender tx.contractId.toNat .negativeBalance (by decide)
  have hmoney := money_collateral hissue hredeem hpegged
  have hmoney' := money_short hissue
  generalize locked * factorE = n at hlocked hmoney' ⊢
  refine Ledger.covers_of_distinct (by simp) (List.forall_mem_cons.mpr
    ⟨⟨?_, ?_, ?_, ?_⟩, List.forall_mem_singleton.mpr (Ledger.fits_of_reserve ?_ ?_ ?_ ?_)⟩)
  · simp only
    omega
  · rintro ⟨-, hneg, -⟩
    simp only at hneg
    omega
  · simp only [Ledger.amountAt, Posting.net_nil]
    omega
  · simp only [Ledger.amountAt, Posting.net_nil]
    omega
  · simp
  · simp only
    omega
  · simp only [Ledger.amountAt]
    omega
  · simp only [Ledger.amountAt]
    omega

omit hreserve in
/-- A redemption that frees what was locked restores the balances of a sender who may part with
the tokens and has no long position. -/
theorem restoresPeg_of_freed (hl : s.ledger.InRange)
    (hfreed : tx.amount.toNat / sp.notionalSize = locked * factorE)
    (hlong : s.ledger.money tx.sender tx.contractId.toNat .positiveBalance = 0)
    (hfree : s.ledger.freeze.isAddressFrozen tx.sender redeem.propertyId.toNat = false) :
    RestoresPeg s s' allowed tx redeem := by
  have hne := pegged_ne_collateral hissue hpegged
  have hlocked := locked_pos hissue hs ha
  have hshort := hissue.inRange tx.sender tx.contractId.toNat .negativeBalance (by decide)
  rw [RestoresPeg, redemption_eq hissue hredeem hallowed hs hpegged, hfreed, if_pos hlocked,
    money_long hissue, hlong, redemptionPostings, freedPostings, if_neg (by simp),
    if_pos ⟨rfl, hshort.1⟩, hredeem.sender, hredeem.contract, hredeem.amount,
    asInt64_neg_of_lt hissue.amount_lt, asInt64_of_lt hissue.amount_lt]
  have hcovers := Ledger.covers_append (covers_burn hissue hredeem hpegged ha hfree)
    (Ledger.covers_append (covers_reserves hissue hs ha hl)
      (covers_balances hissue hredeem hs hpegged ha hl) (by simp)) (by simp [hne])
  obtain ⟨s'', hrun⟩ := exists_assertTallies hissue.inRange hcovers (by simp [Ledger.Plain])
  have hmoney := (posted_of_assertTallies hrun).2.money_eq
  refine ⟨s'', bind_eq_ok.mpr ⟨s'', hrun, rfl⟩, ?_, ?_, ?_, ?_, ?_⟩
  · rw [hmoney, money_collateral hissue hredeem hpegged]
    simp [hne]
  · rw [hmoney, money_short hissue]
    simp
  · rw [hmoney, money_contracts hissue]
    simp
    split_ifs <;> omega
  · rw [hmoney, money_reserved hissue]
    simp
    split_ifs <;> omega
  · rw [hmoney, money_pegged hissue hredeem hpegged]
    simp [hne.symm]

end Redemption

/-- An issue is undone by its redemption if and only if the contract has the least notional size,
the amount is a multiple of the unit, and the sender has no long position in the contract and is
not frozen for the pegged currency. -/
theorem restoresPeg_iff {allowed' : PropertyId → Bool} {redeem : PacketFields}
    (hl : s.ledger.InRange) (hdb : s.spInfo.Numbered)
    (hsp : s.spInfo.getSP tx.contractId.toNat = some sp) (hs : 1 ≤ sp.notionalSize)
    (ha : 1 ≤ tx.amount.toNat)
    (hcreate : s.logicMathCreatePeggedCurrency env allowed txid tx = .ok (0, s'))
    (hredeem : RedeemsAll s tx redeem sp) (hallowed : allowed' redeem.propertyId.toNat = true)
    (hpegged : s.ledger.money tx.sender redeem.propertyId.toNat .balance = 0)
    (hreserve : s.ledger.money tx.sender tx.contractId.toNat .contractdexReserve = 0) :
    RestoresPeg s s' allowed' tx redeem ↔
      sp.notionalSize = 1 ∧ factorE ∣ tx.amount.toNat ∧
        s.ledger.money tx.sender tx.contractId.toNat .positiveBalance = 0 ∧
        s.ledger.freeze.isAddressFrozen tx.sender redeem.propertyId.toNat = false := by
  obtain ⟨locked, hissue⟩ := peggedIssue_of_create hl hdb hsp hcreate
  have hfreed := locked_eq_freed_iff ha hs hissue.rounded
  constructor
  · intro h
    obtain ⟨heq, hlong, hfree⟩ :=
      freed_of_restoresPeg hissue hredeem hallowed hs hpegged ha hreserve h
    obtain ⟨hone, hdvd⟩ := hfreed.mp heq
    exact ⟨hone, hdvd, hlong, hfree⟩
  · rintro ⟨hone, hdvd, hlong, hfree⟩
    exact restoresPeg_of_freed hissue hredeem hallowed hs hpegged ha hl
      (hfreed.mpr ⟨hone, hdvd⟩) hlong hfree

def samplePegTerms : SPEntry :=
  { SPEntry.zero with
    propType := allPropertyTypeContract, notionalSize := 1, collateralCurrency := 3 }

def sampleShort : NodeState :=
  { initial .test .zero with
    ledger := .ofPostings [⟨⟨['a'], 3, .balance⟩, 2 * coin⟩,
      ⟨⟨['a'], 4, .negativeBalance⟩, 2 * coin⟩]
    spInfo := { SPInfo.init .zero with
      entries := OrderedMap.set (OrderedMap.set ∅ 3 SPEntry.zero) 4 samplePegTerms
      nextSpid := 5 } }

def samplePeg (propertyId : UInt32) (amount : UInt64) : PacketFields :=
  { (default : PacketFields) with
    sender := ['a'], ecosystem := 1, propType := 5, name := [0x50], contractId := 4, propertyId,
    amount }

theorem numbered_sampleShort : sampleShort.spInfo.Numbered where
  next_lt := by decide
  le_nextTest := by decide
  nextTest_lt := by decide
  valid p sp h := by
    simp only [sampleShort, OrderedMap.get?_set] at h
    split_ifs at h with h₁ h₂
    · subst h₁
      decide
    · subst h₂
      decide
    · cases h

theorem restoresPeg_of_sampleShort : ∃ s',
    sampleShort.logicMathCreatePeggedCurrency (.plain .test) (fun _ => true) 7
      (samplePeg 3 100000000) = .ok (0, s') ∧
    RestoresPeg sampleShort s' (fun _ => true) (samplePeg 3 100000000) (samplePeg 5 100000000) := by
  obtain ⟨⟨rc, s'⟩, h, rfl⟩ := exists_ok_of_map (g := Prod.fst) (b := (0 : Int))
    (x := sampleShort.logicMathCreatePeggedCurrency (.plain .test) (fun _ => true) 7
      (samplePeg 3 100000000)) (by decide +kernel)
  have hl : sampleShort.ledger.InRange := Ledger.inRange_ofPostings
  have hsp : sampleShort.spInfo.getSP (samplePeg 3 100000000).contractId.toNat =
      some samplePegTerms := rfl
  refine ⟨s', h, (restoresPeg_iff hl numbered_sampleShort hsp ?_ ?_ h ?_ rfl ?_ ?_).mpr ?_⟩
  · decide
  · decide
  · exact ⟨rfl, rfl, rfl, by decide +kernel⟩
  · decide +kernel
  · decide +kernel
  · decide +kernel

/-- One unit locks a whole contract and its redemption frees one unit of it. -/
theorem not_restoresPeg_of_sampleShort : ∃ s',
    sampleShort.logicMathCreatePeggedCurrency (.plain .test) (fun _ => true) 7 (samplePeg 3 1) =
      .ok (0, s') ∧
    ¬ RestoresPeg sampleShort s' (fun _ => true) (samplePeg 3 1) (samplePeg 5 1) := by
  have hrun : (do
      let issued ← sampleShort.logicMathCreatePeggedCurrency (.plain .test) (fun _ => true) 7
        (samplePeg 3 1)
      let redeemed ← issued.2.logicMathRedemptionPegged (fun _ => true) (samplePeg 5 1)
      return (issued.1, redeemed.2.ledger.money ['a'] 4 .contractdexReserve)) =
      Except.ok (0, 99999999) := by decide +kernel
  simp only [bind_eq_ok, pure_eq_ok, Except.ok.injEq, Prod.mk.injEq] at hrun
  obtain ⟨⟨rc, s'⟩, h, ⟨rc', t⟩, ht, rfl, hkept⟩ := hrun
  refine ⟨s', h, ?_⟩
  rintro ⟨s'', hs'', -, -, hreserve, -⟩
  rw [ht] at hs''
  cases hs''
  rw [show (samplePeg 3 1).sender = ['a'] from rfl] at hreserve
  have hzero : sampleShort.ledger.money ['a'] (samplePeg 3 1).contractId.toNat
      .contractdexReserve = 0 := by decide +kernel
  rw [hzero] at hreserve
  exact absurd (hkept.symm.trans hreserve) (by decide)

end NodeState

end TradeLayer
