import TradeLayer.FreezeSafety

namespace TradeLayer
open Library

namespace NodeState

variable {s m : NodeState} {env : Environment} {tx : CMPTransaction}
variable {p : PropertyId} {reserve : Int} {pnew pold : ContractDex} {price : Nat}
variable {used : Set (Int ×ₗ Nat)}

def TakerFree (s : NodeState) (o : ContractDex) : Prop :=
  ∀ sp, s.spInfo.getSP o.property = some sp →
    s.ledger.freeze.isAddressFrozen o.addr sp.collateralCurrency = false

theorem TakerFree.filled {x y : ContractDex × NodeState} (h : TakerFree x.2 x.1)
    (hf : Filled used x y) : TakerFree y.2 y.1 := by
  obtain ⟨n, ho⟩ := hf.order
  obtain ⟨ps, hp⟩ := hf.posted
  have hdb : y.2.spInfo = x.2.spInfo := by rw [hf.frame]
  intro sp hsp
  rw [ho, hdb] at hsp
  rw [ho, hp.freeze_eq]
  exact h sp hsp

section Numbers

variable {E : Abort → Prop}
variable {n : Int}

theorem avoids_tryTally {who : Address} {t : TallyType}
    (h : s.ledger.DebitsFrozen who p n t → ¬ E (.addressFrozen who p)) :
    Avoids E (s.tryTally who p n t) := by
  apply Avoids.bind
  · rcases s.ledger.updateTallyMap_cases who p n t with ⟨hd, he⟩ | ⟨-, l, ⟨-, he, -⟩ | ⟨-, he, -⟩⟩
    · rw [he]
      exact .error (h hd)
    · rw [he]
      exact .ok
    · rw [he]
      exact .ok
  · exact fun _ _ => .ok

theorem avoids_tradeVolume (hE : Abort.OfUpdates E) {notional : Nat} :
    Avoids E (tradeVolume notional n) :=
  (avoids_convertTo256 hE).bind fun _ _ => avoids_convertTo64 hE

theorem avoids_updateVwap (hE : Abort.OfUpdates E) {volume : Int} :
    Avoids E (s.updateVwap p price volume) := by
  have hsum : ∀ xs, Avoids E (sum64 xs) := fun xs => .foldlM fun _ _ _ => avoids_checked64 hE
  apply (avoids_convertTo256 hE).bind
  intro volume256 _
  apply (avoids_convertTo64 hE).bind
  intro numVwap _
  apply (hsum _).bind
  intro numerator _
  apply (hsum _).bind
  intro denominator _
  exact .ite (fun _ => .error hE.division) fun _ => .ok

theorem avoids_contractFees (hE : Abort.OfUpdates E) {sp : SPEntry} {u : Int} :
    Avoids E (contractFees sp u n) := by
  have hfee : ∀ {k : Nat}, Avoids E (convertTo64 k) := avoids_convertTo64 hE
  apply (avoids_convertTo256 hE).bind
  intro n256 _
  apply Avoids.ite
  · intro _
    exact hfee.bind fun _ _ => hfee.bind fun _ _ => hfee.bind fun _ _ => .ok
  · intro _
    exact hfee.bind fun _ _ => hfee.bind fun _ _ => .ok

theorem avoids_recordMatchedTrade (hE : Abort.OfUpdates E) {volume : Int} :
    Avoids E (s.recordMatchedTrade volume n) :=
  (avoids_checked64 hE).bind fun _ _ => (avoids_convertTo256 hE).bind fun _ _ =>
    (avoids_convertTo256 hE).bind fun _ _ => (avoids_convertTo64 hE).bind fun _ _ =>
      (avoids_checked64 hE).bind fun _ _ => .ok

end Numbers

section Fees

variable {sp : SPEntry} {u n : Int} {fees : ContractFees}

/-- The fees of a match of a number of contracts. -/
def feesOf (sp : SPEntry) (u n : Int) : ContractFees :=
  let x := n.toNat * sp.marginRequirement
  if sp.propType = allPropertyTypeOracleContract then
    ⟨(x * 25 / (1000 * coin) : Nat), (x / (100 * coin) : Nat), (x / (100 * coin) / 2 : Nat)⟩
  else ⟨(x / (100 * coin) : Nat), (x * 5 / (1000 * coin) : Nat), u⟩

theorem eq_feesOf (h : contractFees sp u n = .ok fees) : 0 ≤ n ∧ fees = feesOf sp u n := by
  obtain ⟨k, hk, hrest⟩ := bind_eq_ok.mp h
  obtain rfl := convertTo256_eq_ok.mp hk
  refine ⟨Int.natCast_nonneg k, ?_⟩
  rw [feesOf, Int.toNat_natCast]
  dsimp only at hrest
  split_ifs at hrest ⊢
  · obtain ⟨cacheFee, hcache, h⟩ := bind_eq_ok.mp hrest
    obtain ⟨takerFee, htaker, h⟩ := bind_eq_ok.mp h
    obtain ⟨makerFee, hmaker, h⟩ := bind_eq_ok.mp h
    cases h
    rw [(convertTo64_eq_ok.mp hcache).1, (convertTo64_eq_ok.mp htaker).1,
      (convertTo64_eq_ok.mp hmaker).1]
  · obtain ⟨takerFee, htaker, h⟩ := bind_eq_ok.mp hrest
    obtain ⟨makerFee, hmaker, h⟩ := bind_eq_ok.mp h
    cases h
    rw [(convertTo64_eq_ok.mp htaker).1, (convertTo64_eq_ok.mp hmaker).1]

theorem feesOf_nonneg (sp : SPEntry) (u n : Int) :
    0 ≤ (feesOf sp u n).takerFee ∧ 0 ≤ (feesOf sp u n).makerFee ∧
    (sp.propType = allPropertyTypeOracleContract → 0 ≤ (feesOf sp u n).cacheFee) := by
  rw [feesOf]
  split_ifs with horacle
  · exact ⟨Int.natCast_nonneg _, Int.natCast_nonneg _, fun _ => Int.natCast_nonneg _⟩
  · exact ⟨Int.natCast_nonneg _, Int.natCast_nonneg _, fun h => absurd h horacle⟩

end Fees

section Matches

variable {E : Abort → Prop}

theorem avoids_payOracle {sp : SPEntry} {fee : Int} (hE : ∀ x, Avoids E (checked64 x))
    (hfee : sp.propType = allPropertyTypeOracleContract → 0 ≤ fee) :
    Avoids E (s.payOracle sp fee) := by
  apply Avoids.ite
  · intro horacle
    apply Avoids.bind
    · exact avoids_tryTally fun hd => absurd hd.2.1 (not_lt.mpr (hfee horacle))
    · exact fun _ _ => .ite (fun _ => (hE _).bind fun _ _ => .ok) fun _ => .ok
  · exact fun _ => .ok

theorem avoids_contractDexFees (hE : Abort.OfUpdates E) {taker maker : Address} {u n : Int}
    (hfree : ∀ sp, s.spInfo.getSP p = some sp →
      s.ledger.freeze.isAddressFrozen taker sp.collateralCurrency = true →
        ¬ E (.addressFrozen taker sp.collateralCurrency)) :
    Avoids E (s.contractDexFees u taker maker n p) := by
  rw [contractDexFees]
  split
  case h_1 => exact .ok
  case h_2 sp hsp =>
    apply (avoids_contractFees hE).bind
    intro fees hfees
    obtain ⟨-, rfl⟩ := eq_feesOf hfees
    obtain ⟨-, hmaker, hcache⟩ := feesOf_nonneg sp u n
    apply (avoids_payOracle (fun _ => avoids_checked64 hE) hcache).bind
    intro m₁ h₁
    obtain ⟨ps, hp, -⟩ := (Charged.of_payOracle h₁).posted
    apply Avoids.bind
    · apply avoids_tryTally
      intro hd
      have hfrozen := hd.2.2
      rw [hp.freeze_eq] at hfrozen
      exact hfree sp hsp hfrozen
    intro m₂ _
    apply Avoids.bind
    · exact avoids_tryTally fun hd => absurd hd.2.1 (not_lt.mpr hmaker)
    · exact fun _ _ => .ite (fun _ => .ok) fun _ => .error hE.assertion

/-- A match is settled without an error of a class where its postings and its fees are booked
without one. -/
theorem avoids_settleContract (hE : Abort.OfUpdates E) {sp : SPEntry}
    (hpost : 0 ≤ pnew.nCouldBuy pold → ∀ m : NodeState, m.ledger = s.ledger →
      Avoids E (m.assertTallies (matchPostings m.ledger pnew pold)))
    (hfree : ∀ sp, s.spInfo.getSP pold.property = some sp →
      s.ledger.freeze.isAddressFrozen pnew.addr sp.collateralCurrency = true →
        ¬ E (.addressFrozen pnew.addr sp.collateralCurrency)) :
    Avoids E (s.settleContract env sp price pnew pold) := by
  apply (avoids_tradeVolume hE).bind
  intro volume hvolume
  obtain ⟨n, hn, -⟩ := bind_eq_ok.mp hvolume
  have hnonneg : 0 ≤ pnew.nCouldBuy pold := by
    rw [convertTo256_eq_ok.mp hn]
    exact Int.natCast_nonneg n
  apply (avoids_updateVwap hE).bind
  intro m₁ h₁
  obtain ⟨numVwap, hm₁⟩ := updateVwap_eq h₁
  apply (hpost hnonneg m₁ (by rw [hm₁])).bind
  intro m₂ h₂
  obtain ⟨hframe, hp⟩ := posted_of_assertTallies h₂
  apply Avoids.bind
  · apply avoids_contractDexFees hE
    rw [hframe, hp.freeze_eq, hm₁]
    exact hfree
  intro m₃ _
  apply (avoids_recordMatchedTrade hE).bind
  intro m₄ _
  exact .ite (fun _ => .ok) fun _ => .error hE.undefined

theorem avoids_matchContract (hE : Abort.OfUpdates E)
    (hsettle : pold.property = pnew.property → pnew.nCouldBuy pold ≠ 0 → ∀ sp,
      Avoids E (s.settleContract env sp price pnew pold)) :
    Avoids E (s.matchContract env price pnew pold) := by
  apply Avoids.ite
  · exact fun _ => .error hE.assertion
  intro _
  apply Avoids.ite
  · exact fun _ => .error hE.assertion
  intro hproperty
  apply Avoids.ite
  · exact fun _ => .ok
  intro hn
  split
  · exact .error hE.assertion
  · exact (hsettle (not_not.mp hproperty) hn _).bind fun _ _ => .ok

end Matches

theorem unfrozen_matchPostings {l l' : Ledger} : l'.Unfrozen (matchPostings l pnew pold) := by
  have hpositions : ∀ {who : Address} {p : PropertyId} {n : Int} {reduced opened : TallyType},
      reduced ≠ .balance → opened ≠ .balance →
      l'.Unfrozen (positionPostings l who p n reduced opened) := by
    intro who p n reduced opened hr ho
    rw [positionPostings]
    split_ifs
    · exact .cons (Ledger.Unfrozen.reserve hr) .nil
    · exact .cons (Ledger.Unfrozen.reserve hr) (.cons (Ledger.Unfrozen.reserve ho) .nil)
    · exact .cons (Ledger.Unfrozen.reserve ho) .nil
  rw [matchPostings]
  apply Ledger.Unfrozen.ite
  intro _
  apply Ledger.Unfrozen.append
  · exact hpositions nofun nofun
  · exact hpositions nofun nofun

theorem freezeSafe_matchContract (hfree : s.TakerFree pnew) :
    FreezeSafe (s.matchContract env price pnew pold) := by
  refine avoids_matchContract Abort.ofUpdates_isFrozen fun hproperty _ sp =>
    avoids_settleContract Abort.ofUpdates_isFrozen (fun _ _ _ =>
      freezeSafe_assertTallies unfrozen_matchPostings) fun sp hsp hfrozen => ?_
  rw [hfree sp (hproperty ▸ hsp)] at hfrozen
  cases hfrozen

theorem freezeSafe_meetAll {orders : List (Nat × ContractDex)}
    (hfree : orders ≠ [] → s.TakerFree pnew) : FreezeSafe (meetAll env orders pnew s) := by
  induction orders generalizing pnew s with
  | nil => exact .ok
  | cons e orders ih =>
    have htaker := hfree (List.cons_ne_nil _ _)
    apply (freezeSafe_matchContract htaker).bind
    intro r hr
    have hfilled : Filled Set.univ (pnew, s) r := .of_matchContract hr (Set.mem_univ _)
    exact ih fun _ => htaker.filled hfilled

def contractOrder (pfuture : FutureContractObject) (tx : CMPTransaction) : ContractDex where
  addr := tx.sender
  block := tx.block
  txid := tx.txid
  idx := tx.txIdx
  property := pfuture.fcoPropertyId
  amountForSale := asInt64 tx.amount
  effectivePrice := tx.effectivePrice.toNat
  tradingAction := tx.tradingAction

/-- The sender is frozen for the collateral that its margin is taken from, or for the one that
the fee of a match is taken from. -/
def ChargesFrozen (s : NodeState) (env : Environment) (tx : CMPTransaction) : Prop :=
  let pfuture := s.getFutureContractObject env tx
  ∃ reserve, s.LocksMargin env tx reserve ∧
    (0 < reserve ∧
        s.ledger.freeze.isAddressFrozen tx.sender pfuture.fcoCollateralCurrency = true ∨
      (∃ price o, o ∈ Book.level s.contractdex pfuture.fcoPropertyId price ∧
          skipsLevel (contractOrder pfuture tx) price = false) ∧
        ∃ sp, s.spInfo.getSP pfuture.fcoPropertyId = some sp ∧
          s.ledger.freeze.isAddressFrozen tx.sender sp.collateralCurrency = true)

theorem freezeSafe_xTradeContract
    (hfree : (∃ price o, o ∈ Book.level s.contractdex pnew.property price ∧
      skipsLevel pnew price = false) → s.TakerFree pnew) :
    FreezeSafe (s.xTradeContract env pnew) := by
  rw [xTradeContract_eq]
  apply freezeSafe_meetAll
  intro hne
  obtain ⟨e, he⟩ := List.exists_mem_of_ne_nil _ hne
  exact hfree ⟨e.1, e.2, mem_walk he⟩

theorem freezeSafe_contractDexAdd {pfuture : FutureContractObject}
    (hfree : (∃ price o, o ∈ Book.level s.contractdex pfuture.fcoPropertyId price ∧
      skipsLevel (contractOrder pfuture tx) price = false) →
        s.TakerFree (contractOrder pfuture tx)) :
    FreezeSafe (s.contractDexAdd env tx.sender pfuture.fcoPropertyId (asInt64 tx.amount) tx.block
      tx.txid tx.txIdx tx.effectivePrice.toNat tx.tradingAction) := by
  apply Avoids.ite
  · exact fun _ => .ok
  intro _
  apply (freezeSafe_xTradeContract hfree).bind
  intro r _
  apply Avoids.ite
  · intro _
    rw [contractDexInsert]
    split_ifs
    · exact .ok
    · exact .ok
  · exact fun _ => .ok

/-- Before its margin an order for contracts stops the node at most with a sum out of range. -/
theorem avoids_of_reaches {E : Abort → Prop} (hE : ¬ E .undefined)
    (h : s.ReachesMargin env tx → Avoids E (s.logicMathContractDexTrade env tx)) :
    Avoids E (s.logicMathContractDexTrade env tx) := by
  by_cases hreach : s.ReachesMargin env tx
  · exact h hreach
  apply Avoids.ite
  · exact fun _ => .ok
  intro hblock
  apply Avoids.ite
  · exact fun _ => .ok
  intro hregistered
  apply Avoids.bind (.ite (fun _ => .ok) fun _ => .error hE)
  intro expiry hexpiry
  apply Avoids.ite
  · exact fun _ => .ok
  intro hperiod
  refine absurd ⟨?_, not_not.mp hregistered, expiry, hexpiry, hperiod⟩ hreach
  simpa [Option.isSome_iff_ne_none] using hblock

theorem freezeSafe_logicMathContractDexTrade (hcharge : ¬ s.ChargesFrozen env tx) :
    FreezeSafe (s.logicMathContractDexTrade env tx) := by
  refine avoids_of_reaches not_false fun hreach => ?_
  rw [logicMathContractDexTrade_of_reaches hreach rfl]
  apply Avoids.bind
  · exact freezeSafe_divide256.bind fun _ _ => freezeSafe_convertTo64
  intro reserve hreserve
  apply Avoids.ite
  · exact fun _ => .ok
  intro hfunds
  have hlocks : s.LocksMargin env tx reserve := ⟨hreach, hreserve, hfunds⟩
  apply Avoids.bind
  · apply freezeSafe_assertTallies
    apply Ledger.Unfrozen.ite
    intro hpos
    apply Ledger.Unfrozen.transfer _ hpos.le
    right
    rw [← Bool.not_eq_true]
    intro hfrozen
    exact hcharge ⟨reserve, hlocks, .inl ⟨hpos, hfrozen⟩⟩
  intro m hm
  have hp := posted_of_assertTallies hm
  apply freezeSafe_contractDexAdd
  intro hmeets sp hsp
  rw [hp.1] at hmeets hsp
  rw [hp.2.freeze_eq, ← Bool.not_eq_true]
  intro hfrozen
  exact hcharge ⟨reserve, hlocks, .inr ⟨hmeets, sp, hsp, hfrozen⟩⟩

end NodeState

end TradeLayer
