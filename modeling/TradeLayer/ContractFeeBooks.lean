import TradeLayer.ContractSettling

namespace TradeLayer
open Library

namespace NodeState

variable {s s' m : NodeState} {sp : SPEntry} {taker maker : Address}
variable {u n : Int} {c : PropertyId} {fees : ContractFees}

def feePostings (sp : SPEntry) (taker maker : Address) (fees : ContractFees) :
    List (Posting Account) :=
  (if sp.propType = allPropertyTypeOracleContract then
      [⟨⟨sp.issuer, sp.collateralCurrency, .balance⟩, fees.cacheFee⟩] else []) ++
    [⟨⟨taker, sp.collateralCurrency, .balance⟩, -fees.takerFee⟩,
      ⟨⟨maker, sp.collateralCurrency, .balance⟩, fees.makerFee⟩]

def cached (s : NodeState) (p : PropertyId) : Int := (s.cachefees.get? p).getD 0

/-- The fees of a match change the balance of each party by what is computed for it, and neither
make nor destroy any collateral. -/
structure FeesConserved (sp : SPEntry) (taker maker : Address) (u n : Int) (s s' : NodeState) :
    Prop where
  charged : ∃ fees, contractFees sp u n = .ok fees ∧ ∀ a,
    s'.ledger.money a sp.collateralCurrency .balance =
      s.ledger.money a sp.collateralCurrency .balance +
        Posting.net (· = ⟨a, sp.collateralCurrency, .balance⟩) (feePostings sp taker maker fees)
  conserved : s'.ledger.supply sp.collateralCurrency .balance + s'.cached sp.collateralCurrency =
    s.ledger.supply sp.collateralCurrency .balance + s.cached sp.collateralCurrency

/-- The fees of a match are charged without an abort; nothing changes where the contract does not
exist. -/
def FeesBalance (s : NodeState) (u : Int) (taker maker : Address) (n : Int) (c : PropertyId) :
    Prop :=
  ∃ s', s.contractDexFees u taker maker n c = .ok s' ∧
    (s.spInfo.getSP c = none → s' = s) ∧
    ∀ sp, s.spInfo.getSP c = some sp → FeesConserved sp taker maker u n s s'

def NoFees (sp : SPEntry) (u n : Int) : Prop :=
  0 ≤ n ∧ if sp.propType = allPropertyTypeOracleContract then
      n.toNat * sp.marginRequirement * 25 < 1000 * coin
    else n.toNat * sp.marginRequirement < 100 * coin ∧ u = 0

section Fees

theorem feesOf_of_noFees (h : NoFees sp u n) : feesOf sp u n = ⟨0, 0, 0⟩ := by
  have hcoin : coin = 100000000 := rfl
  obtain ⟨-, hsmall⟩ := h
  rw [feesOf, hcoin]
  rw [hcoin] at hsmall
  generalize n.toNat * sp.marginRequirement = x at hsmall ⊢
  split_ifs at hsmall ⊢
  · rw [ContractFees.mk.injEq]
    omega
  · rw [ContractFees.mk.injEq]
    omega

theorem contractFees_of_noFees (h : NoFees sp u n) : contractFees sp u n = .ok ⟨0, 0, 0⟩ := by
  have hnone := feesOf_of_noFees h
  have hfits : (feesOf sp u n).takerFee ≤ int64Max := by
    rw [hnone]
    decide
  obtain ⟨fees, hfees⟩ := (follows_contractFees h.1).ok_iff.mpr
    (List.forall_mem_singleton.mpr hfits)
  rw [hfees, (eq_feesOf hfees).2, hnone]

theorem noFees_of_balanced (h : contractFees sp u n = .ok fees)
    (hbalanced : fees.takerFee = fees.makerFee + 3 * fees.cacheFee)
    (hpaid : (if sp.propType = allPropertyTypeOracleContract then fees.cacheFee else 0) +
      (-fees.takerFee + fees.makerFee) + cachedFee sp n = 0) : NoFees sp u n := by
  have hcoin : coin = 100000000 := rfl
  obtain ⟨hn, rfl⟩ := eq_feesOf h
  refine ⟨hn, ?_⟩
  rw [feesOf, cachedFee, hcoin] at hpaid
  rw [feesOf, hcoin] at hbalanced
  rw [hcoin]
  generalize n.toNat * sp.marginRequirement = x at hbalanced hpaid ⊢
  split_ifs at hbalanced hpaid ⊢
  all_goals
    dsimp only at hbalanced hpaid
    omega

end Fees

section Books

theorem tryTally_zero {who : Address} {p : PropertyId} {t : TallyType} :
    s.tryTally who p 0 t = .ok s := by
  rw [tryTally, Ledger.updateTallyMap, if_pos (.inl rfl)]
  rfl

theorem cached_of_contractDexFees (hsp : s.spInfo.getSP c = some sp)
    (h : s.contractDexFees u taker maker n c = .ok m) :
    m.cached sp.collateralCurrency = s.cached sp.collateralCurrency + cachedFee sp n := by
  rw [cached, cachefees_of_contractDexFees hsp h, cached]
  split_ifs with halls
  · rfl
  · rw [cachedFee, if_neg fun hc => halls hc.2]

theorem net_feePostings :
    Posting.net (fun k => k.property = sp.collateralCurrency ∧ k.ttype = .balance)
        (feePostings sp taker maker fees) =
      (if sp.propType = allPropertyTypeOracleContract then fees.cacheFee else 0) +
        (-fees.takerFee + fees.makerFee) := by
  rw [feePostings, Posting.net_append]
  split_ifs <;> simp

theorem feesConserved_of_noFees (hcached : InInt64 (s.cached tlPropertyAlls))
    (hsp : s.spInfo.getSP c = some sp) (h : NoFees sp u n) :
    ∃ s', s.contractDexFees u taker maker n c = .ok s' ∧
      FeesConserved sp taker maker u n s s' := by
  have hfees := contractFees_of_noFees h
  have hnone : ∀ k, Posting.net (· = k) (feePostings sp taker maker ⟨0, 0, 0⟩) = 0 := by
    intro k
    rw [feePostings, Posting.net_append]
    split_ifs <;> simp
  obtain ⟨m, hm⟩ : ∃ m, s.payOracle sp 0 = .ok m := by
    apply (follows_payOracle fun _ => le_rfl).ok_iff.mpr
    refine List.forall_mem_singleton.mpr fun _ => ?_
    rw [add_zero]
    exact hcached
  have hledger : m.ledger = s.ledger := by
    rcases payOracle_cases hm with ⟨-, rfl⟩ | ⟨-, m', hm', rfl⟩
    · rfl
    · rw [tryTally_zero] at hm'
      cases hm'
      rfl
  have hrun : s.contractDexFees u taker maker n c = .ok m := by
    rw [contractDexFees, hsp]
    dsimp only
    rw [hfees, ok_bind, hm, ok_bind, neg_zero, tryTally_zero, ok_bind, tryTally_zero, ok_bind]
    rfl
  refine ⟨m, hrun, ⟨⟨_, hfees, fun a => ?_⟩, ?_⟩⟩
  · rw [hledger, hnone, add_zero]
  · have hnofee : cachedFee sp n = 0 := by
      by_cases hc : sp.propType = allPropertyTypeOracleContract ∧
          sp.collateralCurrency = tlPropertyAlls
      · rw [← cacheFee_feesOf (u := u) hc.1 hc.2, feesOf_of_noFees h]
      · exact if_neg hc
    rw [hledger, cached_of_contractDexFees hsp hrun, hnofee, add_zero]

/-- The fees of a match balance if and only if all of them round down to nothing. -/
theorem feesBalance_iff (hcached : InInt64 (s.cached tlPropertyAlls)) :
    s.FeesBalance u taker maker n c ↔
      ∀ sp, s.spInfo.getSP c = some sp → NoFees sp u n := by
  constructor
  · rintro ⟨s', hrun, -, hsome⟩ sp hsp
    obtain ⟨⟨fees, hfees, hcharged⟩, hconserved⟩ := hsome sp hsp
    obtain ⟨qs, hposted, hqs⟩ := (Charged.of_contractDexFees hsp hrun).posted
    have hsame : Posting.net (fun k => k.property = sp.collateralCurrency ∧ k.ttype = .balance)
        qs = Posting.net (fun k => k.property = sp.collateralCurrency ∧ k.ttype = .balance)
          (feePostings sp taker maker fees) := by
      apply Posting.net_congr
      rintro ⟨a, p, t⟩ ⟨rfl, rfl⟩
      have hmoney := hposted.money_eq a sp.collateralCurrency .balance
      rw [hcharged a] at hmoney
      exact (add_left_cancel hmoney).symm
    have hbalanced : fees.takerFee = fees.makerFee + 3 * fees.cacheFee := by
      obtain ⟨fees', -, -, hfees', -, -, -, hbalanced⟩ := contractDexFees_cases hsp hrun
      rw [hfees] at hfees'
      cases hfees'
      exact hbalanced
    apply noFees_of_balanced hfees hbalanced
    rw [hposted.supply_eq, hsame, net_feePostings, cached_of_contractDexFees hsp hrun]
      at hconserved
    omega
  · intro hnone
    cases hsp : s.spInfo.getSP c with
    | none =>
      refine ⟨s, by rw [contractDexFees, hsp], fun _ => rfl, fun sp' hsp' => ?_⟩
      rw [hsp] at hsp'
      cases hsp'
    | some sp =>
      obtain ⟨s', hrun, hconserved⟩ := feesConserved_of_noFees hcached hsp (hnone sp hsp)
      refine ⟨s', hrun, fun hno => ?_, fun sp' hsp' => ?_⟩
      · rw [hsp] at hno
        cases hno
      · rw [hsp] at hsp'
        cases hsp'
        exact hconserved

end Books

section Samples

def sampleOracleTerms : SPEntry :=
  { SPEntry.zero with
    issuer := ['i']
    propType := allPropertyTypeOracleContract
    collateralCurrency := tlPropertyAlls
    marginRequirement := coin }

def sampleOracle : NodeState :=
  { initial .test .zero with
    ledger := .ofPostings [⟨⟨['b'], tlPropertyAlls, .balance⟩, 10⟩]
    spInfo := { SPInfo.oneManaged ['i'] with
      entries := OrderedMap.set (SPInfo.oneManaged ['i']).entries 5 sampleOracleTerms
      nextSpid := 6 } }

/-- Ten contracts have no fees. -/
theorem feesBalance_of_sampleOracle :
    sampleOracle.FeesBalance 0 ['b'] ['a'] 10 5 := by
  refine (feesBalance_iff (by decide +kernel)).mpr fun sp hsp => ?_
  have hterms : sampleOracle.spInfo.getSP 5 = some sampleOracleTerms := rfl
  rw [hterms] at hsp
  cases hsp
  exact ⟨by decide, by decide⟩

/-- For two hundred contracts the taker pays five, of which two go to the maker, one to the issuer
and one into the cache. -/
theorem not_feesBalance_of_sampleOracle :
    (∃ s', sampleOracle.contractDexFees 0 ['b'] ['a'] 200 5 = .ok s' ∧
      (s'.ledger.supply tlPropertyAlls .balance, s'.cached tlPropertyAlls) = (8, 1)) ∧
    (sampleOracle.ledger.supply tlPropertyAlls .balance, sampleOracle.cached tlPropertyAlls) =
      (10, 0) ∧
    ¬ sampleOracle.FeesBalance 0 ['b'] ['a'] 200 5 := by
  obtain ⟨m, hrun, htotals⟩ := exists_ok_of_map
    (g := fun s => (s.ledger.supply tlPropertyAlls .balance, s.cached tlPropertyAlls))
    (x := sampleOracle.contractDexFees 0 ['b'] ['a'] 200 5) (b := (8, 1))
    (by decide +kernel)
  refine ⟨⟨m, hrun, htotals⟩, by decide +kernel, ?_⟩
  rintro ⟨s', hrun', -, hsome⟩
  rw [hrun] at hrun'
  cases hrun'
  have hconserved := (hsome sampleOracleTerms rfl).conserved
  rw [Prod.mk.injEq] at htotals
  change m.ledger.supply tlPropertyAlls .balance + m.cached tlPropertyAlls = _ at hconserved
  rw [htotals.1, htotals.2] at hconserved
  exact absurd hconserved (by decide +kernel)

end Samples

end NodeState

end TradeLayer
