import TradeLayer.CrashMatching
import TradeLayer.Library.Checks

namespace TradeLayer
open Library

namespace NodeState

/-- What the matching of an order reads: the terms of its contract, the positions in it and the
totals that every match adds to. -/
@[ext] structure MatchState where
  terms : Option SPEntry
  frozen : PropertyId → Bool
  long : Address → Int
  short : Address → Int
  trades : List (Int × Int)
  cached : Int
  dusd : Int
  ltc : Int
  factor : Int

def matching (s : NodeState) (pnew : ContractDex) : MatchState where
  terms := s.spInfo.getSP pnew.property
  frozen := s.ledger.freeze.isAddressFrozen pnew.addr
  long a := s.ledger.money a pnew.property .positiveBalance
  short a := s.ledger.money a pnew.property .negativeBalance
  trades := (s.contractTrades.get? pnew.property).getD []
  cached := (s.cachefees.get? tlPropertyAlls).getD 0
  dusd := s.globalVolumeAllDusd
  ltc := s.globalVolumeAllLtc
  factor := s.factorAllToLtc

def volumeOf (sp : SPEntry) (n : Int) : Int := (sp.notionalSize * n.toNat / coin : Nat)

def valueAt (price : Nat) (volume : Int) : Int := (price * volume.toNat / coin : Nat)

def lastTrades (trades : List (Int × Int)) : List (Int × Int) :=
  trades.drop (trades.length - volumeToVwap)

/-- The fees of a match add up: the maker's fee of an oracle contract is even, with less than two
fifths of a unit rounded off, and outside of them the contents of the variable for the cached fee
make up for the half that the maker does not receive. -/
def FeesAddUp (sp : SPEntry) (u n : Int) : Prop :=
  let x := n.toNat * sp.marginRequirement
  if sp.propType = allPropertyTypeOracleContract then
    x / (100 * coin) % 2 = 0 ∧ x % (100 * coin) < 40 * coin
  else ((x / (100 * coin) + 1) / 2 : Nat) = 3 * u

def cachedFee (sp : SPEntry) (n : Int) : Int :=
  if sp.propType = allPropertyTypeOracleContract ∧ sp.collateralCurrency = tlPropertyAlls then
    (n.toNat * sp.marginRequirement / (100 * coin) / 2 : Nat)
  else 0

namespace MatchState

variable (t : MatchState) (sp : SPEntry) (pnew pold : ContractDex) (n : Int)

def seller : Address := if pold.tradingAction = actionSell then pold.addr else pnew.addr

def buyer : Address := if pold.tradingAction = actionSell then pnew.addr else pold.addr

/-- A match closes what its parties hold on the other side before it opens anything. -/
def fill : MatchState :=
  let volume := volumeOf sp n
  { t with
    long := fun a => t.long a + if pold.addr = pnew.addr then 0 else
      (if seller pnew pold = a then -min (t.long a) n else 0) +
        (if buyer pnew pold = a then n - min (t.short a) n else 0)
    short := fun a => t.short a + if pold.addr = pnew.addr then 0 else
      (if seller pnew pold = a then n - min (t.long a) n else 0) +
        (if buyer pnew pold = a then -min (t.short a) n else 0)
    trades := t.trades ++ [(valueAt pold.effectivePrice volume, volume)]
    cached := t.cached + cachedFee sp n
    dusd := t.dusd + n
    ltc := t.ltc + valueAt t.factor.toNat volume }

def PositionsFit : Prop :=
  pold.addr ≠ pnew.addr →
    t.short (seller pnew pold) + (n - min (t.long (seller pnew pold)) n) ≤ int64Max ∧
      t.long (buyer pnew pold) + (n - min (t.short (buyer pnew pold)) n) ≤ int64Max

/-- The checks of a match in the order in which the code makes them. The fatal ones are its
assertions and divisions; the others are where a signed number would overflow or an array is
left. -/
def fillChecks (u : Int) : List Check :=
  let volume := volumeOf sp n
  let last := lastTrades (t.fill sp pnew pold n).trades
  [.fatal (volume ≤ int64Max),
    .fatal (valueAt pold.effectivePrice volume ≤ int64Max),
    .other (Sums64 (last.map Prod.fst)),
    .other (Sums64 (last.map Prod.snd)),
    .fatal ((last.map Prod.snd).sum ≠ 0),
    .fatal (t.PositionsFit pnew pold n),
    .fatal ((feesOf sp u n).takerFee ≤ int64Max),
    .other (sp.propType = allPropertyTypeOracleContract ∧
      sp.collateralCurrency = tlPropertyAlls → InInt64 (t.cached + cachedFee sp n)),
    .fatal ((feesOf sp u n).takerFee = 0 ∨ t.frozen sp.collateralCurrency = false),
    .fatal (FeesAddUp sp u n),
    .other (InInt64 (t.dusd + n)),
    .fatal (0 ≤ t.factor),
    .fatal (valueAt t.factor.toNat volume ≤ int64Max),
    .other (InInt64 (t.ltc + valueAt t.factor.toNat volume)),
    .other (pold.property < npTypes)]

def meet : MatchState :=
  match t.terms with
  | none => t
  | some sp => if n = 0 then t else t.fill sp pnew pold n

def meetChecks (env : Environment) (price : Nat) : List Check :=
  .fatal (pold.effectivePrice = price) :: .fatal (pold.property = pnew.property) ::
    if n = 0 then []
    else match t.terms with
      | none => [.fatal False]
      | some sp => .fatal (0 < n) ::
          t.fillChecks sp pnew pold n (env.uninitializedCacheFee pnew.position pold.position)

variable {t pnew pold} in
theorem meet_zero : t.meet pnew pold 0 = t := by
  rw [meet]
  cases t.terms with
  | none => rfl
  | some sp => exact if_pos rfl

end MatchState

/-- The checks that are made while an order meets others after those it has met. It takes from each
of them what it can of what the orders before leave of its amount. -/
def matchChecks (env : Environment) (pnew : ContractDex) :
    MatchState → List ContractDex → List (Nat × ContractDex) → List Check
  | _, _, [] => []
  | t, met, (price, pold) :: rest =>
    let n := min (ContractDex.openAfter pnew.amountForSale met) pold.amountForSale
    t.meetChecks pnew pold n env price ++
      matchChecks env pnew (t.meet pnew pold n) (met ++ [pold]) rest

/-- The checks that are made for a new order. -/
def tradeChecks (s : NodeState) (env : Environment) (pnew : ContractDex) : List Check :=
  matchChecks env pnew (s.matching pnew) [] (s.walk pnew)

variable {s m : NodeState} {env : Environment} {pnew pold : ContractDex} {price : Nat}
variable {sp : SPEntry} {u n v : Int} {c : PropertyId}

section Prices

theorem follows_convertTo64 {k : Nat} :
    Follows Abort.IsCrash (· = (k : Int)) [.fatal ((k : Int) ≤ int64Max)] (convertTo64 k) :=
  .fatal (fun h => ⟨k, convertTo64_of_le h, rfl⟩) fun h => ⟨_, if_neg h, trivial⟩

theorem follows_checked64 {x : Int} :
    Follows Abort.IsCrash (· = x) [.other (InInt64 x)] (checked64 x) :=
  .other (fun h => ⟨x, if_pos h, rfl⟩) fun h => ⟨_, if_neg h, not_false⟩

theorem follows_sum64 {xs : List Int} :
    Follows Abort.IsCrash (· = xs.sum) [.other (Sums64 xs)] (sum64 xs) := by
  refine .other (fun h => ⟨_, sum64_eq_ok.mpr ⟨h, rfl⟩, rfl⟩) fun h => ?_
  cases hx : sum64 xs with
  | ok d => exact absurd (sum64_eq_ok.mp hx).1 h
  | error e => exact ⟨e, rfl, crashFree_sum64 e hx⟩

theorem follows_tradeVolume (hn : 0 ≤ n) :
    Follows Abort.IsCrash (· = volumeOf sp n) [.fatal (volumeOf sp n ≤ int64Max)]
      (tradeVolume sp.notionalSize n) := by
  rw [tradeVolume, convertTo256_of_nonneg hn, ok_bind]
  exact follows_convertTo64

theorem follows_updateVwap (hv : 0 ≤ v) {trades : List (Int × Int)}
    (htrades : trades = (s.contractTrades.get? c).getD [] ++ [(valueAt price v, v)]) :
    Follows Abort.IsCrash (· = { s with contractTrades := s.contractTrades.set c trades })
      [.fatal (valueAt price v ≤ int64Max), .other (Sums64 ((lastTrades trades).map Prod.fst)),
        .other (Sums64 ((lastTrades trades).map Prod.snd)),
        .fatal (((lastTrades trades).map Prod.snd).sum ≠ 0)] (s.updateVwap c price v) := by
  rw [updateVwap, convertTo256_of_nonneg hv, ok_bind]
  subst htrades
  refine follows_convertTo64.bind ?_
  rintro _ - rfl
  dsimp only
  refine follows_sum64.bind ?_
  rintro _ - rfl
  refine follows_sum64.bind ?_
  rintro _ - rfl
  exact .fatal (fun h => ⟨_, if_neg h, rfl⟩) fun h => ⟨_, if_pos (not_not.mp h), trivial⟩

theorem follows_recordMatchedTrade (hv : 0 ≤ v) :
    Follows Abort.IsCrash
      (· = { s with
        globalVolumeAllDusd := s.globalVolumeAllDusd + n
        globalVolumeAllLtc := s.globalVolumeAllLtc + valueAt s.factorAllToLtc.toNat v })
      [.other (InInt64 (s.globalVolumeAllDusd + n)),
        .fatal (0 ≤ s.factorAllToLtc), .fatal (valueAt s.factorAllToLtc.toNat v ≤ int64Max),
        .other (InInt64 (s.globalVolumeAllLtc + valueAt s.factorAllToLtc.toNat v))]
      (s.recordMatchedTrade v n) := by
  refine follows_checked64.bind ?_
  rintro _ - rfl
  refine .fatal (fun h => ?_) fun h => ⟨.rangeAssert, ?_, trivial⟩
  swap
  · rw [convertTo256, if_neg h, error_bind]
  rw [convertTo256_of_nonneg h, ok_bind, convertTo256_of_nonneg hv, ok_bind]
  refine follows_convertTo64.bind ?_
  rintro _ - rfl
  refine follows_checked64.bind ?_
  rintro _ - rfl
  exact ⟨_, rfl, rfl⟩

end Prices

section Positions

theorem seller_eq : MatchState.seller pnew pold = (pnew.seller pold).addr :=
  (apply_ite ContractDex.addr _ _ _).symm

theorem buyer_eq : MatchState.buyer pnew pold = (pnew.buyer pold).addr :=
  (apply_ite ContractDex.addr _ _ _).symm

@[simp] theorem long_matching {a : Address} :
    (s.matching pnew).long a = s.ledger.money a pnew.property .positiveBalance := rfl

@[simp] theorem short_matching {a : Address} :
    (s.matching pnew).short a = s.ledger.money a pnew.property .negativeBalance := rfl

theorem positionsFit_matching (hproperty : pold.property = pnew.property) :
    (s.matching pnew).PositionsFit pnew pold (pnew.nCouldBuy pold) ↔ (pold.addr ≠ pnew.addr →
      s.ledger.money (pnew.seller pold).addr pold.property .negativeBalance +
          (pnew.nCouldBuy pold - sellerNetted s.ledger pnew pold) ≤ int64Max ∧
        s.ledger.money (pnew.buyer pold).addr pold.property .positiveBalance +
          (pnew.nCouldBuy pold - buyerNetted s.ledger pnew pold) ≤ int64Max) := by
  rw [MatchState.PositionsFit, seller_eq, buyer_eq, sellerNetted, buyerNetted, netted,
    netted, hproperty]
  rfl

/-- The position updates of a match go through if and only if no position leaves the range. -/
theorem follows_matchPostings (hl : s.ledger.InRange) (hproperty : pold.property = pnew.property)
    (hn : 0 < pnew.nCouldBuy pold) :
    Follows Abort.IsCrash (s.Posted (matchPostings s.ledger pnew pold))
      [.fatal ((s.matching pnew).PositionsFit pnew pold (pnew.nCouldBuy pold))]
      (s.assertTallies (matchPostings s.ledger pnew pold)) := by
  rw [positionsFit_matching hproperty]
  refine .fatal (fun h => ?_) fun h => ?_
  all_goals cases hr : s.assertTallies (matchPostings s.ledger pnew pold) with
    | ok m => ?_
    | error e => ?_
  · exact ⟨m, rfl, posted_of_assertTallies hr⟩
  · have hcrash := crashFree_matchPostings hl hn (fun haddr => (h haddr).1) fun haddr => (h haddr).2
    exact absurd (isCrash_of_assertTallies hr) (hcrash e hr)
  · refine absurd (fun haddr => ?_) h
    have hne := ContractDex.seller_ne_buyer haddr
    have hin := inRange_of_assertTallies hl hr
    have hshort := (hin (pnew.seller pold).addr pold.property .negativeBalance
      (by decide)).2
    have hlong := (hin (pnew.buyer pold).addr pold.property .positiveBalance
      (by decide)).2
    rw [(posted_of_assertTallies hr).2.money_eq, net_matchPostings hl.nonneg hn.le haddr]
      at hshort hlong
    simp only [Account.mk.injEq, reduceCtorEq, and_false, and_self, and_true, if_false, if_true,
      hne, hne.symm] at hshort hlong
    exact ⟨by omega, by omega⟩
  · exact ⟨e, rfl, isCrash_of_assertTallies hr⟩

end Positions

section Fees

theorem follows_tryTally {who : Address} {t : TallyType} :
    Follows Abort.IsCrash (fun m => s.tryTally who c n t = .ok m)
      [.fatal (¬ s.ledger.DebitsFrozen who c n t)] (s.tryTally who c n t) := by
  rcases s.ledger.updateTallyMap_cases who c n t with ⟨hd, he⟩ | ⟨hd, l, ⟨-, he, -⟩ | ⟨-, he, -⟩⟩
  · refine .fatal (fun h => absurd hd h) fun _ => ⟨.addressFrozen who c, ?_, trivial⟩
    rw [tryTally, he, error_bind]
  all_goals
    refine .fatal (fun _ => ⟨{ s with ledger := l }, ?_, ?_⟩) fun h => absurd hd h
    all_goals rw [tryTally, he, ok_bind]; rfl

theorem exists_tryTally {who : Address} {t : TallyType} (hn : 0 ≤ n) :
    ∃ m, s.tryTally who c n t = .ok m :=
  follows_tryTally.ok_iff.mpr (List.forall_mem_singleton.mpr fun hd => absurd hd.2.1 hn.not_gt)

theorem follows_contractFees (hn : 0 ≤ n) :
    Follows Abort.IsCrash (· = feesOf sp u n) [.fatal ((feesOf sp u n).takerFee ≤ int64Max)]
      (contractFees sp u n) := by
  have hcoin : coin = 100000000 := rfl
  rw [contractFees, convertTo256_of_nonneg hn, ok_bind, feesOf, hcoin]
  dsimp only
  generalize n.toNat * sp.marginRequirement = x
  split_ifs
  · have hiff : (((x / (100 * 100000000) / 2 : Nat) : Int) ≤ int64Max ∧
        ((x * 25 / (1000 * 100000000) : Nat) : Int) ≤ int64Max) ∧
        ((x / (100 * 100000000) : Nat) : Int) ≤ int64Max ↔
          ((x * 25 / (1000 * 100000000) : Nat) : Int) ≤ int64Max := by
      omega
    rw [← hiff]
    apply Follows.fatal_and
    apply Follows.fatal_and
    refine follows_convertTo64.bind ?_
    rintro _ - rfl
    refine follows_convertTo64.bind ?_
    rintro _ - rfl
    refine follows_convertTo64.bind ?_
    rintro _ - rfl
    exact ⟨_, rfl, rfl⟩
  · have hiff : ((x / (100 * 100000000) : Nat) : Int) ≤ int64Max ∧
        ((x * 5 / (1000 * 100000000) : Nat) : Int) ≤ int64Max ↔
          ((x / (100 * 100000000) : Nat) : Int) ≤ int64Max := by
      omega
    rw [← hiff]
    apply Follows.fatal_and
    refine follows_convertTo64.bind ?_
    rintro _ - rfl
    refine follows_convertTo64.bind ?_
    rintro _ - rfl
    exact ⟨_, rfl, rfl⟩

theorem feesAddUp_iff : (feesOf sp u n).takerFee =
    (feesOf sp u n).makerFee + 3 * (feesOf sp u n).cacheFee ↔ FeesAddUp sp u n := by
  have hcoin : coin = 100000000 := rfl
  rw [feesOf, FeesAddUp, hcoin]
  generalize n.toNat * sp.marginRequirement = x
  split_ifs
  · dsimp only
    omega
  · dsimp only
    omega

theorem cacheFee_feesOf (horacle : sp.propType = allPropertyTypeOracleContract)
    (halls : sp.collateralCurrency = tlPropertyAlls) :
    (feesOf sp u n).cacheFee = cachedFee sp n := by
  rw [feesOf, if_pos horacle, cachedFee, if_pos ⟨horacle, halls⟩]

theorem cachefees_of_tryTally {who : Address} {t : TallyType}
    (h : s.tryTally who c n t = .ok m) : m.cachefees = s.cachefees := by
  obtain ⟨⟨ok, l⟩, -, h⟩ := bind_eq_ok.mp h
  cases h
  rfl

theorem follows_payOracle {fee : Int}
    (hfee : sp.propType = allPropertyTypeOracleContract → 0 ≤ fee) :
    Follows Abort.IsCrash (fun _ => True)
      [.other (sp.propType = allPropertyTypeOracleContract ∧
        sp.collateralCurrency = tlPropertyAlls →
          InInt64 ((s.cachefees.get? tlPropertyAlls).getD 0 + fee))] (s.payOracle sp fee) := by
  rw [payOracle]
  split_ifs with horacle halls
  · obtain ⟨m, hm⟩ : ∃ m, s.tryTally sp.issuer sp.collateralCurrency fee .balance = .ok m :=
      exists_tryTally (hfee horacle)
    rw [hm, ok_bind, ← cachefees_of_tryTally hm]
    simp only [horacle, halls, and_self, forall_const]
    refine follows_checked64.bind ?_
    rintro _ - rfl
    exact ⟨_, rfl, trivial⟩
  · obtain ⟨m, hm⟩ : ∃ m, s.tryTally sp.issuer sp.collateralCurrency fee .balance = .ok m :=
      exists_tryTally (hfee horacle)
    exact .other (fun _ => ⟨m, by rw [hm]; rfl, trivial⟩) fun h => absurd (absurd ·.2 halls) h
  · exact .other (fun _ => ⟨s, rfl, trivial⟩) fun h => absurd (absurd ·.1 horacle) h

/-- The fees of a match are booked if and only if they fit, the cache can take its part, they are
not taken from a frozen balance, and they add up. -/
theorem follows_contractDexFees (taker maker : Address) (hsp : s.spInfo.getSP c = some sp)
    (hn : 0 ≤ n) :
    Follows Abort.IsCrash (fun _ => True)
      [.fatal ((feesOf sp u n).takerFee ≤ int64Max),
        .other (sp.propType = allPropertyTypeOracleContract ∧
          sp.collateralCurrency = tlPropertyAlls →
            InInt64 ((s.cachefees.get? tlPropertyAlls).getD 0 + cachedFee sp n)),
        .fatal ((feesOf sp u n).takerFee = 0 ∨
          s.ledger.freeze.isAddressFrozen taker sp.collateralCurrency = false),
        .fatal (FeesAddUp sp u n)] (s.contractDexFees u taker maker n c) := by
  obtain ⟨htaker, hmaker, hcache⟩ := feesOf_nonneg sp u n
  rw [contractDexFees, hsp]
  refine (follows_contractFees hn).bind ?_
  rintro _ - rfl
  have hkept : (sp.propType = allPropertyTypeOracleContract ∧
      sp.collateralCurrency = tlPropertyAlls →
        InInt64 ((s.cachefees.get? tlPropertyAlls).getD 0 + cachedFee sp n)) ↔
      (sp.propType = allPropertyTypeOracleContract ∧ sp.collateralCurrency = tlPropertyAlls →
        InInt64 ((s.cachefees.get? tlPropertyAlls).getD 0 + (feesOf sp u n).cacheFee)) :=
    forall_congr' fun h => by rw [cacheFee_feesOf h.1 h.2]
  rw [hkept]
  refine (follows_payOracle hcache).bind ?_
  intro m₁ h₁ _
  obtain ⟨ps, hp, -⟩ := (Charged.of_payOracle h₁).posted
  have hfree : ((feesOf sp u n).takerFee = 0 ∨
      s.ledger.freeze.isAddressFrozen taker sp.collateralCurrency = false) ↔
      ¬ m₁.ledger.DebitsFrozen taker sp.collateralCurrency (-(feesOf sp u n).takerFee)
        .balance := by
    rw [Ledger.DebitsFrozen, hp.freeze_eq]
    simp only [true_and, not_and, Bool.not_eq_true]
    constructor
    · rintro (hzero | hfree) hneg
      · omega
      · exact hfree
    · intro h
      by_cases hzero : (feesOf sp u n).takerFee = 0
      · exact .inl hzero
      · exact .inr (h (by omega))
  rw [hfree]
  refine follows_tryTally.bind ?_
  intro m₂ _ _
  obtain ⟨m₃, h₃⟩ : ∃ m, m₂.tryTally maker sp.collateralCurrency (feesOf sp u n).makerFee
      .balance = .ok m := exists_tryTally hmaker
  rw [h₃, ok_bind, ← feesAddUp_iff]
  exact .fatal (fun h => ⟨m₃, if_pos h, trivial⟩) fun h => ⟨_, if_neg h, trivial⟩

theorem cachefees_of_contractDexFees {taker maker : Address} {p : PropertyId}
    (hsp : s.spInfo.getSP c = some sp) (h : s.contractDexFees u taker maker n c = .ok m) :
    (m.cachefees.get? p).getD 0 = (s.cachefees.get? p).getD 0 +
      if p = tlPropertyAlls then cachedFee sp n else 0 := by
  obtain ⟨fees, m₁, m₂, hfees, h₁, h₂, h₃, -⟩ := contractDexFees_cases hsp h
  rw [cachefees_of_tryTally h₃, cachefees_of_tryTally h₂]
  rcases payOracle_cases h₁ with ⟨horacle, rfl⟩ | ⟨horacle, m', hm', rfl⟩
  · have hnone : cachedFee sp n = 0 := if_neg fun hc => horacle hc.1
    rw [hnone, ite_self, add_zero]
  · dsimp only
    rw [cachefees_of_tryTally hm']
    split_ifs with halls hp hp
    · rw [(eq_feesOf hfees).2, cacheFee_feesOf horacle halls, OrderedMap.get?_set, if_pos hp, hp]
      rfl
    · rw [OrderedMap.get?_set, if_neg hp, add_zero]
    · rw [cachedFee, if_neg fun hc => halls hc.2, add_zero]
    · rw [add_zero]

end Fees

section Settlement

theorem volumeOf_nonneg (sp : SPEntry) (n : Int) : 0 ≤ volumeOf sp n := Int.natCast_nonneg _

theorem fill_positions (sp : SPEntry) {a : Address} (hl : s.ledger.Nonneg)
    (hproperty : pold.property = pnew.property) (hn : 0 ≤ pnew.nCouldBuy pold) :
    ((s.matching pnew).fill sp pnew pold (pnew.nCouldBuy pold)).long a =
        s.ledger.money a pnew.property .positiveBalance + Posting.net
          (· = ⟨a, pnew.property, .positiveBalance⟩) (matchPostings s.ledger pnew pold) ∧
      ((s.matching pnew).fill sp pnew pold (pnew.nCouldBuy pold)).short a =
        s.ledger.money a pnew.property .negativeBalance + Posting.net
          (· = ⟨a, pnew.property, .negativeBalance⟩) (matchPostings s.ledger pnew pold) := by
  simp only [MatchState.fill, seller_eq, buyer_eq, long_matching, short_matching]
  by_cases haddr : pold.addr = pnew.addr
  · rw [if_pos haddr, if_pos haddr, matchPostings, if_neg (not_not.mpr haddr)]
    exact ⟨rfl, rfl⟩
  · rw [if_neg haddr, if_neg haddr, net_matchPostings hl hn haddr, net_matchPostings hl hn haddr]
    simp only [Account.mk.injEq, hproperty, reduceCtorEq, and_false, and_true, if_false, add_zero,
      zero_add, sellerNetted, buyerNetted, netted]
    constructor
    · split_ifs with hseller hbuyer
      all_goals simp_all
    · split_ifs
      all_goals simp_all

/-- What a match leaves is what the next one reads. -/
theorem matching_eq_fill {t : MatchState} (hl : s.ledger.Nonneg)
    (hproperty : pold.property = pnew.property) (hn : 0 ≤ pnew.nCouldBuy pold)
    (ht : t = (s.matching pnew).fill sp pnew pold (pnew.nCouldBuy pold))
    (hterms : m.spInfo = s.spInfo) (hfreeze : m.ledger.freeze = s.ledger.freeze)
    (hmoney : ∀ a t, t ≠ .balance → m.ledger.money a pnew.property t =
      s.ledger.money a pnew.property t +
        Posting.net (· = ⟨a, pnew.property, t⟩) (matchPostings s.ledger pnew pold))
    (htrades : m.contractTrades = s.contractTrades.set pnew.property t.trades)
    (hcached : (m.cachefees.get? tlPropertyAlls).getD 0 = t.cached)
    (hdusd : m.globalVolumeAllDusd = t.dusd) (hltc : m.globalVolumeAllLtc = t.ltc)
    (hfactor : m.factorAllToLtc = s.factorAllToLtc) :
    m.matching pnew = t := by
  subst ht
  ext : 1
  case terms => exact congrArg (SPInfo.getSP · pnew.property) hterms
  case frozen => exact congrArg (FreezeState.isAddressFrozen · pnew.addr) hfreeze
  case long =>
    funext a
    exact (hmoney a .positiveBalance nofun).trans (fill_positions sp hl hproperty hn).1.symm
  case short =>
    funext a
    exact (hmoney a .negativeBalance nofun).trans (fill_positions sp hl hproperty hn).2.symm
  case trades =>
    rw [matching, htrades, OrderedMap.get?_set, if_pos rfl]
    rfl
  case cached => exact hcached
  case dusd => exact hdusd
  case ltc => exact hltc
  case factor => exact hfactor

/-- A match makes its checks, and leaves what the next one reads. -/
theorem follows_settleContract (hl : s.ledger.InRange) (hproperty : pold.property = pnew.property)
    (hsp : s.spInfo.getSP pnew.property = some sp) (hn : 0 < pnew.nCouldBuy pold) :
    Follows Abort.IsCrash
      (fun m => m.ledger.InRange ∧ m.matching pnew =
        (s.matching pnew).fill sp pnew pold (pnew.nCouldBuy pold))
      ((s.matching pnew).fillChecks sp pnew pold (pnew.nCouldBuy pold)
        (env.uninitializedCacheFee pnew.position pold.position))
      (s.settleContract env sp pold.effectivePrice pnew pold) := by
  rw [settleContract, MatchState.fillChecks, hproperty]
  refine (follows_tradeVolume hn.le).bind ?_
  rintro _ - rfl
  refine (follows_updateVwap (volumeOf_nonneg sp _) rfl).bind ?_
  intro m₁ _ h₁
  have hl₁ : m₁.ledger.InRange := by
    rw [h₁]
    exact hl
  have hpositions := follows_matchPostings hl₁ hproperty hn
  rw [show (m₁.matching pnew).PositionsFit pnew pold _ ↔
    (s.matching pnew).PositionsFit pnew pold _ by rw [h₁]; rfl] at hpositions
  refine hpositions.bind ?_
  intro m₂ hm₂ h₂
  have hsp₂ : m₂.spInfo.getSP pnew.property = some sp := by
    rw [h₂.1, h₁]
    exact hsp
  have hcached₂ : m₂.cachefees = s.cachefees := by rw [h₂.1, h₁]
  have hfreeze₂ : m₂.ledger.freeze = s.ledger.freeze := by rw [h₂.2.freeze_eq, h₁]
  have hfees := follows_contractDexFees (u := env.uninitializedCacheFee pnew.position pold.position)
    pnew.addr pold.addr hsp₂ hn.le
  rw [hcached₂, hfreeze₂] at hfees
  refine hfees.bind ?_
  intro m₃ h₃ _
  obtain ⟨hframe, ⟨qs, hq, hqs⟩, hin⟩ := Charged.of_contractDexFees hsp₂ h₃
  have hdusd : m₃.globalVolumeAllDusd = s.globalVolumeAllDusd := by rw [hframe, h₂.1, h₁]
  have hltc : m₃.globalVolumeAllLtc = s.globalVolumeAllLtc := by rw [hframe, h₂.1, h₁]
  have hfactor : m₃.factorAllToLtc = s.factorAllToLtc := by rw [hframe, h₂.1, h₁]
  have hrecord := follows_recordMatchedTrade (s := m₃) (n := pnew.nCouldBuy pold)
    (volumeOf_nonneg sp (pnew.nCouldBuy pold))
  rw [hdusd, hltc, hfactor] at hrecord
  refine hrecord.bind ?_
  rintro _ - rfl
  refine .other (fun hmarket => ⟨_, if_pos hmarket, hin (inRange_of_assertTallies hl₁ hm₂), ?_⟩)
    fun hmarket => ⟨_, if_neg hmarket, not_false⟩
  apply matching_eq_fill hl.nonneg hproperty hn.le rfl
  · rw [hframe, h₂.1, h₁]
  · exact hq.freeze_eq.trans hfreeze₂
  · intro a t ht
    dsimp only
    rw [hq.money_eq, hqs.net_eq_zero ht, add_zero, h₂.2.money_eq, h₁]
  · rw [hframe, h₂.1, h₁]
    rfl
  · dsimp only
    rw [cachefees_of_contractDexFees hsp₂ h₃, if_pos rfl, hcached₂]
    rfl
  · rfl
  · rfl
  · rfl

/-- Meeting an order makes its checks, and leaves what meeting the next one reads. -/
theorem follows_matchContract (pnew : ContractDex) (hl : s.ledger.InRange) :
    Follows Abort.IsCrash
      (fun r => r.2.ledger.InRange ∧ 0 ≤ pnew.nCouldBuy pold ∧
        r.1 = { pnew with amountForSale := if ContractDex.trades pnew.amountForSale pold then
          pnew.amountForSale - pnew.nCouldBuy pold else pnew.amountForSale } ∧
        r.2.matching pnew = (s.matching pnew).meet pnew pold (pnew.nCouldBuy pold))
      ((s.matching pnew).meetChecks pnew pold (pnew.nCouldBuy pold) env price)
      (s.matchContract env price pnew pold) := by
  rw [matchContract, MatchState.meetChecks]
  refine .fatal (fun hprice => ?_) fun hprice => ⟨_, if_pos hprice, trivial⟩
  subst hprice
  rw [if_neg (not_not.mpr rfl)]
  refine .fatal (fun hproperty => ?_) fun hproperty => ⟨_, if_pos hproperty, trivial⟩
  rw [if_neg (not_not.mpr hproperty), hproperty]
  by_cases hzero : pnew.nCouldBuy pold = 0
  · rw [if_pos hzero, if_pos hzero]
    refine ⟨_, rfl, hl, hzero.ge, ?_, ?_⟩
    · rw [hzero, sub_zero, ite_self]
    · rw [hzero, MatchState.meet_zero]
  rw [if_neg hzero, if_neg hzero]
  cases hsp : s.spInfo.getSP pnew.property with
  | none =>
    rw [show (s.matching pnew).terms = none from hsp]
    exact .fatal False.elim fun _ => ⟨_, rfl, trivial⟩
  | some sp =>
    have hterms : (s.matching pnew).terms = some sp := hsp
    rw [hterms]
    dsimp only
    refine .fatal (fun hn => ?_) fun hn => ?_
    · rw [← List.append_nil (MatchState.fillChecks _ _ _ _ _ _)]
      refine (follows_settleContract hl hproperty hsp hn).bind ?_
      intro m _ hm
      refine ⟨_, rfl, hm.1, hn.le, ContractDex.afterMatch_snd, hm.2.trans ?_⟩
      rw [MatchState.meet, hterms]
      dsimp only
      rw [if_neg hzero]
    · refine ⟨.rangeAssert, ?_, trivial⟩
      rw [settleContract, tradeVolume, convertTo256, if_neg (by omega), error_bind, error_bind,
        error_bind]

theorem follows_meetAll {orders : List (Nat × ContractDex)} {met : List ContractDex}
    (hl : s.ledger.InRange) (hn : met = [] ∨ 0 ≤ pnew.amountForSale) :
    Follows Abort.IsCrash (fun _ => True) (matchChecks env pnew (s.matching pnew) met orders)
      (meetAll env orders
        { pnew with amountForSale := ContractDex.openAfter pnew.amountForSale met } s) := by
  induction orders generalizing s met with
  | nil => exact ⟨_, rfl, trivial⟩
  | cons e orders ih =>
    have hmatch : Follows _ _ _ (s.matchContract env e.1 _ e.2) := follows_matchContract
      { pnew with amountForSale := ContractDex.openAfter pnew.amountForSale met } hl
    rw [ContractDex.nCouldBuy_eq_min] at hmatch
    refine hmatch.bind ?_
    rintro ⟨_, m⟩ - ⟨hml, hpos, rfl, hread⟩
    obtain ⟨hopen, ha⟩ := le_min_iff.mp hpos
    have hn' : 0 ≤ pnew.amountForSale := by
      rcases hn with rfl | hn
      · rw [ContractDex.openAfter_nil] at hopen
        exact hopen
      · exact hn
    have hread' : m.matching pnew = (s.matching pnew).meet pnew e.2
      (min (ContractDex.openAfter pnew.amountForSale met) e.2.amountForSale) := hread
    have hnext := @ih m (met ++ [e.2]) hml (.inr hn')
    rw [ContractDex.openAfter_concat hn' ha, hread'] at hnext
    exact hnext

theorem follows_xTradeContract (hl : s.ledger.InRange) :
    Follows Abort.IsCrash (fun _ => True) (s.tradeChecks env pnew)
      (s.xTradeContract env pnew) := by
  have hall : Follows _ _ (matchChecks env pnew _ [] (s.walk pnew)) _ :=
    follows_meetAll hl (.inl rfl)
  rw [ContractDex.openAfter_nil] at hall
  rw [xTradeContract_eq]
  exact hall

end Settlement

end NodeState

end TradeLayer
