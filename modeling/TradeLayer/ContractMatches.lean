import TradeLayer.ContractDex

namespace TradeLayer
open Library

theorem ContractDex.afterMatch_eq (pnew pold : ContractDex) :
    ∃ n n', afterMatch pnew pold =
      ({ pold with amountForSale := n }, { pnew with amountForSale := n' }) := by
  unfold afterMatch
  dsimp only
  split_ifs
  · exact ⟨_, _, rfl⟩
  · exact ⟨_, _, rfl⟩
  · exact ⟨_, _, rfl⟩
  · exact ⟨pold.amountForSale, pnew.amountForSale, rfl⟩

namespace NodeState

variable {s s' m : NodeState} {env : Environment} {pnew pnew' pold : ContractDex} {price : Nat}
variable {used : Set (Int ×ₗ Nat)} {rc : Int} {sp : SPEntry} {qs : List (Posting Account)}
variable {p : PropertyId} {volume : Int}

/-- Everything the settlement of matches does: it books postings and rewrites the records of
prices, volumes and fees. -/
structure Settled (s s' : NodeState) : Prop where
  frame : s' = { s with
    ledger := s'.ledger, contractTrades := s'.contractTrades, cachefees := s'.cachefees,
    marketP := s'.marketP, globalVolumeAllLtc := s'.globalVolumeAllLtc,
    globalVolumeAllDusd := s'.globalVolumeAllDusd }
  posted : ∃ ps, s.ledger.Posted ps s'.ledger

def OnBalances (p : PropertyId) (qs : List (Posting Account)) : Prop :=
  ∀ x ∈ qs, x.account.ttype = .balance ∧ x.account.property = p

namespace OnBalances

variable {p : PropertyId} {rs : List (Posting Account)}

theorem nil : OnBalances p [] := by
  intro x hx
  cases hx

theorem append (h : OnBalances p qs) (h' : OnBalances p rs) : OnBalances p (qs ++ rs) :=
  List.forall_mem_append.mpr ⟨h, h'⟩

theorem net_eq_zero (h : OnBalances p qs) {a : Address} {q : PropertyId} {t : TallyType}
    (ht : t ≠ .balance) : Posting.net (· = ⟨a, q, t⟩) qs = 0 := by
  apply Posting.net_eq_zero
  intro x hx heq
  apply ht
  rw [← (h x hx).1, heq]

end OnBalances

theorem payOracle_cases {fee : Int} (h : s.payOracle sp fee = .ok s') :
    sp.propType ≠ allPropertyTypeOracleContract ∧ s' = s ∨
    sp.propType = allPropertyTypeOracleContract ∧ ∃ m,
      s.tryTally sp.issuer sp.collateralCurrency fee .balance = .ok m ∧
      s' = { m with cachefees := if sp.collateralCurrency = tlPropertyAlls then
        m.cachefees.set tlPropertyAlls ((m.cachefees.get? tlPropertyAlls).getD 0 + fee)
        else m.cachefees } := by
  unfold payOracle at h
  split_ifs at h with horacle halls
  · obtain ⟨m, hm, h⟩ := bind_eq_ok.mp h
    obtain ⟨cached, hcached, h⟩ := bind_eq_ok.mp h
    obtain ⟨rfl, -⟩ := checked64_eq_ok.mp hcached
    cases h
    exact .inr ⟨horacle, m, hm, by rw [if_pos halls]⟩
  · obtain ⟨m, hm, h⟩ := bind_eq_ok.mp h
    cases h
    exact .inr ⟨horacle, _, hm, by rw [if_neg halls]⟩
  · cases h
    exact .inl ⟨horacle, rfl⟩

theorem contractDexFees_cases {taker maker : Address} {u n : Int} {c : PropertyId}
    (hsp : s.spInfo.getSP c = some sp) (h : s.contractDexFees u taker maker n c = .ok s') :
    ∃ fees m₁ m₂, contractFees sp u n = .ok fees ∧ s.payOracle sp fees.cacheFee = .ok m₁ ∧
      m₁.tryTally taker sp.collateralCurrency (-fees.takerFee) .balance = .ok m₂ ∧
      m₂.tryTally maker sp.collateralCurrency fees.makerFee .balance = .ok s' ∧
      fees.takerFee = fees.makerFee + 3 * fees.cacheFee := by
  rw [contractDexFees, hsp] at h
  obtain ⟨fees, hfees, h⟩ := bind_eq_ok.mp h
  obtain ⟨m₁, h₁, h⟩ := bind_eq_ok.mp h
  obtain ⟨m₂, h₂, h⟩ := bind_eq_ok.mp h
  obtain ⟨m₃, h₃, h⟩ := bind_eq_ok.mp h
  split_ifs at h with hbalanced
  cases h
  exact ⟨fees, m₁, m₂, hfees, h₁, h₂, h₃, hbalanced⟩

/-- Fees are booked to the balances of one property and may be recorded in the cache. -/
structure Charged (p : PropertyId) (s s' : NodeState) : Prop where
  frame : s' = { s with ledger := s'.ledger, cachefees := s'.cachefees }
  posted : ∃ qs, s.ledger.Posted qs s'.ledger ∧ OnBalances p qs
  inRange : s.ledger.InRange → s'.ledger.InRange

namespace Charged

variable {p : PropertyId}

theorem refl : Charged p s s := ⟨rfl, ⟨[], .nil _, .nil⟩, id⟩

theorem trans (h : Charged p s m) (h' : Charged p m s') : Charged p s s' := by
  obtain ⟨hf, ⟨qs, hq, hqs⟩, hin⟩ := h
  obtain ⟨hf', ⟨rs, hr, hrs⟩, hin'⟩ := h'
  refine ⟨?_, ⟨qs ++ rs, hq.trans hr, hqs.append hrs⟩, fun hl => hin' (hin hl)⟩
  rw [hf', hf]

theorem of_tryTally {who : Address} {n : Int} (h : s.tryTally who p n .balance = .ok s') :
    Charged p s s' := by
  obtain ⟨⟨ok, l⟩, hl, h⟩ := bind_eq_ok.mp h
  cases h
  refine ⟨rfl, ⟨_, Ledger.posted_of_updateTallyMap hl, ?_⟩, fun hr => hr.of_updateTallyMap hl⟩
  intro x hx
  split_ifs at hx
  · rw [List.mem_singleton.mp hx]
    exact ⟨rfl, rfl⟩
  · cases hx

theorem of_payOracle {fee : Int} (h : s.payOracle sp fee = .ok s') :
    Charged sp.collateralCurrency s s' := by
  rcases payOracle_cases h with ⟨-, rfl⟩ | ⟨-, m, hm, rfl⟩
  · exact .refl
  · have hpaid : Charged sp.collateralCurrency s m := of_tryTally hm
    refine ⟨?_, hpaid.posted, hpaid.inRange⟩
    rw [hpaid.frame]

theorem of_contractDexFees {taker maker : Address} {u n : Int} {c : PropertyId}
    (hsp : s.spInfo.getSP c = some sp) (h : s.contractDexFees u taker maker n c = .ok s') :
    Charged sp.collateralCurrency s s' := by
  obtain ⟨fees, m₁, m₂, -, h₁, h₂, h₃, -⟩ := contractDexFees_cases hsp h
  exact ((of_payOracle h₁).trans (of_tryTally h₂)).trans (of_tryTally h₃)

end Charged

theorem updateVwap_eq (h : s.updateVwap p price volume = .ok s') :
    ∃ numVwap, s' = { s with
      contractTrades := s.contractTrades.set p
        ((s.contractTrades.get? p).getD [] ++ [(numVwap, volume)]) } := by
  obtain ⟨volume256, -, h⟩ := bind_eq_ok.mp h
  obtain ⟨numVwap, -, h⟩ := bind_eq_ok.mp h
  obtain ⟨_, -, h⟩ := bind_eq_ok.mp h
  obtain ⟨denominator, -, h⟩ := bind_eq_ok.mp h
  split_ifs at h
  cases h
  exact ⟨numVwap, rfl⟩

theorem recordMatchedTrade_eq {n : Int} (h : s.recordMatchedTrade volume n = .ok s') :
    ∃ dusd ltc, s' = { s with globalVolumeAllDusd := dusd, globalVolumeAllLtc := ltc } := by
  obtain ⟨dusd, -, h⟩ := bind_eq_ok.mp h
  obtain ⟨factor, -, h⟩ := bind_eq_ok.mp h
  obtain ⟨volume256, -, h⟩ := bind_eq_ok.mp h
  obtain ⟨volumeLtc, -, h⟩ := bind_eq_ok.mp h
  obtain ⟨ltc, -, h⟩ := bind_eq_ok.mp h
  cases h
  exact ⟨dusd, ltc, rfl⟩

/-- A match of two orders: it moves the positions of both owners and charges fees. -/
structure Matched (pnew pold : ContractDex) (sp : SPEntry) (s s' : NodeState) : Prop where
  settled : Settled s s'
  positive : 0 < pnew.nCouldBuy pold
  posted : ∃ qs, s.ledger.Posted (matchPostings s.ledger pnew pold ++ qs) s'.ledger ∧
    OnBalances sp.collateralCurrency qs
  inRange : s.ledger.InRange → s'.ledger.InRange

theorem matched_of_settleContract (hsp : s.spInfo.getSP pold.property = some sp)
    (hn : pnew.nCouldBuy pold ≠ 0)
    (h : s.settleContract env sp price pnew pold = .ok s') : Matched pnew pold sp s s' := by
  obtain ⟨volume, hvolume, h⟩ := bind_eq_ok.mp h
  obtain ⟨m₁, h₁, h⟩ := bind_eq_ok.mp h
  obtain ⟨m₂, h₂, h⟩ := bind_eq_ok.mp h
  obtain ⟨m₃, h₃, h⟩ := bind_eq_ok.mp h
  obtain ⟨m₄, h₄, h⟩ := bind_eq_ok.mp h
  have hin₂ : m₁.ledger.InRange → m₂.ledger.InRange := fun hl => inRange_of_assertTallies hl h₂
  obtain ⟨numVwap, rfl⟩ := updateVwap_eq h₁
  obtain ⟨hframe₂, hpositions⟩ := posted_of_assertTallies h₂
  have hsp₂ : m₂.spInfo.getSP pold.property = some sp := by
    rw [hframe₂]
    exact hsp
  obtain ⟨hframe, ⟨qs, hq, hqs⟩, hin⟩ := Charged.of_contractDexFees hsp₂ h₃
  obtain ⟨dusd, ltc, rfl⟩ := recordMatchedTrade_eq h₄
  rw [setMarketPrice] at h
  split_ifs at h
  cases h
  have hposted := hpositions.trans hq
  refine ⟨⟨?_, _, hposted⟩, ?_, ⟨qs, hposted, hqs⟩, fun hl => hin (hin₂ hl)⟩
  · dsimp only
    rw [hframe, hframe₂]
  · obtain ⟨n, hconv, -⟩ := bind_eq_ok.mp hvolume
    have hcast := convertTo256_eq_ok.mp hconv
    omega

/-- A pass of the loop that returns passes by an order of nothing, or matches the order and puts
what is left of it in its place. -/
theorem matchContract_matched (h : s.matchContract env price pnew pold = .ok (pnew', s')) :
    pold.effectivePrice = price ∧ pold.property = pnew.property ∧
      (pnew.nCouldBuy pold = 0 ∧ pnew' = pnew ∧ s' = s ∨
        ∃ sp m, s.spInfo.getSP pold.property = some sp ∧ Matched pnew pold sp s m ∧
          pnew' = (pnew.afterMatch pold).2 ∧
          s' = m.replaceContract pnew.property price pold (pnew.afterMatch pold).1
            (ContractDex.remaining pnew pold)) := by
  rw [matchContract] at h
  split_ifs at h with hprice hproperty hnone
  · cases h
    exact ⟨not_not.mp hprice, not_not.mp hproperty, .inl ⟨hnone, rfl, rfl⟩⟩
  · refine ⟨not_not.mp hprice, not_not.mp hproperty, .inr ?_⟩
    split at h
    case h_1 => cases h
    case h_2 sp hsp =>
      obtain ⟨m, hm, h⟩ := bind_eq_ok.mp h
      cases h
      exact ⟨sp, m, hsp, matched_of_settleContract hsp hnone hm, rfl, rfl⟩

/-- The orders of levels that a new order may trade with, with the prices of the levels. -/
def meetable (pnew : ContractDex) (levels : List (Nat × Keyed ContractDex.position)) :
    List (Nat × ContractDex) :=
  (levels.filter fun e => !skipsLevel pnew e.1).flatMap fun e => e.2.toList.map (e.1, ·)

def walk (s : NodeState) (pnew : ContractDex) : List (Nat × ContractDex) :=
  match s.contractdex.get? pnew.property with
  | none => []
  | some prices =>
    meetable pnew
      (if pnew.tradingAction = actionBuy then prices.toList else prices.toList.reverse)

def meetAll (env : Environment) : List (Nat × ContractDex) → ContractDex → NodeState →
    Except Abort (ContractDex × NodeState)
  | [], pnew, s => .ok (pnew, s)
  | (price, pold) :: rest, pnew, s => do
    let (pnew, s) ← s.matchContract env price pnew pold
    meetAll env rest pnew s

/-- What matches do to the orders and to the state. Orders rest at used positions only. -/
structure Filled (used : Set (Int ×ₗ Nat)) (x y : ContractDex × NodeState) : Prop where
  order : ∃ n, y.1 = { x.1 with amountForSale := n }
  frame : y.2 = { x.2 with
    ledger := y.2.ledger, contractTrades := y.2.contractTrades, cachefees := y.2.cachefees,
    marketP := y.2.marketP, globalVolumeAllLtc := y.2.globalVolumeAllLtc,
    globalVolumeAllDusd := y.2.globalVolumeAllDusd, contractdex := y.2.contractdex }
  posted : ∃ ps, x.2.ledger.Posted ps y.2.ledger
  positions : Book.positions x.2.contractdex ⊆ used → Book.positions y.2.contractdex ⊆ used

namespace Filled

variable {x y z : ContractDex × NodeState}

theorem refl : Filled used x x := ⟨⟨_, rfl⟩, rfl, ⟨[], .nil _⟩, id⟩

theorem trans (h : Filled used x y) (h' : Filled used y z) : Filled used x z := by
  obtain ⟨⟨n, ho⟩, hf, ⟨ps, hp⟩, hpos⟩ := h
  obtain ⟨⟨n', ho'⟩, hf', ⟨qs, hq⟩, hpos'⟩ := h'
  refine ⟨⟨n', ?_⟩, ?_, ⟨ps ++ qs, hp.trans hq⟩, fun hu => hpos' (hpos hu)⟩
  · rw [ho', ho]
  · rw [hf', hf]

theorem of_matchContract (h : s.matchContract env price pnew pold = .ok (pnew', s'))
    (hpold : pold.position ∈ used) : Filled used (pnew, s) (pnew', s') := by
  obtain ⟨-, -, ⟨-, rfl, rfl⟩ | ⟨sp, m, -, hm, rfl, rfl⟩⟩ := matchContract_matched h
  · exact .refl
  · obtain ⟨n, n', hafter⟩ := ContractDex.afterMatch_eq pnew pold
    rw [hafter]
    refine ⟨⟨n', rfl⟩, ?_, hm.settled.posted, ?_⟩
    · dsimp only
      rw [replaceContract, hm.settled.frame]
    · intro hu
      have hbook : m.contractdex = s.contractdex := by rw [hm.settled.frame]
      have hremove : Book.positions (Book.remove s.contractdex pnew.property price pold.position) ⊆
        used := Book.positions_remove.trans hu
      dsimp only [replaceContract]
      rw [hbook]
      split_ifs
      · exact Book.positions_file hpold hremove
      · exact hremove

theorem of_meetAll {orders : List (Nat × ContractDex)}
    (h : meetAll env orders pnew s = .ok (pnew', s'))
    (horders : ∀ e ∈ orders, e.2.position ∈ used) : Filled used (pnew, s) (pnew', s') := by
  induction orders generalizing pnew s with
  | nil =>
    cases h
    exact .refl
  | cons e orders ih =>
    obtain ⟨⟨pmid, m⟩, hm, h⟩ := bind_eq_ok.mp h
    obtain ⟨hpold, horders⟩ := List.forall_mem_cons.mp horders
    exact (of_matchContract hm hpold).trans (ih h horders)

theorem skipsLevel_eq (h : Filled used x y) : skipsLevel y.1 = skipsLevel x.1 := by
  obtain ⟨n, ho⟩ := h.order
  rw [ho]
  rfl

end Filled

section Walk

variable {orders rest : List (Nat × ContractDex)}

theorem meetAll_append : meetAll env (orders ++ rest) pnew s =
    meetAll env orders pnew s >>= fun r => meetAll env rest r.1 r.2 := by
  induction orders generalizing pnew s with
  | nil => rfl
  | cons e orders ih =>
    rw [List.cons_append, meetAll, meetAll, bind_assoc]
    congr 1
    funext r
    exact ih

theorem xTradeBidirectional_eq {olds : List ContractDex} :
    xTradeBidirectional env price olds pnew s = meetAll env (olds.map (price, ·)) pnew s := by
  induction olds generalizing pnew s with
  | nil => rfl
  | cons pold olds ih =>
    rw [xTradeBidirectional, List.map_cons, meetAll]
    congr 1
    funext r
    exact ih

theorem loopLevels_eq {levels : List (Nat × Keyed ContractDex.position)} :
    loopLevels env levels pnew s = meetAll env (meetable pnew levels) pnew s := by
  induction levels generalizing pnew s with
  | nil => rfl
  | cons e levels ih =>
    obtain ⟨sellerPrice, offerSet⟩ := e
    rw [loopLevels]
    split_ifs with hskip
    · rw [ih, meetable, meetable, List.filter_cons_of_neg (by simp [hskip])]
    · have hfirst : meetable pnew ((sellerPrice, offerSet) :: levels) =
          offerSet.toList.map (sellerPrice, ·) ++ meetable pnew levels := by
        rw [meetable, List.filter_cons_of_pos (by simp [hskip]), List.flatMap_cons, meetable]
      rw [hfirst, meetAll_append, ← xTradeBidirectional_eq]
      cases hr : xTradeBidirectional env sellerPrice offerSet.toList pnew s with
      | error e => rfl
      | ok r =>
        rw [xTradeBidirectional_eq] at hr
        have hfilled : Filled Set.univ (pnew, s) r := .of_meetAll hr fun _ _ => Set.mem_univ _
        rw [ok_bind, ok_bind, meetable, ← hfilled.skipsLevel_eq]
        exact ih

theorem xTradeContract_eq : s.xTradeContract env pnew = meetAll env (s.walk pnew) pnew s := by
  rw [xTradeContract, walk]
  cases s.contractdex.get? pnew.property with
  | none => rfl
  | some prices => exact loopLevels_eq

theorem mem_walk {e : Nat × ContractDex} (h : e ∈ s.walk pnew) :
    e.2 ∈ Book.level s.contractdex pnew.property e.1 ∧ skipsLevel pnew e.1 = false := by
  rw [walk] at h
  split at h
  case h_1 => cases h
  case h_2 prices hprices =>
    rw [meetable, List.mem_flatMap] at h
    obtain ⟨level, hin, ho⟩ := h
    obtain ⟨o, ho, rfl⟩ := List.mem_map.mp ho
    obtain ⟨hmem, hskip⟩ := List.mem_filter.mp hin
    have hprice : level ∈ prices.toList := by
      split_ifs at hmem
      · exact hmem
      · exact List.mem_reverse.mp hmem
    have hlevel : prices.get? level.1 = some level.2 := OrderedMap.get?_eq_some.mpr hprice
    refine ⟨?_, by simpa using hskip⟩
    rwa [Book.level, hprices, Option.bind_some, hlevel, Option.getD_some]

theorem Filled.of_xTradeContract (h : s.xTradeContract env pnew = .ok (pnew', s')) :
    Filled (Book.positions s.contractdex) (pnew, s) (pnew', s') := by
  rw [xTradeContract_eq] at h
  exact .of_meetAll h fun e he => ⟨_, _, e.2, (mem_walk he).1, rfl⟩

end Walk

/-- Everything the placing of an order for contracts can do: it is refused, or it is matched
and its rest, if any, goes into the book. -/
theorem contractDexAdd_cases {a : Address} {n block : Int} {txid idx effectivePrice action : Nat}
    (h : s.contractDexAdd env a p n block txid idx effectivePrice action = .ok (rc, s')) :
    effectivePrice = 0 ∧ rc = metaDExError - 66 ∧ s' = s ∨
      effectivePrice ≠ 0 ∧ ∃ o m, Filled (Book.positions s.contractdex)
          (⟨a, block, txid, idx, p, n, effectivePrice, action⟩, s) (o, m) ∧
        (rc = metaDExError - 70 ∧ s' = m ∧ o.position ∈ Book.positions m.contractdex ∨
          rc = 0 ∧ s' = { m with
            contractdex := Book.file m.contractdex o.property o.effectivePrice o } ∨
          rc = 0 ∧ s' = m) := by
  unfold contractDexAdd at h
  dsimp only at h
  split_ifs at h with hprice
  · cases h
    exact .inl ⟨hprice, rfl, rfl⟩
  obtain ⟨⟨o, m⟩, hm, h⟩ := bind_eq_ok.mp h
  refine .inr ⟨hprice, o, m, Filled.of_xTradeContract hm, ?_⟩
  dsimp only at h
  split_ifs at h with hrem
  · by_cases hc : (Book.level m.contractdex o.property o.effectivePrice).contains o.position = true
    · simp only [contractDexInsert, hc, if_true] at h
      cases h
      obtain ⟨x, hx, hk⟩ := Keyed.contains_eq_true.mp hc
      exact .inl ⟨rfl, rfl, _, _, x, hx, hk⟩
    · simp only [contractDexInsert, hc, if_false, Bool.false_eq_true] at h
      cases h
      exact .inr (.inl ⟨rfl, rfl⟩)
  · cases h
    exact .inr (.inr ⟨rfl, rfl⟩)

end NodeState

end TradeLayer
