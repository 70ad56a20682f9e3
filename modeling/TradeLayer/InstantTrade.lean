import TradeLayer.PositionBalance

namespace TradeLayer
open Library

namespace NodeState

def instantPostings (who : Address) (property : PropertyId) (poss neg p : Int) :
    List (Posting Account) :=
  if 0 < p then
    ⟨⟨who, property, .positiveBalance⟩, p - poss⟩ ::
      if neg ≠ 0 then [⟨⟨who, property, .negativeBalance⟩, -neg⟩] else []
  else if p < 0 then
    ⟨⟨who, property, .negativeBalance⟩, -p - neg⟩ ::
      if poss ≠ 0 then [⟨⟨who, property, .positiveBalance⟩, -poss⟩] else []
  else if poss ≠ 0 then [⟨⟨who, property, .positiveBalance⟩, -poss⟩]
  else if neg ≠ 0 then [⟨⟨who, property, .negativeBalance⟩, -neg⟩]
  else []

/-- The positions of the two parties, which are signed 64-bit numbers as their negations are,
after the first one has bought an amount from the second one. -/
def moveInstant (s : NodeState) (firstAddr secondAddr : Address) (property : PropertyId)
    (amountForsale : Int) : Except Abort NodeState := do
  let firstPoss := s.ledger.getTokenBalance firstAddr property .positiveBalance
  let firstNeg := s.ledger.getTokenBalance firstAddr property .negativeBalance
  let secondPoss := s.ledger.getTokenBalance secondAddr property .positiveBalance
  let secondNeg := s.ledger.getTokenBalance secondAddr property .negativeBalance
  let firstP ← checked64 (firstPoss - firstNeg + amountForsale)
  let secondP ← checked64 (secondPoss - secondNeg - amountForsale)
  let _ ← checked64 (-firstP)
  let _ ← checked64 (-secondP)
  let s ← s.assertTallies (instantPostings firstAddr property firstPoss firstNeg firstP)
  s.assertTallies (instantPostings secondAddr property secondPoss secondNeg secondP)

def signedAmount (tradingAction : Nat) (amountForsale : Int) : Except Abort Int :=
  if tradingAction = actionSell then checked64 (-amountForsale) else .ok amountForsale

def instantXTrade (s : NodeState) (tradingAction : Nat) (firstAddr secondAddr : Address)
    (property : PropertyId) (amountForsale : Int) : Except Abort NodeState := do
  let amountForsale ← signedAmount tradingAction amountForsale
  let s ← s.moveInstant firstAddr secondAddr property amountForsale
  match s.spInfo.getSP property with
  | none => .error .assertion
  | some sp => do
    let amountTraded ← checked64 |amountForsale|
    let volume ← tradeVolume sp.notionalSize amountTraded
    s.recordMatchedTrade volume amountTraded

variable {s s' : NodeState} {a first second : Address} {c : PropertyId} {action : Nat}
variable {amount poss neg p : Int}

theorem net_instantPostings (hside : poss = 0 ∨ neg = 0) (ha : 0 ≤ poss) (hb : 0 ≤ neg)
    {P : Account → Prop} [DecidablePred P] :
    Posting.net P (instantPostings a c poss neg p) =
      (if P ⟨a, c, .positiveBalance⟩ then max p 0 - poss else 0) +
        if P ⟨a, c, .negativeBalance⟩ then max (-p) 0 - neg else 0 := by
  rw [instantPostings]
  split_ifs <;> simp only [Posting.net_cons, Posting.net_nil, *, if_true, if_false] <;> omega

theorem mem_instantPostings {delta : Int} {x : Posting Account}
    (hx : x ∈ instantPostings a c poss neg p) (hside : poss = 0 ∨ neg = 0) (ha : 0 ≤ poss)
    (hb : 0 ≤ neg) (hdelta : delta ≠ 0) (hp : p = poss - neg + delta) : x.amount ≠ 0 ∧
      (x = ⟨⟨a, c, .positiveBalance⟩, max p 0 - poss⟩ ∨
        x = ⟨⟨a, c, .negativeBalance⟩, max (-p) 0 - neg⟩) := by
  grind [instantPostings]

theorem pairwise_instantPostings :
    (instantPostings a c poss neg p).Pairwise fun x y => x.account ≠ y.account := by
  rw [instantPostings]
  split_ifs <;> simp

theorem covers_instantPostings {l : Ledger} {delta : Int} (hl : l.InRange)
    (hside : poss = 0 ∨ neg = 0) (hdelta : delta ≠ 0) (hp : p = poss - neg + delta)
    (hmax : |p| ≤ int64Max) (hposs : l.money a c .positiveBalance = poss)
    (hneg : l.money a c .negativeBalance = neg) :
    l.Covers (instantPostings a c poss neg p) ∧ Ledger.Plain (instantPostings a c poss neg p) := by
  have hlong := hl a c .positiveBalance (by decide)
  have hshort := hl a c .negativeBalance (by decide)
  rw [abs_le] at hmax
  rw [hposs] at hlong
  rw [hneg] at hshort
  constructor
  · apply Ledger.covers_of_reserves pairwise_instantPostings
    intro x hx
    obtain ⟨hne, rfl | rfl⟩ := mem_instantPostings hx hside hlong.1 hshort.1 hdelta hp
    · refine ⟨by simp, hne, ?_⟩
      dsimp only [Ledger.amountAt]
      omega
    · refine ⟨by simp, hne, ?_⟩
      dsimp only [Ledger.amountAt]
      omega
  · intro x hx
    obtain ⟨-, rfl | rfl⟩ := mem_instantPostings hx hside hlong.1 hshort.1 hdelta hp
    · simp
    · simp

/-- What an instant trade of an amount bought by the first party adds to a position. -/
def instantChange (first second : Address) (c : PropertyId) (delta : Int) (a : Address)
    (q : PropertyId) : Int :=
  if c = q then (if first = a then delta else 0) - if second = a then delta else 0 else 0

section Positions

variable {delta : Int}

def partyPostings (l : Ledger) (who : Address) (c : PropertyId) (delta : Int) :
    List (Posting Account) :=
  instantPostings who c (l.money who c .positiveBalance) (l.money who c .negativeBalance)
    (l.position who c + delta)

theorem net_partyPostings {l : Ledger} (hl : l.Nonneg) (heven : l.EvenPositions)
    {P : Account → Prop} [DecidablePred P] :
    Posting.net P (partyPostings l a c delta) =
      (if P ⟨a, c, .positiveBalance⟩ then
          max (l.position a c + delta) 0 - l.money a c .positiveBalance else 0) +
        if P ⟨a, c, .negativeBalance⟩ then
          max (-(l.position a c + delta)) 0 - l.money a c .negativeBalance else 0 :=
  net_instantPostings (heven.oneSided a c) (hl _ _ _ (by decide)) (hl _ _ _ (by decide))

theorem evenPositions_of_instant {l l' : Ledger} (hl : l.Nonneg) (heven : l.EvenPositions)
    (hne : first ≠ second)
    (hp : l.Posted (partyPostings l first c delta ++ partyPostings l second c (-delta)) l') :
    l'.EvenPositions := by
  constructor
  · intro a q
    have hside := heven.oneSided a q
    have hpos := hp.money_eq a q .positiveBalance
    have hneg := hp.money_eq a q .negativeBalance
    rw [Posting.net_append, net_partyPostings hl heven, net_partyPostings hl heven] at hpos hneg
    simp only [Account.mk.injEq, reduceCtorEq, and_true, and_false, if_false, zero_add,
      add_zero] at hpos hneg
    by_cases hq : c = q
    · subst hq
      by_cases hfirst : first = a
      · subst hfirst
        simp only [hne.symm, false_and, and_self, if_true, if_false] at hpos hneg
        omega
      · by_cases hsecond : second = a
        · subst hsecond
          simp only [hfirst, false_and, and_self, if_true, if_false] at hpos hneg
          omega
        · simp only [hfirst, hsecond, false_and, if_false] at hpos hneg
          omega
    · simp only [hq, and_false, if_false] at hpos hneg
      omega
  · intro q
    have hbalanced := heven.balanced q
    rw [hp.supply_eq, hp.supply_eq, Posting.net_append, Posting.net_append,
      net_partyPostings hl heven, net_partyPostings hl heven, net_partyPostings hl heven,
      net_partyPostings hl heven]
    simp only [reduceCtorEq, and_true, and_false, if_false, zero_add, add_zero, Ledger.position]
    split_ifs <;> omega

theorem positions_of_moveInstant (hl : s.ledger.InRange) (heven : s.ledger.EvenPositions)
    (hne : first ≠ second) (hdelta : delta ≠ 0)
    (hstays : ∀ a, |s.ledger.position a c + instantChange first second c delta a c| ≤ int64Max) :
    Avoids Abort.IsTallyAssert (s.moveInstant first second c delta) ∧
      ∀ s', s.moveInstant first second c delta = .ok s' →
        s'.ledger.InRange ∧ s'.ledger.EvenPositions := by
  have hnonneg : s.ledger.Nonneg := fun a p t ht => (hl a p t ht).1
  have hfirst := hstays first
  have hsecond := hstays second
  simp only [instantChange, hne, hne.symm, if_true, if_false, sub_zero, zero_sub] at hfirst hsecond
  obtain ⟨hcov, hplain⟩ := covers_instantPostings (a := first) (c := c) hl
    (heven.oneSided first c) hdelta rfl hfirst rfl rfl
  have hsteps : ∀ m, s.assertTallies (partyPostings s.ledger first c delta) = .ok m →
      m.ledger.InRange ∧ m.ledger.Covers (partyPostings s.ledger second c (-delta)) ∧
        Ledger.Plain (partyPostings s.ledger second c (-delta)) := by
    intro m hm
    have hml := inRange_of_assertTallies hl hm
    have hother : ∀ t, m.ledger.money second c t = s.ledger.money second c t := by
      intro t
      rw [(posted_of_assertTallies hm).2.money_eq, net_partyPostings hnonneg heven]
      simp [hne]
    exact ⟨hml, covers_instantPostings hml (heven.oneSided second c) (neg_ne_zero.mpr hdelta) rfl
      hsecond (hother _) (hother _)⟩
  have hcheck : ∀ x, Avoids Abort.IsTallyAssert (checked64 x) := fun x =>
    avoids_checked64 Abort.ofUpdates_isTallyAssert
  have hasserts : ∀ {s : NodeState} {ps}, CrashFree (s.assertTallies ps) →
      Avoids Abort.IsTallyAssert (s.assertTallies ps) :=
    fun hcrash e he hassert => hcrash e he hassert.isCrash
  unfold moveInstant
  constructor
  · apply (hcheck _).bind
    intro firstP hp
    obtain ⟨rfl, -⟩ := checked64_eq_ok.mp hp
    apply (hcheck _).bind
    intro secondP hp'
    obtain ⟨rfl, -⟩ := checked64_eq_ok.mp hp'
    apply (hcheck _).bind
    intro _ _
    apply (hcheck _).bind
    intro _ _
    apply (hasserts ((crashFree_assertTallies hl hplain).mpr hcov)).bind
    intro m hm
    obtain ⟨hml, hcov', hplain'⟩ := hsteps m hm
    exact hasserts ((crashFree_assertTallies hml hplain').mpr hcov')
  · intro s' h
    obtain ⟨firstP, hp, h⟩ := bind_eq_ok.mp h
    obtain ⟨rfl, -⟩ := checked64_eq_ok.mp hp
    obtain ⟨secondP, hp', h⟩ := bind_eq_ok.mp h
    obtain ⟨rfl, -⟩ := checked64_eq_ok.mp hp'
    obtain ⟨-, -, h⟩ := bind_eq_ok.mp h
    obtain ⟨-, -, h⟩ := bind_eq_ok.mp h
    obtain ⟨m, hm, h⟩ := bind_eq_ok.mp h
    have hposted := (posted_of_assertTallies hm).2.trans (posted_of_assertTallies h).2
    exact ⟨inRange_of_assertTallies (hsteps m hm).1 h,
      evenPositions_of_instant hnonneg heven hne hposted⟩

/-- An instant trade refuses no position update unless a position overflows, and keeps the
positions even. -/
theorem positions_of_instantXTrade (hl : s.ledger.InRange) (heven : s.ledger.EvenPositions)
    (hne : first ≠ second) (hamount : amount ≠ 0)
    (hstays : s.ledger.StaysInt64 [instantChange first second c
      (if action = actionSell then -amount else amount)]) :
    Avoids Abort.IsTallyAssert (s.instantXTrade action first second c amount) ∧
      ∀ s', s.instantXTrade action first second c amount = .ok s' →
        s'.ledger.InRange ∧ s'.ledger.EvenPositions := by
  have hsigned : Avoids Abort.IsTallyAssert (signedAmount action amount) ∧
      ∀ delta, signedAmount action amount = .ok delta →
        delta = if action = actionSell then -amount else amount := by
    rw [signedAmount]
    split_ifs
    · exact ⟨avoids_checked64 Abort.ofUpdates_isTallyAssert, fun _ h => (checked64_eq_ok.mp h).1⟩
    · exact ⟨.ok, fun _ h => (Except.ok.inj h).symm⟩
  have hdelta : (if action = actionSell then -amount else amount) ≠ 0 := by
    split_ifs
    · exact neg_ne_zero.mpr hamount
    · exact hamount
  have hmove := positions_of_moveInstant hl heven hne hdelta fun a => hstays.head a c
  constructor
  · apply hsigned.1.bind
    intro delta hd
    rw [hsigned.2 delta hd]
    apply hmove.1.bind
    intro m _
    split
    · exact .error not_false
    · apply (avoids_checked64 Abort.ofUpdates_isTallyAssert).bind
      intro traded _
      apply (avoids_tradeVolume Abort.ofUpdates_isTallyAssert).bind
      intro volume _
      exact avoids_recordMatchedTrade Abort.ofUpdates_isTallyAssert
  · intro s' h
    obtain ⟨delta, hd, h⟩ := bind_eq_ok.mp h
    obtain ⟨m, hm, h⟩ := bind_eq_ok.mp h
    rw [hsigned.2 delta hd] at hm
    split at h
    · cases h
    · obtain ⟨traded, -, h⟩ := bind_eq_ok.mp h
      obtain ⟨volume, -, h⟩ := bind_eq_ok.mp h
      obtain ⟨dusd, ltc, rfl⟩ := recordMatchedTrade_eq h
      exact hmove.2 m hm

end Positions

end NodeState

inductive PositionCall
  | contractDexAdd (senderAddr : Address) (prop : PropertyId) (amount block : Int)
      (txid idx effectivePrice tradingAction : Nat)
  | instantXTrade (tradingAction : Nat) (firstAddr secondAddr : Address) (property : PropertyId)
      (amountForsale : Int)

namespace PositionCall

def run (env : Environment) (s : NodeState) : PositionCall → Except Abort NodeState
  | contractDexAdd a p n block txid idx price action =>
    (s.contractDexAdd env a p n block txid idx price action).map Prod.snd
  | instantXTrade action first second p n => s.instantXTrade action first second p n

/-- Amounts and prices are positive, and an instant trade of something is between two parties. -/
def Proper : PositionCall → Prop
  | contractDexAdd _ _ n _ _ _ price _ => 0 < n ∧ 0 < price
  | instantXTrade _ first second _ n => first ≠ second ∧ n ≠ 0

def changes (s : NodeState) : PositionCall → List (Address → PropertyId → Int)
  | contractDexAdd a p n block txid idx price action =>
    (s.fills ⟨a, block, txid, idx, p, n, price, action⟩).map ContractDex.change
  | instantXTrade action first second p n =>
    [NodeState.instantChange first second p (if action = actionSell then -n else n)]

variable {s s' : NodeState} {call : PositionCall}

theorem positions_of_run (env : Environment) (hl : s.ledger.InRange)
    (heven : s.ledger.EvenPositions)
    (hproper : call.Proper) (hstays : s.ledger.StaysInt64 (call.changes s)) :
    Avoids Abort.IsTallyAssert (call.run env s) ∧
      ∀ s', call.run env s = .ok s' → s'.ledger.InRange ∧ s'.ledger.EvenPositions := by
  cases call with
  | contractDexAdd a p n block txid idx price action =>
    obtain ⟨havoids, hkept⟩ := NodeState.positions_of_meetAll hl heven hstays
    rw [run, NodeState.contractDexAdd_eq hproper.2]
    constructor
    · exact havoids.map.map
    · intro s' h
      obtain ⟨x, hx, rfl⟩ := exists_ok_of_map h
      obtain ⟨r, hr, rfl⟩ := exists_ok_of_map hx
      rw [NodeState.insertRest_ledger]
      exact hkept r hr
  | instantXTrade action first second p n =>
    exact NodeState.positions_of_instantXTrade hl heven hproper.1 hproper.2 hstays

end PositionCall

namespace NodeState

def runPositions (s : NodeState) (env : Environment) (calls : List PositionCall) :
    Except Abort NodeState :=
  calls.foldlM (fun s call => call.run env s) s

def StaysInt64 (s : NodeState) (env : Environment) : List PositionCall → Prop
  | [] => True
  | call :: calls => s.ledger.StaysInt64 (call.changes s) ∧
    ∀ s', call.run env s = .ok s' → s'.StaysInt64 env calls

variable {env : Environment} {s s' : NodeState} {calls : List PositionCall}

theorem positions_of_runPositions (hl : s.ledger.InRange) (heven : s.ledger.EvenPositions)
    (hcalls : ∀ call ∈ calls, call.Proper) (hstays : s.StaysInt64 env calls) :
    Avoids Abort.IsTallyAssert (s.runPositions env calls) ∧
      ∀ s', s.runPositions env calls = .ok s' → s'.ledger.EvenPositions := by
  induction calls generalizing s with
  | nil =>
    refine ⟨.ok, ?_⟩
    intro s' h
    cases h
    exact heven
  | cons call calls ih =>
    obtain ⟨hproper, hcalls⟩ := List.forall_mem_cons.mp hcalls
    obtain ⟨havoids, hkept⟩ := PositionCall.positions_of_run env hl heven hproper hstays.1
    rw [runPositions, List.foldlM_cons]
    constructor
    · apply havoids.bind
      intro m hm
      obtain ⟨hml, hmeven⟩ := hkept m hm
      exact (ih hml hmeven hcalls (hstays.2 m hm)).1
    · intro s' h
      obtain ⟨m, hm, h⟩ := bind_eq_ok.mp h
      obtain ⟨hml, hmeven⟩ := hkept m hm
      exact (ih hml hmeven hcalls (hstays.2 m hm)).2 s' h

theorem evenPositions_of_zero {l : Ledger}
    (h : ∀ a c, l.money a c .positiveBalance = 0 ∧ l.money a c .negativeBalance = 0) :
    l.EvenPositions := by
  constructor
  · intro a c
    exact .inl (h a c).1
  · intro c
    apply Ledger.supply_congr
    intro a
    rw [(h a c).1, (h a c).2]

theorem StaysInt64.of_append {done rest : List PositionCall}
    (h : s.StaysInt64 env (done ++ rest)) : s.StaysInt64 env done := by
  induction done generalizing s with
  | nil => trivial
  | cons call done ih => exact ⟨h.1, fun m hm => ih (h.2 m hm)⟩

/-- In every run of orders and instant trades from no positions, in which nothing but a position
update could stop the node and no position leaves the 64-bit range, no position update is refused
and the positions are balanced and one-sided after each call. -/
theorem evenPositions_of_runPositions (hl : s.ledger.InRange)
    (hzero : ∀ a c, s.ledger.money a c .positiveBalance = 0 ∧
      s.ledger.money a c .negativeBalance = 0)
    (hcalls : ∀ call ∈ calls, call.Proper) (hstays : s.StaysInt64 env calls)
    (hother : ∀ e, s.runPositions env calls = .error e → e.IsTallyAssert)
    {done : List PositionCall} (hdone : done <+: calls) :
    ∃ s', s.runPositions env done = .ok s' ∧
      (∀ c, s'.ledger.supply c .positiveBalance = s'.ledger.supply c .negativeBalance) ∧
      ∀ a c, ¬ (0 < s'.ledger.money a c .positiveBalance ∧
        0 < s'.ledger.money a c .negativeBalance) := by
  obtain ⟨rest, rfl⟩ := hdone
  obtain ⟨havoids, hkept⟩ := positions_of_runPositions hl (evenPositions_of_zero hzero)
    (fun call h => hcalls call (List.mem_append_left _ h)) hstays.of_append
  cases hrun : s.runPositions env done with
  | error e =>
    -- the calls that follow cannot undo a stop
    have hwhole : s.runPositions env (done ++ rest) = .error e := by
      rw [runPositions, List.foldlM_append]
      rw [runPositions] at hrun
      rw [hrun]
      rfl
    exact absurd (hother e hwhole) (havoids e hrun)
  | ok s' =>
    have heven := hkept s' hrun
    refine ⟨s', rfl, heven.balanced, ?_⟩
    intro a c hboth
    have hside := heven.oneSided a c
    omega

def sampleTerms (margin : Nat) : SPEntry :=
  { SPEntry.zero with
    propType := allPropertyTypeContract
    blocksUntilExpiration := 1000
    notionalSize := coin
    collateralCurrency := 3
    marginRequirement := margin }

def sampleMarket : NodeState :=
  { initial .test .zero with
    spInfo := { SPInfo.oneManaged ['i'] with
      entries := OrderedMap.set (SPInfo.oneManaged ['i']).entries 5 (sampleTerms coin)
      nextSpid := 6 } }

def sampleBid : NodeState :=
  { sampleMarket with contractdex := Book.file ∅ 5 7 ⟨['a'], 100, 1, 1, 5, 5, 7, actionBuy⟩ }

def sampleCrossing : List PositionCall :=
  [.instantXTrade actionSell ['a'] ['b'] 5 3, .contractDexAdd ['b'] 5 5 101 2 1 7 actionSell]

theorem money_sampleBid (a : Address) (c : PropertyId) (t : TallyType) :
    sampleBid.ledger.money a c t = 0 := money_initial .test .zero a c t

theorem staysInt64_sampleCrossing (hl : sampleBid.ledger.InRange) :
    sampleBid.StaysInt64 (.plain .test) sampleCrossing := by
  have hfirst : sampleBid.ledger.StaysInt64 [instantChange ['a'] ['b'] 5 (-3)] := by
    apply Ledger.staysInt64_singleton hl
    intro a c _
    rw [Ledger.position, money_sampleBid, money_sampleBid, instantChange]
    split_ifs <;> decide
  refine ⟨hfirst, fun m hm => ⟨?_, fun _ _ => trivial⟩⟩
  have hproper : (PositionCall.instantXTrade actionSell ['a'] ['b'] 5 3).Proper :=
    ⟨by decide, by decide⟩
  have heven := evenPositions_of_zero fun a c => ⟨money_sampleBid a c _, money_sampleBid a c _⟩
  obtain ⟨hml, -⟩ := (PositionCall.positions_of_run (.plain .test) hl heven hproper hfirst).2 m hm
  obtain ⟨m', hrun, hm'⟩ := exists_ok_of_map
    (g := fun m => (m.fills ⟨['b'], 101, 2, 1, 5, 5, 7, actionSell⟩,
      m.ledger.position ['a'] 5, m.ledger.position ['b'] 5))
    (x := PositionCall.run (.plain .test) sampleBid (.instantXTrade actionSell ['a'] ['b'] 5 3))
    (b := ([(⟨['b'], 101, 2, 1, 5, 5, 7, actionSell⟩, ⟨['a'], 100, 1, 1, 5, 5, 7, actionBuy⟩)],
      -3, 3)) (by decide +kernel)
  rw [hm] at hrun
  cases hrun
  simp only [Prod.mk.injEq] at hm'
  rw [PositionCall.changes, hm'.1]
  apply Ledger.staysInt64_singleton hml
  intro a c hk
  have hside : actionBuy ≠ actionSell := by decide
  simp only [ContractDex.change, ContractDex.nCouldBuy, ContractDex.buyer, ContractDex.seller,
    if_neg hside, min_self] at hk ⊢
  split_ifs at hk ⊢ with hc hbuyer hseller hseller
  · cases hbuyer.trans hseller.symm
  · rw [← hbuyer, ← hc.1, hm'.2.1]
    decide
  · rw [← hseller, ← hc.1, hm'.2.2]
    decide
  · exact absurd rfl hk
  · exact absurd rfl hk

/-- A seller and a buyer of an instant trade, who have a short and a long position then, trade the
other way round on the market, and both positions change their sides. -/
theorem evenPositions_of_sampleCrossing :
    ∃ s', sampleBid.runPositions (.plain .test) sampleCrossing = .ok s' ∧
      (s'.ledger.position ['a'] 5, s'.ledger.position ['b'] 5) = (2, -2) ∧
      s'.ledger.supply 5 .positiveBalance = s'.ledger.supply 5 .negativeBalance := by
  obtain ⟨m, hrun, hpositions⟩ := exists_ok_of_map
    (g := fun s => (s.ledger.position ['a'] 5, s.ledger.position ['b'] 5))
    (x := sampleBid.runPositions (.plain .test) sampleCrossing) (b := (2, -2)) (by decide +kernel)
  have hl : sampleBid.ledger.InRange := by
    intro a c t _
    rw [money_sampleBid]
    decide
  have hproper : ∀ call ∈ sampleCrossing, call.Proper := by
    intro call hcall
    rcases List.mem_pair.mp hcall with rfl | rfl
    · exact ⟨by decide, by decide⟩
    · exact ⟨by decide, by decide⟩
  obtain ⟨s', hs', hbalanced, -⟩ := evenPositions_of_runPositions hl
    (fun a c => ⟨money_sampleBid a c _, money_sampleBid a c _⟩) hproper
    (staysInt64_sampleCrossing hl) (fun e he => by rw [hrun] at he; cases he) List.prefix_rfl
  rw [hrun] at hs'
  cases hs'
  exact ⟨m, hrun, hpositions, hbalanced 5⟩

end NodeState

end TradeLayer
