import TradeLayer.ContractRowSums

namespace TradeLayer
open Library

namespace RecordedRows

/-- The lives of the maker and of the taker after each row of a split, and what is traded in it. -/
def numbers (r : RecordedRows) : List (Int × Int × Int) :=
  [r.row1, r.row2, r.row3].map fun row => (row.livesMaker, row.livesTaker, row.nCouldBuy)

/-- The rows of a split add up to the match, no lives are negative, and from row to row the lives
change by what is traded, from the sizes of the positions before the match to those after it. -/
structure Consistent (r : RecordedRows) (maker taker maker' taker' : Holding) : Prop where
  whole : 0 ≤ r.row0.livesMaker ∧ 0 ≤ r.row0.livesTaker
  rows : RowsConsistent r.numbers r.row0.nCouldBuy maker.size taker.size maker'.size taker'.size

theorem consistent_iff {r : RecordedRows} {maker taker maker' taker' : Holding}
    (hwhole : 0 ≤ r.row0.livesMaker ∧ 0 ≤ r.row0.livesTaker) :
    r.Consistent maker taker maker' taker' ↔ RowsConsistent r.numbers r.row0.nCouldBuy maker.size
      taker.size maker'.size taker'.size :=
  ⟨fun h => h.rows, fun h => ⟨hwhole, h⟩⟩

end RecordedRows

theorem Holding.lives_nonneg {h : Holding} (hp : 0 ≤ h.positive) :
    0 ≤ h.livesMaker ∧ 0 ≤ h.livesTaker := by
  rw [livesMaker, livesTaker]
  split_ifs <;> omega

theorem Ledger.Nonneg.lives {l : Ledger} (hl : l.Nonneg) (a : Address) (c : PropertyId) :
    0 ≤ (l.holding a c).livesMaker ∧ 0 ≤ (l.holding a c).livesTaker :=
  Holding.lives_nonneg (hl a c .positiveBalance (by decide))

namespace ContractDex

variable {pold : ContractDex} {rows : MatchRows}

theorem recordedRows_of_sell (l l' : Ledger) (pnew : ContractDex)
    (hold : pold.tradingAction = actionSell)
    (hrows : matchRows actionSell
      ((l.holding pold.addr pold.property).status (l'.holding pold.addr pold.property))
      ((l.holding pnew.addr pold.property).status (l'.holding pnew.addr pold.property))
      (l.holding pold.addr pold.property) (l.holding pnew.addr pold.property)
      (nCouldBuy pnew pold) = rows) :
    (recordedRows l l' pnew pold).numbers = rows.numbers ∧
      (recordedRows l l' pnew pold).row1.nCouldBuy = rows.row1.nCouldBuy := by
  have hne : ¬ actionSell = actionBuy := by decide
  subst hrows
  constructor
  · simp only [RecordedRows.numbers, recordedRows, statusS, statusB, seller, buyer, hold, if_true,
      if_neg hne]
    rfl
  · simp only [recordedRows, statusS, statusB, seller, buyer, hold, if_true, if_neg hne]

theorem recordedRows_of_buy (l l' : Ledger) {pnew : ContractDex}
    (hold : pold.tradingAction = actionBuy) (haddr : pold.addr ≠ pnew.addr)
    (hrows : matchRows actionBuy
      ((l.holding pold.addr pold.property).status (l'.holding pold.addr pold.property))
      ((l.holding pnew.addr pold.property).status (l'.holding pnew.addr pold.property))
      (l.holding pnew.addr pold.property) (l.holding pold.addr pold.property)
      (nCouldBuy pnew pold) = rows) :
    (recordedRows l l' pnew pold).numbers = rows.numbers ∧
      (recordedRows l l' pnew pold).row1.nCouldBuy = rows.row1.nCouldBuy := by
  have hne : ¬ actionBuy = actionSell := by decide
  subst hrows
  constructor
  · simp only [RecordedRows.numbers, recordedRows, statusS, statusB, seller, buyer, hold, if_true,
      if_neg hne, if_neg haddr]
    rfl
  · simp only [recordedRows, statusS, statusB, seller, buyer, hold, if_true, if_neg hne,
      if_neg haddr]

end ContractDex

namespace NodeState

variable {s m : NodeState} {pnew pold : ContractDex}

theorem holding_of_matchPostings (hl : s.ledger.Nonneg)
    (hn : 0 ≤ pnew.nCouldBuy pold) (haddr : pold.addr ≠ pnew.addr)
    (h : s.assertTallies (matchPostings s.ledger pnew pold) = .ok m) :
    m.ledger.holding (pnew.seller pold).addr pold.property =
        (s.ledger.holding (pnew.seller pold).addr pold.property).sell
          (pnew.nCouldBuy pold) ∧
      m.ledger.holding (pnew.buyer pold).addr pold.property =
        (s.ledger.holding (pnew.buyer pold).addr pold.property).buy
          (pnew.nCouldBuy pold) := by
  have hne := ContractDex.seller_ne_buyer haddr
  have hmoney := (posted_of_assertTallies h).2.money_eq
  constructor
  · simp only [Ledger.holding, Ledger.getTokenBalance, hmoney, net_matchPostings hl hn haddr]
    simp [hne.symm, Holding.sell, sellerNetted, netted, sub_eq_add_neg]
  · simp only [Ledger.holding, Ledger.getTokenBalance, hmoney, net_matchPostings hl hn haddr]
    simp [hne, Holding.buy, buyerNetted, netted, sub_eq_add_neg]

/-- For a maker that sells, the rows that a match records are consistent unless the maker is long
by less than the taker is short, the match turns both positions, and the taker is not short by
just twice as much; for a maker that buys they always are. -/
theorem recordedRows_consistent_iff (hl : s.ledger.Nonneg)
    (hmaker : (s.ledger.holding pold.addr pold.property).OneSided)
    (htaker : (s.ledger.holding pnew.addr pold.property).OneSided)
    (hopp : pnew.Opposite pold) (hn : 0 < pnew.nCouldBuy pold)
    (h : s.assertTallies (matchPostings s.ledger pnew pold) = .ok m) :
    (0 < (ContractDex.recordedRows s.ledger m.ledger pnew pold).row1.nCouldBuy →
        (ContractDex.recordedRows s.ledger m.ledger pnew pold).Consistent
          (s.ledger.holding pold.addr pold.property) (s.ledger.holding pnew.addr pold.property)
          (m.ledger.holding pold.addr pold.property)
          (m.ledger.holding pnew.addr pold.property)) ↔
      ¬ (pold.tradingAction = actionSell ∧
        Split.TurnsSmaller (s.ledger.holding pold.addr pold.property)
          (s.ledger.holding pnew.addr pold.property) (pnew.nCouldBuy pold) ∧
        (s.ledger.holding pnew.addr pold.property).negative ≠
          2 * (s.ledger.holding pold.addr pold.property).positive) := by
  obtain ⟨haddr, hsides⟩ := hopp
  obtain ⟨hsell, hbuy⟩ := holding_of_matchPostings hl hn.le haddr.symm h
  have hnonneg := (posted_of_assertTallies h).2.nonneg hl
  have hwhole : 0 ≤ (m.ledger.holding pold.addr pold.property).livesMaker ∧
      0 ≤ (m.ledger.holding pnew.addr pold.property).livesTaker :=
    ⟨(hnonneg.lives _ _).1, (hnonneg.lives _ _).2⟩
  rw [RecordedRows.consistent_iff hwhole]
  rcases hsides with ⟨-, hold⟩ | ⟨-, hold⟩
  · rw [ContractDex.seller, if_pos hold] at hsell
    rw [ContractDex.buyer, if_pos hold] at hbuy
    obtain ⟨hnumbers, hfirst⟩ := ContractDex.recordedRows_of_sell s.ledger m.ledger pnew hold rfl
    rw [hnumbers, hfirst, hsell, hbuy]
    simp only [hold, true_and]
    exact MatchRows.rowsConsistent_sell_iff hmaker htaker hn
  · have hne : ¬ pold.tradingAction = actionSell := by
      rw [hold]
      decide
    rw [ContractDex.seller, if_neg hne] at hsell
    rw [ContractDex.buyer, if_neg hne] at hbuy
    obtain ⟨hnumbers, hfirst⟩ :=
      ContractDex.recordedRows_of_buy s.ledger m.ledger hold haddr.symm rfl
    rw [hnumbers, hfirst, hsell, hbuy]
    simp only [hne, false_and, not_false_eq_true, iff_true]
    exact MatchRows.rowsConsistent_buy htaker hmaker hn

def samplePositions : NodeState :=
  { sampleMarket with
    ledger := .ofPostings [⟨⟨['a'], 5, .positiveBalance⟩, 1⟩, ⟨⟨['b'], 5, .negativeBalance⟩, 3⟩,
      ⟨⟨['c'], 5, .positiveBalance⟩, 2⟩] }

def sampleLongMaker (n : Int) : ContractDex :=
  ⟨['a'], 100, 1, 1, 5, n, 7, actionSell⟩

def sampleShortTaker (n : Int) : ContractDex :=
  ⟨['b'], 101, 2, 1, 5, n, 7, actionBuy⟩

theorem nonneg_samplePositions : samplePositions.ledger.Nonneg :=
  fun a p t ht => (Ledger.inRange_ofPostings a p t ht).1

theorem oneSided_samplePositions : (samplePositions.ledger.holding ['a'] 5).OneSided ∧
    (samplePositions.ledger.holding ['b'] 5).OneSided :=
  ⟨⟨by decide +kernel, by decide +kernel, .inr (by decide +kernel)⟩,
    ⟨by decide +kernel, by decide +kernel, .inl (by decide +kernel)⟩⟩

def sampleTurn (n : Int) : Except Abort NodeState :=
  samplePositions.assertTallies
    (matchPostings samplePositions.ledger (sampleShortTaker n) (sampleLongMaker n))

def sampleRows (n : Int) (m : NodeState) : RecordedRows :=
  ContractDex.recordedRows samplePositions.ledger m.ledger (sampleShortTaker n) (sampleLongMaker n)

/-- A match of two contracts turns the position of the maker, and its rows are right. -/
theorem recordedRows_consistent_of_samplePositions :
    ∃ m, sampleTurn 2 = .ok m ∧ (sampleRows 2 m).numbers = [(0, 2, 1), (1, 1, 1), (0, 0, 0)] ∧
      (sampleRows 2 m).Consistent
        (samplePositions.ledger.holding ['a'] 5) (samplePositions.ledger.holding ['b'] 5)
        (m.ledger.holding ['a'] 5) (m.ledger.holding ['b'] 5) := by
  obtain ⟨m, hm, hnumbers⟩ := exists_ok_of_map (g := fun m => (sampleRows 2 m).numbers)
    (x := sampleTurn 2) (b := [(0, 2, 1), (1, 1, 1), (0, 0, 0)]) (by decide +kernel)
  have hfirst : (sampleRows 2 m).row1.nCouldBuy = 1 :=
    congrArg (fun x => x.2.2) (List.cons.inj hnumbers).1
  refine ⟨m, hm, hnumbers, ?_⟩
  refine (recordedRows_consistent_iff nonneg_samplePositions oneSided_samplePositions.1
    oneSided_samplePositions.2 ⟨by decide, .inl ⟨rfl, rfl⟩⟩ (by decide) hm).mpr ?_ ?_
  · rintro ⟨-, ⟨-, hlt⟩, -⟩
    exact absurd hlt (by decide +kernel)
  · change 0 < (sampleRows 2 m).row1.nCouldBuy
    rw [hfirst]
    decide

/-- A match of ten contracts that turns a long position of one and a short position of three is
recorded in rows of two, two and seven. -/
theorem inconsistent_of_samplePositions :
    ∃ m, sampleTurn 10 = .ok m ∧ (sampleRows 10 m).numbers = [(0, 2, 2), (2, 0, 2), (9, 7, 7)] ∧
      ¬ (sampleRows 10 m).Consistent
        (samplePositions.ledger.holding ['a'] 5) (samplePositions.ledger.holding ['b'] 5)
        (m.ledger.holding ['a'] 5) (m.ledger.holding ['b'] 5) := by
  obtain ⟨m, hm, hnumbers⟩ := exists_ok_of_map (g := fun m => (sampleRows 10 m).numbers)
    (x := sampleTurn 10) (b := [(0, 2, 2), (2, 0, 2), (9, 7, 7)]) (by decide +kernel)
  refine ⟨m, hm, hnumbers, ?_⟩
  intro hcons
  have hsum := hcons.rows.sum
  have hten : (sampleRows 10 m).row0.nCouldBuy = 10 := rfl
  rw [hnumbers, hten] at hsum
  exact absurd hsum (by decide)

end NodeState

def setPosition (positive negative : Int) : Int :=
  if 0 < positive ∧ negative = 0 then positive
  else if positive = 0 ∧ 0 < negative then -negative
  else 0

def updateStatus (oldPos newPos : Int) : Option PositionStatus :=
  if oldPos = 0 ∧ 0 < newPos then some .openLongPosition
  else if oldPos = 0 ∧ newPos < 0 then some .openShortPosition
  else if newPos < oldPos ∧ 0 < oldPos ∧ 0 < newPos then some .longPosNettedPartly
  else if oldPos < newPos ∧ oldPos < 0 ∧ newPos < 0 then some .shortPosNettedPartly
  else if oldPos < newPos ∧ 0 < oldPos ∧ 0 < newPos then some .longPosIncreased
  else if newPos < oldPos ∧ oldPos < 0 ∧ newPos < 0 then some .shortPosIncreased
  else if newPos = 0 ∧ 0 < oldPos then some .longPosNetted
  else if newPos = 0 ∧ oldPos < 0 then some .shortPosNetted
  else if 0 < newPos ∧ oldPos < 0 then some .openLongPosByShortPosNetted
  else if newPos < 0 ∧ 0 < oldPos then some .openShortPosByLongPosNetted
  else none

namespace Holding

variable {h : Holding} {n : Int}

def signed (h : Holding) : Int := setPosition h.positive h.negative

theorem signed_eq (hh : h.OneSided) : h.signed = h.positive - h.negative := by
  obtain ⟨hp, hq, hside⟩ := hh
  rw [signed, setPosition]
  split_ifs <;> omega

theorem signed_sell (hh : h.OneSided) (hn : 0 < n) : (h.sell n).signed = h.signed - n := by
  have hafter : (h.sell n).OneSided := by
    obtain ⟨hp, hq, hside⟩ := hh
    constructor
    all_goals dsimp only [sell]
    all_goals omega
  rw [signed_eq hafter, signed_eq hh, sell]
  dsimp only
  omega

theorem signed_buy (hh : h.OneSided) (hn : 0 < n) : (h.buy n).signed = h.signed + n := by
  have hafter : (h.buy n).OneSided := by
    obtain ⟨hp, hq, hside⟩ := hh
    constructor
    all_goals dsimp only [buy]
    all_goals omega
  rw [signed_eq hafter, signed_eq hh, buy]
  dsimp only
  omega

theorem updateStatus_sell (hh : h.OneSided) (hn : 0 < n) :
    updateStatus h.signed (h.sell n).signed = some (h.status (h.sell n)) := by
  rw [signed_sell hh hn, signed_eq hh, status_sell hh hn]
  obtain ⟨hp, hq, hside⟩ := hh
  grind [updateStatus]

theorem updateStatus_buy (hh : h.OneSided) (hn : 0 < n) :
    updateStatus h.signed (h.buy n).signed = some (h.status (h.buy n)) := by
  rw [signed_buy hh hn, signed_eq hh, status_buy hh hn]
  obtain ⟨hp, hq, hside⟩ := hh
  grind [updateStatus]

end Holding

namespace ContractDex

variable {l l' : Ledger} {pnew pold : ContractDex}

theorem statusS_eq :
    statusS l l' pnew pold = (l.holding (seller pnew pold).addr pold.property).status
      (l'.holding (seller pnew pold).addr pold.property) := by
  rw [statusS, seller]
  split_ifs <;> rfl

theorem statusB_eq (haction : pold.tradingAction = actionBuy ∨ pold.tradingAction = actionSell) :
    statusB l l' pnew pold = (l.holding (buyer pnew pold).addr pold.property).status
      (l'.holding (buyer pnew pold).addr pold.property) := by
  have hne : actionBuy ≠ actionSell := by decide
  rw [statusB, buyer]
  rcases haction with haction | haction
  · rw [if_pos haction, if_neg (haction.trans_ne hne)]
  · rw [if_neg (haction.trans_ne hne.symm), if_pos haction]

end ContractDex

namespace NodeState

variable {s m : NodeState} {pnew pold : ContractDex}

/-- Every match of two addresses that are each on one side gives both of them the status that
their signed positions before and after it have. -/
theorem statuses_eq_updateStatus (hl : s.ledger.Nonneg)
    (hseller : (s.ledger.holding (pnew.seller pold).addr pold.property).OneSided)
    (hbuyer : (s.ledger.holding (pnew.buyer pold).addr pold.property).OneSided)
    (haddr : pold.addr ≠ pnew.addr)
    (haction : pold.tradingAction = actionBuy ∨ pold.tradingAction = actionSell)
    (hn : 0 < pnew.nCouldBuy pold)
    (h : s.assertTallies (matchPostings s.ledger pnew pold) = .ok m) :
    some (ContractDex.statusS s.ledger m.ledger pnew pold) = updateStatus
        (s.ledger.holding (pnew.seller pold).addr pold.property).signed
        (m.ledger.holding (pnew.seller pold).addr pold.property).signed ∧
      some (ContractDex.statusB s.ledger m.ledger pnew pold) = updateStatus
        (s.ledger.holding (pnew.buyer pold).addr pold.property).signed
        (m.ledger.holding (pnew.buyer pold).addr pold.property).signed ∧
      ContractDex.statusS s.ledger m.ledger pnew pold ≠ .empty ∧
      ContractDex.statusB s.ledger m.ledger pnew pold ≠ .empty := by
  obtain ⟨hsell, hbuy⟩ := holding_of_matchPostings hl hn.le haddr h
  rw [ContractDex.statusS_eq, ContractDex.statusB_eq haction, hsell, hbuy,
    Holding.updateStatus_sell hseller hn, Holding.updateStatus_buy hbuyer hn]
  refine ⟨rfl, rfl, ?_, ?_⟩
  · rw [Holding.status_sell hseller hn]
    split_ifs <;> decide
  · rw [Holding.status_buy hbuyer hn]
    split_ifs <;> decide

/-- A long position of one is turned, and a short one of three netted in part. -/
theorem statuses_of_samplePositions :
    ∃ m, sampleTurn 2 = .ok m ∧
      (ContractDex.statusS samplePositions.ledger m.ledger (sampleShortTaker 2)
          (sampleLongMaker 2) = .openShortPosByLongPosNetted ∧
        ContractDex.statusB samplePositions.ledger m.ledger (sampleShortTaker 2)
          (sampleLongMaker 2) = .shortPosNettedPartly) ∧
      updateStatus (samplePositions.ledger.holding ['a'] 5).signed
        (m.ledger.holding ['a'] 5).signed = some .openShortPosByLongPosNetted := by
  obtain ⟨m, hm, hstatuses⟩ := exists_ok_of_map
    (g := fun m => (ContractDex.statusS samplePositions.ledger m.ledger (sampleShortTaker 2)
        (sampleLongMaker 2),
      ContractDex.statusB samplePositions.ledger m.ledger (sampleShortTaker 2)
        (sampleLongMaker 2)))
    (x := sampleTurn 2) (b := (.openShortPosByLongPosNetted, .shortPosNettedPartly))
    (by decide +kernel)
  rw [Prod.mk.injEq] at hstatuses
  refine ⟨m, hm, hstatuses, ?_⟩
  rw [← hstatuses.1]
  refine (statuses_eq_updateStatus nonneg_samplePositions ?_ ?_ ?_ ?_ ?_ hm).1.symm
  · exact oneSided_samplePositions.1
  · exact oneSided_samplePositions.2
  · decide
  · exact .inr rfl
  · decide

end NodeState

end TradeLayer
