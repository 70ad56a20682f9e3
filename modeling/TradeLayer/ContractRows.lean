import TradeLayer.ContractSides

namespace TradeLayer
open Library

inductive PositionStatus
  | empty
  | emptyStr
  | openLongPosition
  | longPosIncreased
  | longPosNetted
  | longPosNettedPartly
  | openShortPosition
  | shortPosIncreased
  | shortPosNetted
  | shortPosNettedPartly
  | openLongPosByShortPosNetted
  | openShortPosByLongPosNetted
  deriving DecidableEq

structure Holding where
  positive : Int
  negative : Int
  deriving DecidableEq

namespace Holding

def status (before after : Holding) : PositionStatus :=
  if 0 < before.positive ∧ before.negative = 0 then
    if after.positive < before.positive ∧ after.positive ≠ 0 then .longPosNettedPartly
    else if after.positive = 0 ∧ after.negative = 0 then .longPosNetted
    else if after.positive = 0 ∧ 0 < after.negative then .openShortPosByLongPosNetted
    else .longPosIncreased
  else if 0 < before.negative ∧ before.positive = 0 then
    if after.negative < before.negative ∧ after.negative ≠ 0 then .shortPosNettedPartly
    else if after.negative = 0 ∧ after.positive = 0 then .shortPosNetted
    else if after.negative = 0 ∧ 0 < after.positive then .openLongPosByShortPosNetted
    else .shortPosIncreased
  else if before.negative = 0 ∧ before.positive = 0 then
    if 0 < after.positive then .openLongPosition else .openShortPosition
  else .empty

def livesMaker (h : Holding) : Int :=
  if 0 < h.positive ∧ h.negative = 0 then h.positive
  else if 0 < h.negative ∧ h.positive = 0 then h.negative
  else 0

def livesTaker (h : Holding) : Int :=
  if h.positive ≠ 0 ∧ h.negative = 0 then h.positive
  else if 0 < h.negative ∧ h.positive = 0 then h.negative
  else 0

end Holding

def Ledger.holding (l : Ledger) (who : Address) (c : PropertyId) : Holding :=
  ⟨l.getTokenBalance who c .positiveBalance, l.getTokenBalance who c .negativeBalance⟩

structure SplitRow where
  statusSeller : PositionStatus
  statusBuyer : PositionStatus
  livesSeller : Int
  livesBuyer : Int
  nCouldBuy : Int

structure Split where
  first : SplitRow
  second : SplitRow
  third : Option SplitRow

/-- The split of a match in which both parties turn their positions. -/
def bothTurnSplit (sell buy : Holding) (n : Int) : Option Split :=
  let opened := sell.positive - buy.negative
  let opened' := buy.negative - sell.positive
  if buy.negative < sell.positive then
    some ⟨⟨.longPosNettedPartly, .shortPosNetted, opened, 0, buy.negative⟩,
      ⟨.longPosNetted, .openLongPosition, 0, opened, opened⟩,
      some ⟨.openShortPosition, .longPosIncreased, n - sell.positive,
        opened + (n - sell.positive), n - sell.positive⟩⟩
  else if sell.positive < buy.negative then
    some ⟨⟨.longPosNetted, .shortPosNettedPartly, 0, opened', sell.positive⟩,
      ⟨.openShortPosition, .shortPosNetted, opened', 0, opened'⟩,
      some ⟨.shortPosIncreased, .openLongPosition, opened' + (n - buy.negative),
        n - buy.negative, n - buy.negative⟩⟩
  else
    some ⟨⟨.longPosNetted, .shortPosNetted, 0, 0, sell.positive⟩,
      ⟨.openShortPosition, .openLongPosition, n - sell.positive, n - sell.positive,
        n - sell.positive⟩, none⟩

/-- The split of a match in which the seller opens a short position after its long one, for the
status of the buyer. -/
def openShortSplit (sell buy : Holding) (n : Int) : PositionStatus → Option Split
  | .openLongPosByShortPosNetted => bothTurnSplit sell buy n
  | .shortPosNettedPartly =>
    let held := buy.negative - sell.positive
    let opened := n - sell.positive
    some ⟨⟨.longPosNetted, .shortPosNettedPartly, 0, held, sell.positive⟩,
      ⟨.openShortPosition, .shortPosNettedPartly, opened, held - opened, opened⟩, none⟩
  | .shortPosNetted =>
    let held := buy.negative - sell.positive
    let opened := n - sell.positive
    some ⟨⟨.longPosNetted, .shortPosNettedPartly, 0, held, sell.positive⟩,
      ⟨.openShortPosition, .shortPosNetted, opened, 0, opened⟩, none⟩
  | .openLongPosition =>
    let opened := n - sell.positive
    some ⟨⟨.longPosNetted, .openLongPosition, 0, sell.positive, sell.positive⟩,
      ⟨.openShortPosition, .longPosIncreased, opened, sell.positive + opened, opened⟩, none⟩
  | .longPosIncreased =>
    let held := buy.positive + sell.positive
    let opened := n - sell.positive
    some ⟨⟨.longPosNetted, .longPosIncreased, 0, held, sell.positive⟩,
      ⟨.openShortPosition, .longPosIncreased, opened, held + opened, opened⟩, none⟩
  | _ => none

/-- The split of a match in which the buyer opens a long position after its short one, for the
status of the seller. -/
def openLongSplit (sell buy : Holding) (n : Int) : PositionStatus → Option Split
  | .openShortPosByLongPosNetted => bothTurnSplit sell buy n
  | .longPosNettedPartly =>
    let held := sell.positive - buy.negative
    let opened := n - buy.negative
    some ⟨⟨.longPosNettedPartly, .shortPosNetted, held, 0, buy.negative⟩,
      ⟨.longPosNettedPartly, .openLongPosition, held - opened, opened, opened⟩, none⟩
  | .longPosNetted =>
    let held := sell.positive - buy.negative
    let opened := n - buy.negative
    some ⟨⟨.longPosNettedPartly, .shortPosNetted, held, 0, buy.negative⟩,
      ⟨.longPosNetted, .openLongPosition, 0, opened, opened⟩, none⟩
  | .openShortPosition =>
    let opened := n - buy.negative
    some ⟨⟨.openShortPosition, .shortPosNetted, buy.negative, 0, buy.negative⟩,
      ⟨.shortPosIncreased, .openLongPosition, buy.negative + opened, opened, opened⟩, none⟩
  | .shortPosIncreased =>
    let held := sell.negative + buy.negative
    let opened := n - buy.negative
    some ⟨⟨.shortPosIncreased, .shortPosNetted, held, 0, buy.negative⟩,
      ⟨.shortPosIncreased, .openLongPosition, held + opened, opened, opened⟩, none⟩
  | _ => none

/-- The same split where the buyer is the taker. When the maker turns a smaller long position, the
first row takes what the taker is left with for what is traded. -/
def takerOpenLongSplit (sell buy : Holding) (n : Int) (maker : PositionStatus) : Option Split :=
  let opened := buy.negative - sell.positive
  if maker = .openShortPosByLongPosNetted ∧ sell.positive < buy.negative then
    some ⟨⟨.longPosNetted, .shortPosNettedPartly, 0, opened, opened⟩,
      ⟨.openShortPosition, .shortPosNetted, opened, 0, opened⟩,
      some ⟨.shortPosIncreased, .openLongPosition, opened + (n - buy.negative),
        n - buy.negative, n - buy.negative⟩⟩
  else openLongSplit sell buy n maker

/-- A row of the record of a match before its statuses are told apart by maker and taker. -/
structure MatchRow where
  statusS : PositionStatus := .emptyStr
  statusB : PositionStatus := .emptyStr
  livesMaker : Int := 0
  livesTaker : Int := 0
  nCouldBuy : Int := 0

def SplitRow.makerSells (r : SplitRow) : MatchRow :=
  ⟨r.statusSeller, r.statusBuyer, r.livesSeller, r.livesBuyer, r.nCouldBuy⟩

def SplitRow.makerBuys (r : SplitRow) : MatchRow :=
  ⟨r.statusSeller, r.statusBuyer, r.livesBuyer, r.livesSeller, r.nCouldBuy⟩

structure MatchRows where
  row1 : MatchRow := {}
  row2 : MatchRow := {}
  row3 : MatchRow := {}

def MatchRows.put (rows : MatchRows) (row : SplitRow → MatchRow) : Option Split → MatchRows
  | none => rows
  | some x => ⟨row x.first, row x.second, (x.third.map row).getD rows.row3⟩

/-- The four blocks that split a match, of which two apply to each action of the maker. -/
def matchRows (action : Nat) (statusMaker statusTaker : PositionStatus) (sell buy : Holding)
    (n : Int) : MatchRows :=
  let rows : MatchRows :=
    if action = actionSell then
      if statusMaker = .openShortPosByLongPosNetted then
        ({} : MatchRows).put SplitRow.makerSells (openShortSplit sell buy n statusTaker)
      else {}
    else if statusMaker = .openLongPosByShortPosNetted then
      ({} : MatchRows).put SplitRow.makerBuys (openLongSplit sell buy n statusTaker)
    else {}
  if action = actionBuy then
    if statusTaker = .openShortPosByLongPosNetted then
      rows.put SplitRow.makerBuys (openShortSplit sell buy n statusMaker)
    else rows
  else if statusTaker = .openLongPosByShortPosNetted then
    rows.put SplitRow.makerSells (takerOpenLongSplit sell buy n statusMaker)
  else rows

structure RecordedRow where
  statusMaker : PositionStatus
  statusTaker : PositionStatus
  livesMaker : Int
  livesTaker : Int
  nCouldBuy : Int

structure RecordedRows where
  row0 : RecordedRow
  row1 : RecordedRow
  row2 : RecordedRow
  row3 : RecordedRow

namespace ContractDex

/-- The status of the seller, from its position before a match and that of the owner of the old
order or of the new one after it. -/
def statusS (l l' : Ledger) (pnew pold : ContractDex) : PositionStatus :=
  (l.holding (seller pnew pold).addr pold.property).status
    (if pold.tradingAction = actionSell then l'.holding pold.addr pold.property
      else l'.holding pnew.addr pold.property)

def statusB (l l' : Ledger) (pnew pold : ContractDex) : PositionStatus :=
  (l.holding (buyer pnew pold).addr pold.property).status
    (if pold.tradingAction = actionBuy then l'.holding pold.addr pold.property
      else l'.holding pnew.addr pold.property)

/-- What is recorded of a match that turns the positions of one ledger into those of another. -/
def recordedRows (l l' : Ledger) (pnew pold : ContractDex) : RecordedRows :=
  let n := nCouldBuy pnew pold
  let sell := l.holding (seller pnew pold).addr pold.property
  let buy := l.holding (buyer pnew pold).addr pold.property
  let crepl := l'.holding pold.addr pold.property
  let pnewL := l'.holding pnew.addr pold.property
  let statusS := statusS l l' pnew pold
  let statusB := statusB l l' pnew pold
  let makerSells := pold.addr = (seller pnew pold).addr
  let statusMaker := if makerSells then statusS else statusB
  let statusTaker := if makerSells then statusB else statusS
  let rows := matchRows pold.tradingAction statusMaker statusTaker sell buy n
  let record (r : MatchRow) : RecordedRow :=
    ⟨if makerSells then r.statusS else r.statusB, if makerSells then r.statusB else r.statusS,
      r.livesMaker, r.livesTaker, r.nCouldBuy⟩
  ⟨⟨statusMaker, statusTaker, crepl.livesMaker, pnewL.livesTaker, n⟩, record rows.row1,
    record rows.row2, record rows.row3⟩

end ContractDex

end TradeLayer
