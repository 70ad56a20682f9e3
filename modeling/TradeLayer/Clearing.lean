import TradeLayer.ContractRows
import TradeLayer.Library.Text

namespace TradeLayer
open Library

def PositionStatus.text : PositionStatus → List Char
  | empty => "Empty".toList
  | emptyStr => "EmptyStr".toList
  | openLongPosition => "OpenLongPosition".toList
  | longPosIncreased => "LongPosIncreased".toList
  | longPosNetted => "LongPosNetted".toList
  | longPosNettedPartly => "LongPosNettedPartly".toList
  | openShortPosition => "OpenShortPosition".toList
  | shortPosIncreased => "ShortPosIncreased".toList
  | shortPosNetted => "ShortPosNetted".toList
  | shortPosNettedPartly => "ShortPosNettedPartly".toList
  | openLongPosByShortPosNetted => "OpenLongPosByShortPosNetted".toList
  | openShortPosByLongPosNetted => "OpenShortPosByLongPosNetted".toList

/-- The side that the settlement tracks; the source numbers them 0 and 1. -/
inductive Side
  | long
  | short
  deriving DecidableEq

def statusOpenIncr : Side → List PositionStatus
  | .long => [.openLongPosition, .longPosIncreased]
  | .short => [.openShortPosition, .shortPosIncreased]

def statusNettedNpartly : Side → List PositionStatus
  | .long => [.longPosNetted, .longPosNettedPartly]
  | .short => [.shortPosNetted, .shortPosNettedPartly]

/-- A row of the table of trades. Its last two columns count what is left of the traded amount for
either address. The price stays a text. -/
structure TradeRow where
  addrs0 : Address
  status0 : PositionStatus
  lives0 : Int
  addrs1 : Address
  status1 : PositionStatus
  lives1 : Int
  amountTrd : Int
  matchedPrice : List Char
  nlives0 : Int
  nlives1 : Int
  deriving DecidableEq

/-- The cells of a row as texts, in which an address is looked for. -/
def TradeRow.cells (r : TradeRow) : List (List Char) :=
  [r.addrs0, r.status0.text, integerText r.lives0, r.addrs1, r.status1.text,
    integerText r.lives1, integerText r.amountTrd, r.matchedPrice, integerText r.nlives0,
    integerText r.nlives1]

structure StatusAmounts where
  addrsSrc : Address
  statusSrc : PositionStatus
  addrsTrk : Address
  statusTrk : PositionStatus
  livesSrc : Int
  livesTrk : Int
  amountTrd : Int
  nlivesSrc : Int
  nlivesTrk : Int
  matchedPrice : List Char

def TradeRow.trackFirst (r : TradeRow) : StatusAmounts where
  addrsTrk := r.addrs0
  statusTrk := r.status0
  livesTrk := r.lives0
  addrsSrc := r.addrs1
  statusSrc := r.status1
  livesSrc := r.lives1
  nlivesTrk := r.nlives0
  nlivesSrc := r.nlives1
  amountTrd := r.amountTrd
  matchedPrice := r.matchedPrice

def TradeRow.trackSecond (r : TradeRow) : StatusAmounts where
  addrsSrc := r.addrs0
  statusSrc := r.status0
  livesSrc := r.lives0
  addrsTrk := r.addrs1
  statusTrk := r.status1
  livesTrk := r.lives1
  nlivesSrc := r.nlives0
  nlivesTrk := r.nlives1
  amountTrd := r.amountTrd
  matchedPrice := r.matchedPrice

def getStatusAmountsOpenIncr (v : TradeRow) (q : Side) : StatusAmounts :=
  if v.status0 ∈ statusOpenIncr q then v.trackFirst else v.trackSecond

def getStatusAmountsByaddrs (v : TradeRow) (addrs : Address) : StatusAmounts :=
  if addrs = v.addrs0 then v.trackFirst else v.trackSecond

structure Edge where
  addrsSrc : Address
  addrsTrk : Address
  statusSrc : PositionStatus
  statusTrk : PositionStatus
  entryPrice : List Char
  exitPrice : List Char
  livesSrc : Int
  livesTrk : Int
  amountTrd : Int
  edgeRow : Int
  pathNumber : Int
  ghostEdge : Int
  deriving DecidableEq

def buildingEdge (addrsSrc addrsTrk : Address) (statusSrc statusTrk : PositionStatus)
    (entryPrice exitPrice : List Char) (lives indexRow pathNumber amountPath ghostEdge : Int) :
    Edge :=
  ⟨addrsSrc, addrsTrk, statusSrc, statusTrk, entryPrice, exitPrice, lives, lives, amountPath,
    indexRow, pathNumber, ghostEdge⟩

def updatingLasttwocols (addrs : Address) (liveUpdated : Int) (r : TradeRow) : TradeRow :=
  if addrs = r.addrs0 then { r with nlives0 := liveUpdated } else { r with nlives1 := liveUpdated }

/-- A 64-bit sum or difference, which wraps around. -/
def wrap64 (x : Int) : Int :=
  x.bmod (2 ^ 64)

structure ClearingCall where
  mFile : List TradeRow
  indexInit : Nat
  pos : StatusAmounts
  side : Side
  pathMain : List Edge
  pathNumber : Int
  openedContracts : Int

/-- What the loop of `clearing_operator_fifo` leaves: the rows it went over, the edges it built,
the number of events it netted and the last difference of amounts. -/
structure ClearedRows where
  rows : List TradeRow
  edges : List Edge
  countingNetted : Nat
  dAmounts : Int

namespace ClearingCall

def nettedEdge (c : ClearingCall) (i : Nat) (row : TradeRow) (amount : Int) : Edge :=
  let trk := getStatusAmountsByaddrs row c.pos.addrsTrk
  buildingEdge trk.addrsSrc trk.addrsTrk trk.statusSrc trk.statusTrk c.pos.matchedPrice
    trk.matchedPrice 0 i c.pathNumber amount 0

def clearRows (c : ClearingCall) : Nat → List TradeRow → Nat → Int → Int → ClearedRows
  | _, [], countingNetted, _, dAmounts => ⟨[], [], countingNetted, dAmounts⟩
  | i, row :: rows, countingNetted, amountTrdSum, dAmounts =>
    let addrsOpening := c.pos.addrsTrk
    let trk := getStatusAmountsByaddrs row addrsOpening
    if addrsOpening ∈ row.cells ∧ trk.statusTrk ∈ statusNettedNpartly c.side ∧
        trk.nlivesTrk ≠ 0 then
      let amountTrdSum := wrap64 (amountTrdSum + trk.nlivesTrk)
      let dAmounts := wrap64 (c.openedContracts - amountTrdSum)
      if 0 < dAmounts then
        let next := clearRows c (i + 1) rows (countingNetted + 1) amountTrdSum dAmounts
        { next with
          rows := updatingLasttwocols addrsOpening 0 row :: next.rows
          edges := c.nettedEdge i row trk.nlivesTrk :: next.edges }
      else if dAmounts < 0 then
        ⟨updatingLasttwocols addrsOpening |dAmounts| row :: rows,
          [c.nettedEdge i row (trk.nlivesTrk - |dAmounts|)], countingNetted + 1, dAmounts⟩
      else
        ⟨updatingLasttwocols addrsOpening 0 row :: rows, [c.nettedEdge i row trk.nlivesTrk],
          countingNetted + 1, dAmounts⟩
    else
      let next := clearRows c (i + 1) rows countingNetted amountTrdSum dAmounts
      { next with rows := row :: next.rows }

variable {c : ClearingCall} {i k : Nat} {S d : Int} {row : TradeRow} {rows : List TradeRow}

/-- A row in which the opening address nets something that is still counted. -/
def Nets (c : ClearingCall) (row : TradeRow) : Prop :=
  c.pos.addrsTrk ∈ row.cells ∧
    (getStatusAmountsByaddrs row c.pos.addrsTrk).statusTrk ∈ statusNettedNpartly c.side ∧
    (getStatusAmountsByaddrs row c.pos.addrsTrk).nlivesTrk ≠ 0

theorem clearRows_nil : c.clearRows i [] k S d = ⟨[], [], k, d⟩ := rfl

theorem clearRows_of_not_nets (h : ¬ c.Nets row) : c.clearRows i (row :: rows) k S d =
    { c.clearRows (i + 1) rows k S d with rows := row :: (c.clearRows (i + 1) rows k S d).rows } :=
  if_neg h

theorem clearRows_of_nets (h : c.Nets row) {n S' d' : Int}
    (hn : (getStatusAmountsByaddrs row c.pos.addrsTrk).nlivesTrk = n) (hS : wrap64 (S + n) = S')
    (hd : wrap64 (c.openedContracts - S') = d') : c.clearRows i (row :: rows) k S d =
      if 0 < d' then
        { c.clearRows (i + 1) rows (k + 1) S' d' with
          rows := updatingLasttwocols c.pos.addrsTrk 0 row ::
            (c.clearRows (i + 1) rows (k + 1) S' d').rows
          edges := c.nettedEdge i row n :: (c.clearRows (i + 1) rows (k + 1) S' d').edges }
      else if d' < 0 then
        ⟨updatingLasttwocols c.pos.addrsTrk |d'| row :: rows,
          [c.nettedEdge i row (n - |d'|)], k + 1, d'⟩
      else
        ⟨updatingLasttwocols c.pos.addrsTrk 0 row :: rows, [c.nettedEdge i row n], k + 1, d'⟩ := by
  subst hn hS hd
  exact if_pos h

def cleared (c : ClearingCall) : ClearedRows :=
  c.clearRows (c.indexInit + 1) (c.mFile.drop (c.indexInit + 1)) 0 0 0

/-- The live count that is written to the first edge of the path, if any is. -/
def stored (c : ClearingCall) : Option Int :=
  if c.cleared.countingNetted = 0 then some c.openedContracts
  else if 0 < c.cleared.dAmounts then some c.cleared.dAmounts
  else none

def storeLives (c : ClearingCall) (lives : Int) (e : Edge) : Edge :=
  if c.pos.addrsTrk = e.addrsSrc then { e with livesSrc := lives } else { e with livesTrk := lives }

def clearingOperatorFifo (c : ClearingCall) : List TradeRow × List Edge :=
  (c.mFile.take (c.indexInit + 1) ++ c.cleared.rows,
    match c.stored with
    | some lives => (c.pathMain ++ c.cleared.edges).modifyHead (c.storeLives lives)
    | none => c.pathMain ++ c.cleared.edges)

end ClearingCall

/-- A row of trades with the two columns that count down the traded amount. -/
def addingNewtwocols (r : TradeRow) : TradeRow :=
  { r with nlives0 := r.amountTrd, nlives1 := r.amountTrd }

/-- What `settlement_algorithm_fifo` knows while it goes over the rows: the calls made so far, the
table, the paths and their number. -/
structure Settlement where
  calls : List ClearingCall
  mFile : List TradeRow
  pathMain : List (List Edge)
  pathNumber : Int

namespace Settlement

/-- One of the two calls for a row, made if the status of the tracked address opens a position. -/
def track (s : Settlement) (i : Nat) (vdata : TradeRow) (q : Side) (path : List Edge) :
    Settlement × List Edge :=
  let pos := getStatusAmountsOpenIncr vdata q
  if pos.statusTrk ∈ statusOpenIncr q then
    let c : ClearingCall := ⟨s.mFile, i, pos, q, path, s.pathNumber, pos.nlivesTrk⟩
    ({ s with calls := s.calls ++ [c], mFile := c.clearingOperatorFifo.1 },
      c.clearingOperatorFifo.2)
  else (s, path)

def step (s : Settlement) (i : Nat) : Settlement :=
  match s.mFile[i]? with
  | none => s
  | some vdata =>
    let long := getStatusAmountsOpenIncr vdata .long
    let short := getStatusAmountsOpenIncr vdata .short
    if long.statusTrk ∈ statusOpenIncr .long ∨ short.statusTrk ∈ statusOpenIncr .short then
      let s := { s with pathNumber := s.pathNumber + 1 }
      let source := buildingEdge long.addrsSrc long.addrsTrk long.statusSrc long.statusTrk
        long.matchedPrice long.matchedPrice 0 i s.pathNumber long.amountTrd 0
      let (s, path) := s.track i vdata .long [source]
      let (s, path) := s.track i vdata .short path
      { s with pathMain := s.pathMain ++ [path] }
    else s

end Settlement

/-- The loop of `settlement_algorithm_fifo` that nets the opened positions. -/
def settlementAlgorithmFifo (database : List TradeRow) : Settlement :=
  let mFile := database.map addingNewtwocols
  (List.range mFile.length).foldl Settlement.step ⟨[], mFile, [], 0⟩

end TradeLayer
