import TradeLayer.ContractDex
import TradeLayer.MetaDEx
import TradeLayer.PersistedChannels
import TradeLayer.PersistedDex
import TradeLayer.SpRollback

namespace TradeLayer
open Library

inductive FileType
  | balances
  | offers
  | accepts
  | globals
  | mdexorders
  | marketprices
  | cdexorders
  | cachefees
  | withdrawals
  | activeChannels
  deriving DecidableEq, Repr

namespace FileType

def all : List FileType :=
  [balances, offers, accepts, globals, mdexorders, marketprices, cdexorders, cachefees,
    withdrawals, activeChannels]

def number : FileType → Nat
  | balances => 0
  | offers => 1
  | accepts => 2
  | globals => 3
  | mdexorders => 4
  | marketprices => 5
  | cdexorders => 6
  | cachefees => 7
  | withdrawals => 8
  | activeChannels => 9

end FileType

/-- The prefixes that the table is initialised with. Its other places are null. -/
def statePrefixes : List (List Char) :=
  ["balances".toList, "offers".toList, "accepts".toList, "globals".toList, "mdexorders".toList,
    "cdexorders".toList]

def statePrefix (what : FileType) : Option (List Char) := statePrefixes[what.number]?

structure MemoryState where
  node : NodeState
  channelsMap : ChannelsMap
  withdrawalMap : WithdrawalMap
  /-- The remaining amounts that the orders for contracts were created with. -/
  contractRemaining : ContractDex → Int
  watermark : Option Nat

def subactionAdd : Nat := 1

def MetaDEx.saveOffer (order : MetaDEx) : List Char :=
  fieldLine [order.addr, integerText order.block, integerText order.amountForSale,
    Nat.toDigits 10 order.property, integerText order.amountDesired,
    Nat.toDigits 10 order.desProperty, Nat.toDigits 10 subactionAdd, Nat.toDigits 10 order.idx,
    hexText order.txid, integerText order.amountRemaining]

def ContractDex.saveOffer (contract : ContractDex) (amountRemaining : Int) : List Char :=
  fieldLine [contract.addr, integerText contract.block, integerText contract.amountForSale,
    Nat.toDigits 10 contract.property, integerText 0, Nat.toDigits 10 0,
    Nat.toDigits 10 subactionAdd, Nat.toDigits 10 contract.idx, hexText contract.txid,
    integerText amountRemaining, Nat.toDigits 10 contract.effectivePrice,
    Nat.toDigits 10 contract.tradingAction]

namespace MemoryState

def writeGlobalsState (s : MemoryState) : List Char :=
  fieldLine [Nat.toDigits 10 s.node.spInfo.nextSpid, Nat.toDigits 10 s.node.spInfo.nextTestSpid]

def writeMarketPricescd (s : MemoryState) : List Char :=
  (List.range npTypes).flatMap fun i => Nat.toDigits 10 ((s.node.marketP.get? i).getD 0)

def writeMpMetadex (s : MemoryState) : List (List Char) :=
  (Book.entries s.node.metadex).map fun e => e.2.2.saveOffer

def writeMpContractdex (s : MemoryState) : List (List Char) :=
  (Book.entries s.node.contractdex).map fun e => e.2.2.saveOffer (s.contractRemaining e.2.2)

def fileContents (hash : List Char → List Char) (s : MemoryState) :
    FileType → Except RestoreError (List (List Char))
  | .balances => .ok (stateFile hash (writeMscBalances s.node.ledger.mpTallyMap.toList))
  | .offers => (writeMpOffers s.node.myOffers).map (stateFile hash)
  | .accepts => (writeMpAccepts s.node.myAccepts).map (stateFile hash)
  | .globals => .ok (stateFile hash [s.writeGlobalsState])
  | .mdexorders => .ok (stateFile hash s.writeMpMetadex)
  | .cdexorders => .ok (stateFile hash s.writeMpContractdex)
  | .cachefees => .ok (lineFile hash (writeMpCachefees s.node.cachefees))
  | .withdrawals => .ok (lineFile hash (writeMpWithdrawals s.withdrawalMap))
  | .activeChannels => .ok (lineFile hash (writeMpActiveChannels s.channelsMap))
  | .marketprices => .ok (stateFile hash [s.writeMarketPricescd])

def inputGlobalsStateString : InputLine MemoryState := fun s line =>
  let vstr := splitAny separates line
  if vstr.length ≠ 2 then .ok (-1, s)
  else do
    let nextSPID ← lexicalCastUInt32 (← fieldAt vstr 0)
    let nextTestSPID ← lexicalCastUInt32 (← fieldAt vstr 1)
    let spInfo := { s.node.spInfo with nextSpid := nextSPID, nextTestSpid := nextTestSPID }
    return (0, { s with node := { s.node with spInfo } })

def inputMpMdexorderString : InputLine MemoryState := fun s line =>
  let vstr := splitAny separates line
  if vstr.length ≠ 10 then .ok (-1, s)
  else do
    let addr ← fieldAt vstr 0
    let block ← lexicalCastInt32 (← fieldAt vstr 1)
    let amountForSale ← lexicalCastInt64 (← fieldAt vstr 2)
    let property ← lexicalCastUInt32 (← fieldAt vstr 3)
    let amountDesired ← lexicalCastInt64 (← fieldAt vstr 4)
    let desProperty ← lexicalCastUInt32 (← fieldAt vstr 5)
    let _ ← lexicalCastUInt32 (← fieldAt vstr 6)
    let idx ← lexicalCastUInt32 (← fieldAt vstr 7)
    let txid ← fieldAt vstr 8
    let amountRemaining ← lexicalCastInt64 (← fieldAt vstr 9)
    let mdexObj : MetaDEx :=
      { addr, block, amountForSale, property, amountDesired, desProperty, idx,
        txid := uint256S txid, amountRemaining }
    match s.node.metaDExInsert mdexObj with
    | (false, node) => return (-1, { s with node })
    | (true, node) => return (0, { s with node })

def inputMpContractdexorderString : InputLine MemoryState := fun s line =>
  let vstr := splitAny separates line
  if vstr.length ≠ 12 then .ok (-1, s)
  else do
    let addr ← fieldAt vstr 0
    let block ← lexicalCastInt32 (← fieldAt vstr 1)
    let amountForSale ← lexicalCastInt64 (← fieldAt vstr 2)
    let property ← lexicalCastUInt32 (← fieldAt vstr 3)
    let _ ← lexicalCastInt64 (← fieldAt vstr 4)
    let _ ← lexicalCastUInt32 (← fieldAt vstr 5)
    let _ ← lexicalCastUInt32 (← fieldAt vstr 6)
    let idx ← lexicalCastUInt32 (← fieldAt vstr 7)
    let txid ← fieldAt vstr 8
    let amountRemaining ← lexicalCastInt64 (← fieldAt vstr 9)
    let effectivePrice ← lexicalCastUInt64 (← fieldAt vstr 10)
    let tradingAction ← lexicalCastUInt32 (← fieldAt vstr 11)
    let mdexObj : ContractDex :=
      { addr, block, amountForSale, property, idx, txid := uint256S txid, effectivePrice,
        tradingAction := tradingAction % 2 ^ 8 }
    let contractRemaining := Function.update s.contractRemaining mdexObj amountRemaining
    match s.node.contractDexInsert mdexObj with
    | (false, node) => return (-1, { s with node })
    | (true, node) => return (0, { s with node, contractRemaining })

def inputMarketPricesString : InputLine MemoryState := fun s line =>
  let vstr := splitAny separates line
  if vstr.length ≠ npTypes then .ok (-1, s)
  else do
    let prices ← vstr.mapM lexicalCastUInt64
    let marketP := prices.zipIdx.foldl (fun m e => OrderedMap.set m e.2 e.1) s.node.marketP
    return (0, { s with node := { s.node with marketP } })

def inputPart {σ : Type} (input : InputLine σ) (get : MemoryState → σ)
    (put : MemoryState → σ → MemoryState) : InputLine MemoryState := fun s line => do
  let (rc, part) ← input (get s) line
  return (rc, put s part)

/-- Clears what the file of a kind is loaded into. The last four kinds are loaded into what is
there. -/
def clear (s : MemoryState) : FileType → MemoryState
  | .balances => { s with node := { s.node with ledger := { s.node.ledger with mpTallyMap := ∅ } } }
  | .offers => { s with node := { s.node with myOffers := ∅ } }
  | .accepts => { s with node := { s.node with myAccepts := ∅ } }
  | .mdexorders => { s with node := { s.node with metadex := ∅ } }
  | .cdexorders => { s with node := { s.node with contractdex := ∅ } }
  | _ => s

def inputLineFunc : FileType → InputLine MemoryState
  | .balances => inputPart Ledger.inputMscBalancesString (·.node.ledger)
      fun s ledger => { s with node := { s.node with ledger } }
  | .offers => inputPart inputMpOffersString (·.node.myOffers)
      fun s myOffers => { s with node := { s.node with myOffers } }
  | .accepts => inputPart inputMpAcceptsString (·.node.myAccepts)
      fun s myAccepts => { s with node := { s.node with myAccepts } }
  | .globals => inputGlobalsStateString
  | .mdexorders => inputMpMdexorderString
  | .marketprices => inputMarketPricesString
  | .cdexorders => inputMpContractdexorderString
  | .cachefees => inputPart inputCachefeesString (·.node.cachefees)
      fun s cachefees => { s with node := { s.node with cachefees } }
  | .withdrawals => inputPart inputWithdrawalsString (·.withdrawalMap)
      fun s withdrawalMap => { s with withdrawalMap }
  | .activeChannels => inputPart inputActivechannelsString (·.channelsMap)
      fun s channelsMap => { s with channelsMap }

end MemoryState

end TradeLayer
