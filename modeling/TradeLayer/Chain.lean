import TradeLayer.Packet
import TradeLayer.Library.Decimal

namespace TradeLayer
open Library

variable (raw : RawTransaction)

/-- What parsing finds in a transaction of the chain. -/
structure RawTransaction where
  txid : Nat
  sender : Address
  receiver : Address
  payload : List UInt8
  fee : UInt64
  deriving DecidableEq, Repr

def RawTransaction.parse (block : Int) (idx : Nat) : CMPTransaction :=
  .set raw.sender raw.receiver 0 raw.txid block idx raw.payload raw.fee

def RawTransaction.pkt : List UInt8 :=
  raw.payload.take CMPTransaction.maxPacketSize

def RawTransaction.type : Nat := CMPTransaction.readNat raw.pkt 2 2

theorem RawTransaction.sameHeader_of_interpret {raw : RawTransaction} {block : Int} {idx : Nat}
    {env : Environment} {others : OtherTypes} {kind : TransactionType} {tx : CMPTransaction}
    (hkind : TransactionType.ofCode raw.type = some kind) (hmodelled : kind.Modelled = true)
    (h : (raw.parse block idx).unlockLogic.interpretTransaction env others = some tx) :
    (raw.parse block idx).unlockLogic.withHeader.SameHeader tx :=
  CMPTransaction.sameHeader_of_interpretTransaction hkind hmodelled h

/-- A block that the node is handed: its height, and its transactions by position. -/
structure Block where
  height : Int
  txs : List (Nat × RawTransaction)
  deriving DecidableEq, Repr

structure TxRecord where
  raw : RawTransaction
  block : Int
  position : Nat
  valid : Bool
  deriving DecidableEq, Repr

structure Node where
  state : NodeState
  txList : List TxRecord

namespace Node

variable (env : Environment) (others : OtherTypes) (n : Node)

/-- Only transactions whose payload could be parsed are recorded. -/
def handlerTx (height : Int) (n : Node) (x : Nat × RawTransaction) : Except Abort Node := do
  let (rc, state) ← n.state.interpretPacket env others (x.2.parse height x.1).unlockLogic
  if rc = pktError - 2 then return { n with state }
  else return ⟨state, n.txList ++ [⟨x.2, height, x.1, 0 ≤ rc⟩]⟩

/-- The features that go live with a block are looked for twice. -/
def handlerBlockBegin (height : Int) : Node :=
  let features := (n.state.features.checkLiveActivations height).checkLiveActivations height
  { n with state := { n.state with features } }

def handlerBlock (block : Block) : Except Abort Node :=
  block.txs.foldlM (handlerTx env others block.height) (n.handlerBlockBegin block.height)

def live (blocks : List Block) : Except Abort Node :=
  blocks.foldlM (handlerBlock env others) n

/-- Blocks in the order of their heights, with their transactions by position. -/
structure WellFormedChain (blocks : List Block) : Prop where
  heights : blocks.Pairwise fun b b' => b.height < b'.height
  positions : ∀ b ∈ blocks, b.txs.Pairwise fun x x' => x.1 < x'.1

theorem handlerTx_cases {env : Environment} {others : OtherTypes} {height : Int} {n n' : Node}
    {x : Nat × RawTransaction} (h : handlerTx env others height n x = .ok n') :
    ∃ rc s', n.state.interpretPacket env others (x.2.parse height x.1).unlockLogic = .ok (rc, s') ∧
      (n' = ⟨s', n.txList⟩ ∧ rc < 0 ∨ n' = ⟨s', n.txList ++ [⟨x.2, height, x.1, 0 ≤ rc⟩]⟩) := by
  obtain ⟨⟨rc, s'⟩, hs, h⟩ := bind_eq_ok.mp h
  dsimp only at h
  split_ifs at h with hrc
  · cases h
    exact ⟨rc, s', hs, .inl ⟨rfl, hrc ▸ by decide⟩⟩
  · cases h
    exact ⟨rc, s', hs, .inr rfl⟩

end Node

/-- A transaction as it is read back from the chain: its position in the block is lost. -/
def TxRecord.stored (r : TxRecord) : CMPTransaction := (r.raw.parse r.block 0).unlockLogic

namespace NodeState

variable (s : NodeState) (env : Environment) (r : TxRecord) (others : OtherTypes)
variable (txList : List TxRecord)

def isActivation : Bool :=
  r.raw.type = TransactionType.activation.code && r.valid

def activationLoadOrder : List TxRecord :=
  (txList.filter isActivation).insertionSort
    fun r r' => toLex (r.block, r.raw.txid) ≤ toLex (r'.block, r'.raw.txid)

def loadActivation (blockHeight : Int) (s : NodeState) (r : TxRecord) : Except Abort NodeState :=
  if blockHeight < r.block then .ok s
  -- the code that is returned makes no difference
  else (s.interpretPacket env others r.stored).map Prod.snd

def loadActivations (blockHeight : Int) : Except Abort NodeState := do
  let s ← (activationLoadOrder txList).foldlM (loadActivation env others blockHeight) s
  return { s with features := s.features.checkLiveActivations blockHeight }

def clearFeatures (network : Network) : NodeState :=
  { s with features := (s.features.resetConsensusParams network).clearActivations }

def freezeSortKey : List Char :=
  paddedDigits 6 r.block.toNat ++ paddedDigits 10 r.position

def isFreezing : Bool :=
  (r.raw.type = TransactionType.freezePropertyTokens.code ||
    r.raw.type = TransactionType.unfreezePropertyTokens.code ||
    r.raw.type = TransactionType.enableFreezing.code ||
    r.raw.type = TransactionType.disableFreezing.code) && r.valid

def freezeLoadOrder : List TxRecord :=
  (txList.filter isFreezing).insertionSort
    fun r r' => toLex (freezeSortKey r, r.raw.txid) ≤ toLex (freezeSortKey r', r'.raw.txid)

/-- The loop of `LoadFreezeState`: the number of transactions loaded and the state, or nothing
when one of them is refused. -/
def loadFreezeLoop (env : Environment) (others : OtherTypes) (blockHeight : Int) :
    List TxRecord → Nat → NodeState → Except Abort (Option (Nat × NodeState))
  | [], txnsLoaded, s => .ok (some (txnsLoaded, s))
  | r :: rest, txnsLoaded, s =>
    if blockHeight < r.block then loadFreezeLoop env others blockHeight rest txnsLoaded s
    else do
      let (rc, s) ← s.interpretPacket env others r.stored
      if rc = 0 then loadFreezeLoop env others blockHeight rest (txnsLoaded + 1) s
      else return none

/-- Fails where a transaction is refused, and stops the node where a late block of the main
network finds fewer than two transactions. -/
def loadFreezeState (blockHeight : Int) : Except Abort (Option NodeState) := do
  match ← loadFreezeLoop env others blockHeight (freezeLoadOrder txList) 0 s with
  | none => return none
  | some (txnsLoaded, s) =>
    if 497000 < blockHeight ∧ env.network = .main ∧ txnsLoaded < 2 then .error .assertion
    else return some s

def clearFreezeState : NodeState :=
  { s with ledger := { s.ledger with freeze := .clear } }

end NodeState

end TradeLayer
