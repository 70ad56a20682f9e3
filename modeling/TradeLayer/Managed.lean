import TradeLayer.Sends

namespace TradeLayer
open Library

namespace NodeState

variable (s : NodeState) (env : Environment) (allowed : PropertyId → Bool) (tx : CMPTransaction)

def getSP (s : NodeState) (propertyId : PropertyId) : Except Abort SPEntry :=
  match s.spInfo.getSP propertyId with
  | some sp => .ok sp
  | none => .error .assertion

def updateSP (s : NodeState) (propertyId : PropertyId) (sp : SPEntry) : Except Abort NodeState :=
  match s.spInfo.updateSP propertyId sp with
  | (true, spInfo) => .ok { s with spInfo }
  | (false, _) => .error .assertion

def recordAmounts (sp : SPEntry) (tx : CMPTransaction) (blockHash : Nat) (granted revoked : Int) :
    SPEntry :=
  -- an insertion into a map keeps the entry that is there
  { sp with
    historicalData := if (sp.historicalData.get? tx.txid).isSome then sp.historicalData
      else sp.historicalData.set tx.txid [granted, revoked]
    updateBlock := blockHash }

def grantExecute (sp : SPEntry) (blockHash : Nat) : Except Abort (Int × NodeState) := do
  let s ← s.updateSP tx.property (recordAmounts sp tx blockHash (asInt64 tx.nValue) 0)
  let s ← s.assertTally tx.receiver tx.property (asInt64 tx.nValue) .balance
  let s ← s.notifyTotalTokensChanged env tx.property tx.block
  return (0, s)

def logicMathGrantTokens : Except Abort (Int × NodeState) :=
  match env.chainActive tx.block with
  | none => .ok (pktErrorSp - 20, s)
  | some blockHash =>
    if ¬ allowed tx.property then .ok (pktErrorTokens - 22, s)
    else if valueOutOfRange tx.nValue then .ok (pktErrorTokens - 23, s)
    else if ¬ s.spInfo.isPropertyIdValid tx.property then .ok (pktErrorTokens - 24, s)
    else do
      let sp ← s.getSP tx.property
      if ¬ sp.manual then return (pktErrorTokens - 42, s)
      else if tx.sender ≠ sp.getIssuer tx.block then return (pktErrorTokens - 43, s)
      else do
        let nTotalTokens ← s.getTotalTokens tx.property
        -- the difference is an unsigned number
        if UInt64.ofInt (int64Max - nTotalTokens) < tx.nValue then
          return (pktErrorTokens - 44, s)
        else s.grantExecute env tx sp blockHash

def revokeExecute (sp : SPEntry) (blockHash : Nat) : Except Abort (Int × NodeState) := do
  let s ← s.assertTally tx.sender tx.property (asInt64 (-tx.nValue)) .balance
  let s ← s.updateSP tx.property (recordAmounts sp tx blockHash 0 (asInt64 tx.nValue))
  let s ← s.notifyTotalTokensChanged env tx.property tx.block
  return (0, s)

/-- Any holder may revoke: the sender need not be the issuer. -/
def logicMathRevokeTokens : Except Abort (Int × NodeState) :=
  match env.chainActive tx.block with
  | none => .ok (pktErrorTokens - 20, s)
  | some blockHash =>
    if ¬ allowed tx.property then .ok (pktErrorTokens - 22, s)
    else if valueOutOfRange tx.nValue then .ok (pktErrorTokens - 23, s)
    else if ¬ s.spInfo.isPropertyIdValid tx.property then .ok (pktErrorTokens - 24, s)
    else do
      let sp ← s.getSP tx.property
      if ¬ sp.manual then return (pktErrorTokens - 42, s)
      else if s.ledger.getTokenBalance tx.sender tx.property .balance < asInt64 tx.nValue then
        return (pktErrorTokens - 25, s)
      else s.revokeExecute env tx sp blockHash

def changeIssuerExecute (sp : SPEntry) (blockHash : Nat) : Except Abort (Int × NodeState) := do
  let sp := { sp.updateIssuer tx.block tx.txIdx tx.receiver with
    issuer := tx.receiver, updateBlock := blockHash }
  let s ← s.updateSP tx.property sp
  return (0, s)

def logicMathChangeIssuer : Except Abort (Int × NodeState) :=
  match env.chainActive tx.block with
  | none => .ok (pktErrorTokens - 20, s)
  | some blockHash =>
    if ¬ allowed tx.property then .ok (pktErrorTokens - 22, s)
    else if ¬ s.spInfo.isPropertyIdValid tx.property then .ok (pktErrorTokens - 24, s)
    else do
      let sp ← s.getSP tx.property
      if tx.sender ≠ sp.getIssuer tx.block then return (pktErrorTokens - 43, s)
      else if tx.receiver = [] then return (pktErrorTokens - 45, s)
      else s.changeIssuerExecute tx sp blockHash

def withFreeze (freeze : FreezeState) : NodeState :=
  { s with ledger := { s.ledger with freeze } }

def setFreeze (freeze : Except Abort FreezeState) : Except Abort (Int × NodeState) := do
  let freeze ← freeze
  return (0, s.withFreeze freeze)

/-- The checks that the four freezing messages begin with, and what follows when they pass. -/
def managedByIssuer (logic : Except Abort (Int × NodeState)) : Except Abort (Int × NodeState) :=
  if (env.chainActive tx.block).isNone then .ok (pktErrorTokens - 20, s)
  else if ¬ allowed tx.property then .ok (pktErrorTokens - 22, s)
  else if ¬ s.spInfo.isPropertyIdValid tx.property then .ok (pktErrorTokens - 24, s)
  else do
    let sp ← s.getSP tx.property
    if ¬ sp.manual then return (pktErrorTokens - 42, s)
    else if tx.sender ≠ sp.getIssuer tx.block then return (pktErrorTokens - 43, s)
    else logic

def liveBlock : Int :=
  if ¬ s.isFeatureActivated .freezeNotice tx.block then tx.block
  else s.params.tlFreezeWaitPeriod + tx.block

def logicMathEnableFreezing : Except Abort (Int × NodeState) :=
  s.managedByIssuer env allowed tx
    (if s.ledger.freeze.isFreezingEnabled tx.property tx.block then .ok (pktErrorTokens - 49, s)
    else s.setFreeze (s.ledger.freeze.enableFreezing tx.property (s.liveBlock tx)))

def logicMathDisableFreezing : Except Abort (Int × NodeState) :=
  s.managedByIssuer env allowed tx
    (if ¬ s.ledger.freeze.isFreezingEnabled tx.property tx.block then .ok (pktErrorTokens - 47, s)
    else s.setFreeze (s.ledger.freeze.disableFreezing tx.property))

def logicMathFreezeTokens : Except Abort (Int × NodeState) :=
  s.managedByIssuer env allowed tx
    (if ¬ s.ledger.freeze.isFreezingEnabled tx.property tx.block then .ok (pktErrorTokens - 47, s)
    else if s.ledger.freeze.isAddressFrozen tx.receiver tx.property then
      .ok (pktErrorTokens - 50, s)
    else s.setFreeze (s.ledger.freeze.freezeAddress tx.receiver tx.property))

def logicMathUnfreezeTokens : Except Abort (Int × NodeState) :=
  s.managedByIssuer env allowed tx
    (if ¬ s.ledger.freeze.isFreezingEnabled tx.property tx.block then .ok (pktErrorTokens - 47, s)
    else if ¬ s.ledger.freeze.isAddressFrozen tx.receiver tx.property then
      .ok (pktErrorTokens - 48, s)
    else s.setFreeze (s.ledger.freeze.unfreezeAddress tx.receiver tx.property))

end NodeState

end TradeLayer
