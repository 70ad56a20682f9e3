import TradeLayer.SupplyMessages

namespace TradeLayer
open Library

namespace NodeState.Circulates

variable {s s' : NodeState} {block : Int}

theorem of_gains (h : ∀ p, Gains block p 0 s s') : Circulates block 0 s s' where
  upTo := (h 0).upTo
  circulation_eq hs p := by
    rw [(h p).circulation_eq hs, Pi.zero_apply, add_zero, sub_zero]

theorem of_dexTransfers (h : DexTransfers s s') : Circulates block 0 s s' :=
  of_gains fun _ => .of_dexTransfers h

end NodeState.Circulates

inductive Operation
  | simpleSend (allowed : PropertyId → Bool) (tx : CMPTransaction)
  | sendAll (allowed : PropertyId → Bool) (tx : CMPTransaction)
  | sendToOwners (allowed : PropertyId → Bool) (tx : CMPTransaction)
  | metaDExAdd (senderAddr : Address) (prop : PropertyId) (amount : Int)
      (propertyDesired : PropertyId) (amountDesired : Int) (txid idx : Nat)
  | metaDExCancelAtPrice (senderAddr : Address) (prop : PropertyId) (amount : Int)
      (propertyDesired : PropertyId) (amountDesired : Int)
  | metaDExCancelAllForPair (senderAddr : Address) (prop propertyDesired : PropertyId)
  | metaDExCancelEverything (senderAddr : Address) (ecosystem : Nat)
  | metaDExShutdown
  | offerCreate (addressSeller : Address) (propertyId : PropertyId)
      (amountOffered amountDesired minAcceptFee : Int) (paymentWindow txid : Nat)
  | offerDestroy (addressSeller : Address) (propertyId : PropertyId)
  | offerUpdate (addressSeller : Address) (propertyId : PropertyId)
      (amountOffered amountDesired minAcceptFee : Int) (paymentWindow txid : Nat)
  | acceptCreate (addressBuyer addressSeller : Address) (propertyId : PropertyId)
      (amountAccepted feePaid : Int)
  | acceptDestroy (addressBuyer addressSeller : Address) (propertyId : PropertyId)
      (fForceErase : Bool)
  | payment (addressSeller addressBuyer : Address) (amountPaid : Int)
  | eraseExpiredAccepts

namespace Operation

def run (env : Environment) (block : Int) (s : NodeState) :
    Operation → Except Abort (Int × NodeState)
  | simpleSend allowed tx => s.logicMathSimpleSend allowed { tx with block }
  | sendAll allowed tx => s.logicMathSendAll allowed { tx with block }
  | sendToOwners allowed tx => s.logicMathSendToOwners env allowed { tx with block }
  | metaDExAdd a p n q d txid idx => s.metaDExAdd env a p n block q d txid idx
  | metaDExCancelAtPrice a p n q d => s.metaDExCancelAtPrice a p n q d
  | metaDExCancelAllForPair a p q => s.metaDExCancelAllForPair a p q
  | metaDExCancelEverything a ecosystem => s.metaDExCancelEverything a ecosystem
  | metaDExShutdown => s.metaDExShutdown
  | offerCreate a p n d fee window txid => s.offerCreate a p n block d fee window txid
  | offerDestroy a p => s.offerDestroy a p
  | offerUpdate a p n d fee window txid => s.offerUpdate a p n block d fee window txid
  | acceptCreate b a p n fee => s.acceptCreate b a p n block fee
  | acceptDestroy b a p force => s.acceptDestroy b a p force
  | payment a b n => s.payment env a b n block
  | eraseExpiredAccepts => (s.eraseExpiredAccepts block).map fun s => (0, s)

/-- What an operation that returned a code burns of a property: the fee of a distribution of the
first version that succeeded. -/
def burned (s : NodeState) (rc : Int) (p : PropertyId) : Operation → Int
  | sendToOwners _ tx =>
    if rc = 0 ∧ tx.version = mpTxPktV0 ∧ p = NodeState.stoFeeProperty tx then
      match stoGetReceivers s.ledger tx.sender (NodeState.stoDistributeTo tx)
        (asInt64 tx.nValue) with
      | .ok receivers => transferFeePerOwner * receivers.toList.length
      | .error _ => 0
    else 0
  | _ => 0

variable {env : Environment} {block rc : Int} {s s' : NodeState} {op : Operation}

theorem circulates_of_sendToOwners {allowed : PropertyId → Bool} {tx : CMPTransaction}
    (h : s.logicMathSendToOwners env allowed { tx with block } = .ok (rc, s')) :
    NodeState.Circulates block (fun p => (sendToOwners allowed tx).burned s rc p) s s' := by
  rcases NodeState.logicMathSendToOwners_cases h with
    ⟨hrc, rfl⟩ | ⟨rfl, receivers, hr, -, m₁, m₂, m₃, hstages⟩
  · refine NodeState.Circulates.refl.congr fun p => ?_
    rw [burned, if_neg fun h => hrc.ne h.1]
    rfl
  · refine (NodeState.circulates_of_stoStages hstages).congr fun p => ?_
    have hreceivers : stoGetReceivers s.ledger tx.sender (NodeState.stoDistributeTo tx)
      (asInt64 tx.nValue) = .ok receivers := hr
    simp only [burned, hreceivers, true_and]
    rfl

theorem circulates_of_run (h : op.run env block s = .ok (rc, s')) :
    NodeState.Circulates block (op.burned s rc) s s' := by
  cases op with
  | sendToOwners allowed tx => exact circulates_of_sendToOwners h
  | simpleSend allowed tx => exact .of_gains fun _ => NodeState.gains_of_logicMathSimpleSend h
  | sendAll allowed tx => exact .of_gains fun _ => NodeState.gains_of_logicMathSendAll h
  | metaDExAdd a p n q d txid idx => exact .of_gains fun _ => NodeState.gains_of_metaDExAdd h
  | metaDExCancelAtPrice a p n q d =>
    exact .of_gains fun _ => NodeState.gains_of_cancel (NodeState.metaDExCancelAtPrice_cases h)
  | metaDExCancelAllForPair a p q =>
    exact .of_gains fun _ => NodeState.gains_of_cancel (NodeState.metaDExCancelAllForPair_cases h)
  | metaDExCancelEverything a ecosystem =>
    exact .of_gains fun _ => NodeState.gains_of_cancel (NodeState.metaDExCancelEverything_cases h)
  | metaDExShutdown =>
    exact .of_gains fun _ => NodeState.gains_of_cancels (NodeState.cancels_of_metaDExShutdown h)
  | offerCreate => exact .of_dexTransfers (NodeState.dexTransfers_of_offerCreate h)
  | offerDestroy => exact .of_dexTransfers (NodeState.dexTransfers_of_offerDestroy h)
  | offerUpdate => exact .of_dexTransfers (NodeState.dexTransfers_of_offerUpdate h)
  | acceptCreate => exact .of_dexTransfers (NodeState.dexTransfers_of_acceptCreate h)
  | acceptDestroy => exact .of_dexTransfers (NodeState.dexTransfers_of_acceptDestroy h)
  | payment => exact .of_dexTransfers (NodeState.dexTransfers_of_payment h)
  | eraseExpiredAccepts =>
    obtain ⟨m, hm, hr⟩ := exists_ok_of_map h
    cases hr
    exact .of_dexTransfers (NodeState.dexTransfers_of_eraseExpiredAccepts hm)

end Operation

namespace NodeState

variable {env : Environment} {s s' : NodeState} {calls : List (Int × Operation)} {p : PropertyId}

/-- Operations one after the other, each for its block, whatever codes they return. -/
def runOperations (s : NodeState) (env : Environment) :
    List (Int × Operation) → Except Abort NodeState
  | [] => .ok s
  | (block, op) :: calls => do
    let (_, s) ← op.run env block s
    s.runOperations env calls

def burned (s : NodeState) (env : Environment) (p : PropertyId) : List (Int × Operation) → Int
  | [] => 0
  | (block, op) :: calls =>
    match op.run env block s with
    | .ok (rc, s') => op.burned s rc p + s'.burned env p calls
    | .error _ => 0

/-- A run of operations at the heights of a growing chain changes the tokens of a property in
circulation and in the fee cache by what it burns. -/
theorem circulation_of_runOperations (h : s.runOperations env calls = .ok s')
    (hblocks : (calls.map Prod.fst).Pairwise (· ≤ ·))
    (hcache : ∀ c ∈ calls, s.feeCache.UpTo c.1) :
    s'.circulation p = s.circulation p - s.burned env p calls := by
  induction calls generalizing s with
  | nil =>
    cases h
    simp [burned]
  | cons c calls ih =>
    obtain ⟨block, op⟩ := c
    obtain ⟨⟨rc, m⟩, hm, h⟩ := bind_eq_ok.mp h
    obtain ⟨hle, hblocks⟩ := List.pairwise_cons.mp hblocks
    have hstep := Operation.circulates_of_run hm
    have hupTo := hcache (block, op) List.mem_cons_self
    have hrest : ∀ c ∈ calls, m.feeCache.UpTo c.1 := fun c hc =>
      (hstep.upTo hupTo).mono (hle c.1 (List.mem_map.mpr ⟨c, hc, rfl⟩))
    rw [ih h hblocks hrest, hstep.circulation_eq hupTo, burned, hm]
    ring

def sampleHolders : NodeState :=
  { oneManaged .regtest ['i'] with
    ledger := .ofPostings [⟨⟨['a'], 3, .balance⟩, 100⟩, ⟨⟨['a'], 1, .balance⟩, 10⟩,
      ⟨⟨['b'], 3, .balance⟩, 50⟩, ⟨⟨['b'], 1, .balance⟩, 5⟩] }

def sampleOperations : List (Int × Operation) :=
  [(100, .sendToOwners (fun _ => true)
      { CMPTransaction.setNull with sender := ['a'], property := 3, nValue := 20 }),
    (101, .metaDExAdd ['a'] 3 10 1 5 7 1),
    (101, .metaDExAdd ['b'] 1 5 3 10 8 2)]

theorem circulation_of_sampleOperations :
    ∃ s', sampleHolders.runOperations (.plain .regtest) sampleOperations = .ok s' ∧
      s'.ledger.money ['b'] 3 .balance = 80 ∧
      s'.circulation 1 = sampleHolders.circulation 1 - 1 := by
  obtain ⟨s', hrun, hmoney⟩ := exists_ok_of_map (g := fun s => s.ledger.money ['b'] 3 .balance)
    (x := sampleHolders.runOperations (.plain .regtest) sampleOperations) (b := 80)
    (by decide +kernel)
  have hcache : ∀ c ∈ sampleOperations, sampleHolders.feeCache.UpTo c.1 :=
    fun c _ p e he => absurd he Keyed.not_mem_empty
  have hburned : sampleHolders.burned (.plain .regtest) 1 sampleOperations = 1 := by decide +kernel
  refine ⟨s', hrun, hmoney, ?_⟩
  rw [circulation_of_runOperations hrun (by decide) hcache, hburned]

end NodeState

end TradeLayer
