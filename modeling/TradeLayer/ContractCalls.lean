import TradeLayer.ContractTaken
import TradeLayer.StoredOrders

namespace TradeLayer
open Library

namespace NodeState

def contractDexCancelForBlock (s : NodeState) (block : Int) (idx : Nat) (senderAddr : Address) :
    Except Abort (Int × NodeState) := do
  let orders := (Book.entries s.contractdex).filter fun e =>
    e.2.2.addr = senderAddr && e.2.2.block = block && e.2.2.idx = idx
  let s ← orders.foldlM cancelContract s
  return (if orders = [] then metaDExError - 40 else 0, s)

/-- Takes the first order of an address out of the book. It redeems the amount of the order from
the margin. -/
def contractDexCancelInOrder (s : NodeState) (mscDebugContractCancelInorder : Bool)
    (senderAddr : Address) (contractId : PropertyId) : Except Abort (Int × NodeState) :=
  match s.spInfo.getSP contractId with
  | none => .ok (metaDExError - 40, s)
  | some sp =>
    match (Book.entries s.contractdex).find? fun e =>
      e.2.2.addr = senderAddr && e.2.2.property = contractId && e.2.2.amountForSale ≠ 0 with
    | none => .ok (if mscDebugContractCancelInorder then 1 else metaDExError - 40, s)
    | some e => do
      let amountMargin ← convertTo256 e.2.2.amountForSale
      let redeemed ← convertTo64 amountMargin
      let balance := s.ledger.getTokenBalance e.2.2.addr sp.collateralCurrency .balance
      let s ← s.assertTallies (if redeemed < balance ∧ 0 < balance ∧ 0 < redeemed then
        [⟨⟨e.2.2.addr, sp.collateralCurrency, .balance⟩, redeemed⟩,
          ⟨⟨e.2.2.addr, sp.collateralCurrency, .contractdexMargin⟩, -redeemed⟩] else [])
      return (0, { s with contractdex := Book.remove s.contractdex e.1 e.2.1 e.2.2.position })

end NodeState

/-- The calls that process orders for contracts. A market order trades, once or more often, and
its rest does not go into the book. -/
inductive ContractCall
  | add (senderAddr : Address) (prop : PropertyId) (amount block : Int)
      (txid idx effectivePrice tradingAction : Nat)
  | trade (order : ContractDex)
  | cancelEverything (senderAddr : Address) (ecosystem : Nat) (contractId : PropertyId)
  | cancelForBlock (block : Int) (idx : Nat) (senderAddr : Address)
  | cancelInOrder (mscDebugContractCancelInorder : Bool) (senderAddr : Address)
      (contractId : PropertyId)

namespace ContractCall

def call (env : Environment) (s : NodeState) : ContractCall → Except Abort NodeState
  | add a p n block txid idx price action =>
    (s.contractDexAdd env a p n block txid idx price action).map Prod.snd
  | trade order => (s.xTradeContract env order).map Prod.snd
  | cancelEverything a ecosystem c =>
    (s.contractDexCancelEverything a ecosystem c).map Prod.snd
  | cancelForBlock block idx a => (s.contractDexCancelForBlock block idx a).map Prod.snd
  | cancelInOrder debug a c => (s.contractDexCancelInOrder debug a c).map Prod.snd

def Typed : ContractCall → Prop
  | add a p n block txid idx price action =>
    ContractDex.Storable ⟨a, block, txid, idx, p, n, price, action⟩
  | _ => True

end ContractCall

/-- The books of contracts that calls lead to, whatever happens to the rest of the node before
each of them. -/
inductive ContractReached : CdPropertiesMap → Prop
  | empty : ContractReached ∅
  | call {env : Environment} {s s' : NodeState} {c : ContractCall} :
      ContractReached s.contractdex → c.Typed → c.call env s = .ok s' →
      ContractReached s'.contractdex

/-- The orders of a book can be stored and lie under their contract and their price. -/
def ContractStored (b : CdPropertiesMap) : Prop :=
  ∀ p r, ∀ o ∈ Book.level b p r, o.Storable ∧ o.property = p ∧ o.effectivePrice = r

namespace ContractDex

variable {pnew pold : ContractDex}

theorem amount_next_le (hpos : 0 < nCouldBuy pnew pold) :
    (next pnew pold).amountForSale ≤ pnew.amountForSale := by
  cases htrades : trades pnew.amountForSale pold with
  | true =>
    rw [amount_next (.inr htrades)]
    omega
  | false => rw [next, if_neg hpos.ne', afterMatch_of_not_trades htrades]

theorem Storable.afterMatch (h : pold.Storable) (hpos : 0 < nCouldBuy pnew pold) :
    (pnew.afterMatch pold).1.Storable := by
  cases htrades : trades pnew.amountForSale pold with
  | true =>
    have hmin : nCouldBuy pnew pold = min pnew.amountForSale pold.amountForSale := nCouldBuy_eq_min
    have hamount := h.amountForSale
    rw [afterMatch_eq_of_trades htrades]
    exact { h with amountForSale := by dsimp only; omega }
  | false =>
    rw [afterMatch_of_not_trades htrades]
    exact h

end ContractDex

namespace ContractStored

variable {s s' : NodeState} {env : Environment} {pnew pnew' pold : ContractDex} {price : Nat}
variable {b : CdPropertiesMap} {orders : List (Nat × ContractDex)}
variable {x : ContractDex × NodeState} {c : ContractCall}
variable {p : PropertyId}

theorem remove (h : ContractStored b) {r : Nat} {k : Int ×ₗ Nat} :
    ContractStored (Book.remove b p r k) :=
  fun p' r' o ho => h p' r' o (Book.mem_level_remove.mp ho).1

theorem matchContract (h : ContractStored s.contractdex)
    (hpold : pold.Storable) (hm : s.matchContract env price pnew pold = .ok (pnew', s')) :
    ContractStored s'.contractdex := by
  obtain ⟨hprice, hproperty, ⟨-, -, rfl⟩ | ⟨sp, m, -, hmatched, -, rfl⟩⟩ :=
    NodeState.matchContract_matched hm
  · exact h
  · obtain ⟨n, n', hafter⟩ := ContractDex.afterMatch_eq pnew pold
    have hbook : m.contractdex = s.contractdex := by rw [hmatched.settled.frame]
    intro p r o ho
    rw [NodeState.mem_level_replaceContract (by rw [hafter]; rfl), hbook] at ho
    rcases ho with ⟨ho, -⟩ | ⟨-, rfl, rfl, rfl⟩
    · exact h p r o ho
    · refine ⟨hpold.afterMatch hmatched.positive, ?_, ?_⟩
      · rw [hafter]
        exact hproperty
      · rw [hafter]
        exact hprice

theorem meetAll (h : ContractStored s.contractdex) (horders : ∀ e ∈ orders, e.2.Storable)
    (hrun : NodeState.meetAll env orders pnew s = .ok x) :
    ContractStored x.2.contractdex ∧ x.1.amountForSale ≤ pnew.amountForSale := by
  induction orders generalizing pnew s with
  | nil =>
    cases hrun
    exact ⟨h, le_rfl⟩
  | cons e orders ih =>
    obtain ⟨⟨pmid, m⟩, hm, hnext⟩ := bind_eq_ok.mp hrun
    obtain ⟨hfirst, horders⟩ := List.forall_mem_cons.mp horders
    obtain ⟨hstored, hle⟩ := ih (h.matchContract hfirst hm) horders hnext
    refine ⟨hstored, hle.trans ?_⟩
    obtain ⟨-, -, ⟨-, rfl, -⟩ | ⟨sp, m', -, hm', -, -⟩⟩ := NodeState.matchContract_matched hm
    · exact le_rfl
    · rw [NodeState.matchContract_next hm]
      exact ContractDex.amount_next_le hm'.positive

theorem xTradeContract (h : ContractStored s.contractdex)
    (hrun : s.xTradeContract env pnew = .ok x) :
    ContractStored x.2.contractdex ∧ x.1.amountForSale ≤ pnew.amountForSale := by
  rw [NodeState.xTradeContract_eq] at hrun
  refine h.meetAll (fun e he => ?_) hrun
  exact (h _ _ _ ((NodeState.mem_walk he).1)).1

theorem cancelContracts {orders : List (PropertyId × Nat × ContractDex)}
    (h : ContractStored s.contractdex)
    (hrun : orders.foldlM NodeState.cancelContract s = .ok s') : ContractStored s'.contractdex :=
  fun p r o ho => h p r o ((NodeState.mem_level_of_cancelContracts hrun).mp ho).1

theorem cancelInOrder {debug : Bool} {a : Address} {rc : Int} (h : ContractStored s.contractdex)
    (hrun : s.contractDexCancelInOrder debug a p = .ok (rc, s')) :
    ContractStored s'.contractdex := by
  unfold NodeState.contractDexCancelInOrder at hrun
  split at hrun
  · cases hrun
    exact h
  · split at hrun
    · cases hrun
      exact h
    · obtain ⟨n, -, hrun⟩ := bind_eq_ok.mp hrun
      obtain ⟨redeemed, -, hrun⟩ := bind_eq_ok.mp hrun
      obtain ⟨m, hm, hrun⟩ := bind_eq_ok.mp hrun
      cases hrun
      have hposted := NodeState.posted_of_assertTallies hm
      have hbook : m.contractdex = s.contractdex := by rw [hposted.1]
      dsimp only
      rw [hbook]
      exact h.remove

theorem add {a : Address} {n block : Int} {txid idx price action : Nat}
    (h : ContractStored s.contractdex)
    (htyped : ContractDex.Storable ⟨a, block, txid, idx, p, n, price, action⟩) {rc : Int}
    (hrun : s.contractDexAdd env a p n block txid idx price action = .ok (rc, s')) :
    ContractStored s'.contractdex := by
  rcases Nat.eq_zero_or_pos price with rfl | hprice
  · cases hrun
    exact h
  rw [NodeState.contractDexAdd_eq hprice] at hrun
  obtain ⟨⟨o, m⟩, hx, hs'⟩ := exists_ok_of_map hrun
  rw [← NodeState.xTradeContract_eq] at hx
  obtain ⟨hm, hle⟩ := h.xTradeContract hx
  obtain ⟨k, ho⟩ := (NodeState.Filled.of_xTradeContract hx).order
  have hstate : s' = (NodeState.insertRest (o, m)).2 := by rw [hs']
  rcases NodeState.insertRest_cases (r := (o, m)) with ⟨hrest, -⟩ | ⟨hpos, hfree, hrest⟩
  · rw [hstate, hrest]
    exact hm
  · rw [hstate, hrest]
    intro p' r' o' ho'
    rw [Book.mem_level_file hfree] at ho'
    rcases ho' with ho' | ⟨rfl, rfl, rfl⟩
    · exact hm p' r' o' ho'
    · refine ⟨?_, rfl, rfl⟩
      have hamount := htyped.amountForSale
      dsimp only at ho hpos hle hamount ⊢
      subst ho
      exact { htyped with amountForSale := by dsimp only at hpos hle ⊢; omega }

theorem call (h : ContractStored s.contractdex) (htyped : c.Typed)
    (hrun : c.call env s = .ok s') : ContractStored s'.contractdex := by
  cases c with
  | add a p n block txid idx price action =>
    obtain ⟨⟨rc, m⟩, hcall, rfl⟩ := exists_ok_of_map hrun
    exact h.add htyped hcall
  | trade order =>
    obtain ⟨x, hcall, rfl⟩ := exists_ok_of_map hrun
    exact (h.xTradeContract hcall).1
  | cancelEverything a ecosystem p =>
    obtain ⟨⟨rc, m⟩, hcall, rfl⟩ := exists_ok_of_map hrun
    obtain ⟨m', hm, hcall⟩ := bind_eq_ok.mp hcall
    cases hcall
    exact h.cancelContracts hm
  | cancelForBlock block idx a =>
    obtain ⟨⟨rc, m⟩, hcall, rfl⟩ := exists_ok_of_map hrun
    obtain ⟨m', hm, hcall⟩ := bind_eq_ok.mp hcall
    cases hcall
    exact h.cancelContracts hm
  | cancelInOrder debug a p =>
    obtain ⟨⟨rc, m⟩, hcall, rfl⟩ := exists_ok_of_map hrun
    exact h.cancelInOrder hcall

theorem of_reached (h : ContractReached b) : ContractStored b := by
  induction h with
  | empty => exact fun p r o ho => by simp [Book.level] at ho
  | call _ htyped hrun ih => exact ih.call htyped hrun

end ContractStored

end TradeLayer
