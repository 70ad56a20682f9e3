import TradeLayer.ContractSides

namespace TradeLayer
open Library

def factorE : Nat := 100000000

/-- Nothing assigns the two global prices, which start as zero. -/
def globalNumPrice : Int := 0
def globalDenPrice : Int := 0

def notionalChange : ℚ :=
  if globalDenPrice ≠ 0 then (globalNumPrice : ℚ) / globalDenPrice else 1

namespace NodeState

def redeemed (sp : SPEntry) (amountForSale : Int) : Except Abort Int := do
  let amount ← convertTo256 amountForSale
  let num ← convertTo256 notionalChange.num
  convertTo64 (amount * sp.marginRequirement * num / (notionalChange.den * factorE))

/-- From the reserve to the balance, where more than the redeemed amount is there already. -/
def redeemPostings (l : Ledger) (o : ContractDex) (sp : SPEntry) (redeemed : Int) :
    List (Posting Account) :=
  let balance := l.getTokenBalance o.addr sp.collateralCurrency .balance
  if redeemed < balance ∧ 0 < balance ∧ 0 < redeemed then
    [⟨⟨o.addr, sp.collateralCurrency, .balance⟩, redeemed⟩,
      ⟨⟨o.addr, sp.collateralCurrency, .contractdexReserve⟩, -redeemed⟩]
  else []

def cancelContract (s : NodeState) (e : PropertyId × Nat × ContractDex) :
    Except Abort NodeState :=
  match s.spInfo.getSP e.2.2.property with
  | none => .error .assertion
  | some sp => do
    let amount ← redeemed sp e.2.2.amountForSale
    let s ← s.assertTallies (redeemPostings s.ledger e.2.2 sp amount)
    return { s with contractdex := Book.remove s.contractdex e.1 e.2.1 e.2.2.position }

def selectsEcosystem (ecosystem : Nat) (prop : PropertyId) : Bool :=
  !(isMainEcosystemProperty ecosystem && !isMainEcosystemProperty prop) &&
    !(isTestEcosystemProperty ecosystem && !isTestEcosystemProperty prop)

def cancelled (s : NodeState) (senderAddr : Address) (ecosystem : Nat) (contractId : PropertyId) :
    List (PropertyId × Nat × ContractDex) :=
  (Book.entries s.contractdex).filter fun e =>
    selectsEcosystem ecosystem e.1 && e.2.2.addr = senderAddr && e.2.2.property = contractId &&
      e.2.2.amountForSale ≠ 0

def contractDexCancelEverything (s : NodeState) (senderAddr : Address) (ecosystem : Nat)
    (contractId : PropertyId) : Except Abort (Int × NodeState) := do
  let orders := s.cancelled senderAddr ecosystem contractId
  let s ← orders.foldlM cancelContract s
  return (if orders = [] then metaDExError - 40 else 0, s)

variable {s s' : NodeState} {e : PropertyId × Nat × ContractDex} {o : ContractDex}
variable {orders : List (PropertyId × Nat × ContractDex)} {p : PropertyId} {r : Nat}

theorem cancelContract_cases (h : s.cancelContract e = .ok s') :
    ∃ sp n, s.spInfo.getSP e.2.2.property = some sp ∧ redeemed sp e.2.2.amountForSale = .ok n ∧
      s.ledger.Posted (redeemPostings s.ledger e.2.2 sp n) s'.ledger ∧
      s' = { s with
        ledger := s'.ledger
        contractdex := Book.remove s.contractdex e.1 e.2.1 e.2.2.position } := by
  rw [cancelContract] at h
  split at h
  case h_1 => cases h
  case h_2 sp hsp =>
    obtain ⟨n, hn, h⟩ := bind_eq_ok.mp h
    obtain ⟨m, hm, h⟩ := bind_eq_ok.mp h
    cases h
    have hposted := posted_of_assertTallies hm
    refine ⟨sp, n, hsp, hn, hposted.2, ?_⟩
    rw [hposted.1]

theorem mem_level_of_cancelContracts (h : orders.foldlM cancelContract s = .ok s') :
    o ∈ Book.level s'.contractdex p r ↔ o ∈ Book.level s.contractdex p r ∧
      ∀ e ∈ orders, ¬ (p = e.1 ∧ r = e.2.1 ∧ o.position = e.2.2.position) := by
  induction orders generalizing s with
  | nil =>
    cases h
    simp
  | cons e orders ih =>
    rw [List.foldlM_cons] at h
    obtain ⟨m, hm, hnext⟩ := bind_eq_ok.mp h
    obtain ⟨sp, n, -, -, -, hframe⟩ := cancelContract_cases hm
    rw [ih hnext, hframe, List.forall_mem_cons, ← and_assoc]
    dsimp only
    rw [Book.mem_level_remove]

theorem mem_level_of_cancelled {sender : Address} {ecosystem : Nat} {c : PropertyId}
    (h : (s.cancelled sender ecosystem c).foldlM cancelContract s = .ok s') :
    o ∈ Book.level s'.contractdex p r ↔
      o ∈ Book.level s.contractdex p r ∧ (p, r, o) ∉ s.cancelled sender ecosystem c := by
  rw [mem_level_of_cancelContracts h]
  apply and_congr_right
  intro ho
  constructor
  · intro hout hin
    exact hout _ hin ⟨rfl, rfl, rfl⟩
  · rintro hin ⟨p', r', o'⟩ he ⟨rfl, rfl, hpos⟩
    have ho' := Book.mem_entries.mp (List.mem_of_mem_filter he)
    rw [Keyed.eq_of_key_eq ho ho' hpos] at hin
    exact hin he

end NodeState

end TradeLayer
