import TradeLayer.ContractBook
import TradeLayer.ContractSettling

namespace TradeLayer
open Library

namespace NodeState

variable {s : NodeState} {env : Environment} {pnew : ContractDex}

/-- Matching a new order returns if and only if all checks hold that it makes while it meets the
orders in its reach. -/
theorem xTradeContract_returns_iff (hl : s.ledger.InRange) :
    (∃ x, s.xTradeContract env pnew = .ok x) ↔
      ∀ c ∈ s.tradeChecks env pnew, c.Holds :=
  (follows_xTradeContract hl).ok_iff

section Samples

variable {k : Nat}

def samplePit (notionalSize : Nat) : NodeState :=
  { sampleBids with
    spInfo := { sampleBids.spInfo with
      entries := OrderedMap.set sampleBids.spInfo.entries 5
        { sampleTerms coin with notionalSize } } }

theorem money_samplePit (a : Address) (c : PropertyId) (t : TallyType) :
    (samplePit k).ledger.money a c t = 0 :=
  money_initial .test .zero a c t

theorem inRange_samplePit : (samplePit k).ledger.InRange := by
  intro a c t _
  rw [money_samplePit]
  decide

theorem oneSided_samplePit : (samplePit k).ledger.OneSided :=
  fun a c => .inl (money_samplePit a c _)

theorem filed_samplePit : (samplePit k).Filed := by
  intro p r o ho
  rcases (Book.mem_level_file (by rfl)).mp ho with ho | ⟨rfl, rfl, rfl⟩
  · rcases (Book.mem_level_file (by rfl)).mp ho with ho | ⟨rfl, rfl, rfl⟩
    · rcases (Book.mem_level_file (by rfl)).mp ho with ho | ⟨rfl, rfl, rfl⟩
      · cases ho
      · exact ⟨by decide, rfl, rfl⟩
    · exact ⟨by decide, rfl, rfl⟩
  · exact ⟨by decide, rfl, rfl⟩

/-- Two matches make their thirty-six checks. -/
theorem checks_of_samplePit :
    ((samplePit coin).tradeChecks (.plain .test) sampleAsk).length = 36 ∧
      ∀ c ∈ (samplePit coin).tradeChecks (.plain .test) sampleAsk, c.Holds := by
  have hrun : ∃ x, (samplePit coin).xTradeContract (.plain .test) sampleAsk = .ok x :=
    exists_ok (by decide +kernel)
  exact ⟨by decide +kernel, (xTradeContract_returns_iff inRange_samplePit).mp hrun⟩

/-- One contract of the least notional size has no volume, and the average price over it alone is
formed with a zero denominator. -/
theorem xTradeContract_samplePit_eq_error :
    (samplePit 1).Filed ∧ (samplePit 1).ledger.InRange ∧ (samplePit 1).ledger.OneSided ∧
      (samplePit 1).xTradeContract (.plain .test) ⟨['b'], 101, 2, 1, 5, 1, 7, actionSell⟩ =
        .error .divisionByZero :=
  ⟨filed_samplePit, inRange_samplePit, oneSided_samplePit, eq_error_of_failure (by decide +kernel)⟩

end Samples

end NodeState

end TradeLayer
