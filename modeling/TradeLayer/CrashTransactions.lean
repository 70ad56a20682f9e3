import TradeLayer.ContractSettling
import TradeLayer.ContractSides
import TradeLayer.FrozenBalances

namespace TradeLayer
open Library

def marginToLock (pfuture : FutureContractObject) (tx : CMPTransaction) : Nat :=
  tx.amount.toNat * pfuture.fcoMarginRequirement / tx.leverage.toNat

namespace NodeState

variable {s s' : NodeState} {env : Environment} {others : OtherTypes} {tx : CMPTransaction}
variable {raw : RawTransaction} {kind : TransactionType} {block : Int} {idx : Nat}
variable {pfuture : FutureContractObject} {reserve : Int}

theorem amountToReserve_eq_ok {reserve : Int}
    (h : amountToReserve pfuture tx = .ok reserve) : reserve = marginToLock pfuture tx := by
  obtain ⟨q, hq, h⟩ := bind_eq_ok.mp h
  obtain ⟨-, rfl⟩ := divide256_eq_ok.mp hq
  exact (convertTo64_eq_ok.mp h).1

end NodeState

end TradeLayer
