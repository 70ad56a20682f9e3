import TradeLayer.CrashMatching

namespace TradeLayer
open Library

/-- The matches of a new order with the orders that it meets one after the other, each with the
new order as it then stands. -/
def ContractDex.fillsAlong : List ContractDex → ContractDex → List (ContractDex × ContractDex)
  | [], _ => []
  | pold :: rest, pnew =>
    if nCouldBuy pnew pold = 0 then fillsAlong rest pnew
    else (pnew, pold) :: fillsAlong rest (afterMatch pnew pold).2

namespace NodeState

def fills (s : NodeState) (pnew : ContractDex) : List (ContractDex × ContractDex) :=
  pnew.fillsAlong ((s.walk pnew).map Prod.snd)

variable {s : NodeState} {env : Environment} {price : Nat}
variable {r : ContractDex × NodeState}

section Walk

def insertRest (r : ContractDex × NodeState) : Int × NodeState :=
  if 0 < r.1.amountForSale then
    if (r.2.contractDexInsert r.1).1 then (0, (r.2.contractDexInsert r.1).2)
    else (metaDExError - 70, (r.2.contractDexInsert r.1).2)
  else (0, r.2)

theorem contractDexAdd_eq {a : Address} {p : PropertyId} {n block : Int}
    {txid idx action : Nat} (hprice : 0 < price) :
    s.contractDexAdd env a p n block txid idx price action =
      (meetAll env (s.walk ⟨a, block, txid, idx, p, n, price, action⟩)
        ⟨a, block, txid, idx, p, n, price, action⟩ s).map insertRest := by
  rw [contractDexAdd, ← xTradeContract_eq]
  dsimp only
  rw [if_neg hprice.ne']
  cases s.xTradeContract env ⟨a, block, txid, idx, p, n, price, action⟩ with
  | error e => rfl
  | ok r =>
    obtain ⟨o, m⟩ := r
    rw [ok_bind, Except.map, insertRest]
    dsimp only
    by_cases hrest : 0 < o.amountForSale
    · rw [if_pos hrest, if_pos hrest]
      rcases m.contractDexInsert o with ⟨_ | _, m'⟩ <;> rfl
    · rw [if_neg hrest, if_neg hrest]

theorem insertRest_cases :
    (insertRest r).2 = r.2 ∧ (0 < r.1.amountForSale → (insertRest r).1 < 0) ∨
      0 < r.1.amountForSale ∧
        (Book.level r.2.contractdex r.1.property r.1.effectivePrice).find? r.1.position = none ∧
        (insertRest r).2 = { r.2 with
          contractdex := Book.file r.2.contractdex r.1.property r.1.effectivePrice r.1 } := by
  rw [insertRest, contractDexInsert]
  by_cases hrest : 0 < r.1.amountForSale
  · rw [if_pos hrest]
    by_cases hc : (Book.level r.2.contractdex r.1.property r.1.effectivePrice).contains
        r.1.position = true
    · rw [if_pos hc]
      exact .inl ⟨rfl, fun _ => (by decide : metaDExError - 70 < 0)⟩
    · rw [if_neg hc]
      refine .inr ⟨hrest, ?_, rfl⟩
      rw [Keyed.find?_eq_none]
      intro o ho hpos
      exact hc (Keyed.contains_eq_true.mpr ⟨o, ho, hpos⟩)
  · rw [if_neg hrest]
    exact .inl ⟨rfl, fun hpos => absurd hpos hrest⟩

theorem insertRest_ledger : (insertRest r).2.ledger = r.2.ledger := by
  rcases insertRest_cases (r := r) with ⟨h, -⟩ | ⟨-, -, h⟩
  all_goals rw [h]

end Walk

end NodeState

end TradeLayer
