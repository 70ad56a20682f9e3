import TradeLayer.DexMoves
import TradeLayer.Exchange
import TradeLayer.MetaDExTrades
import TradeLayer.SendMoves

namespace TradeLayer
open Library

structure Ledger.Spares (l l' : Ledger) : Prop where
  freeze_eq : l'.freeze = l.freeze
  balance_le : ∀ a p, l.freeze.isAddressFrozen a p = true →
    l.money a p .balance ≤ l'.money a p .balance

namespace Ledger

variable {l l' m : Ledger} {ps : List (Posting Account)}

theorem Spares.refl : Spares l l := ⟨rfl, fun _ _ _ => le_refl _⟩

theorem Spares.trans (h : Spares l m) (h' : Spares m l') : Spares l l' where
  freeze_eq := h'.freeze_eq.trans h.freeze_eq
  balance_le a p hf := (h.balance_le a p hf).trans (h'.balance_le a p (h.freeze_eq ▸ hf))

theorem Posted.spares (h : l.Posted ps l') : Spares l l' where
  freeze_eq := h.freeze_eq
  balance_le a p hf := by
    rw [h.money_eq]
    have hnet : 0 ≤ Posting.net (· = (⟨a, p, .balance⟩ : Account)) ps := by
      apply Posting.net_nonneg
      intro x hx hk
      have hx := h.unfrozen x hx
      rw [hk] at hx
      exact not_lt.mp fun hlt => hx ⟨rfl, hlt, hf⟩
    omega

end Ledger

namespace NodeState

variable {s s' m : NodeState} {env : Environment} {place : Int ×ₗ Nat} {p q : PropertyId}
variable {block : Int} {ps : List (Posting Account)}

/-- What a step of the node does at most to the freeze sets and the books: frozen balances are
spared, and orders rest where orders rested before or at the place of the step. -/
structure Keeps (place : Int ×ₗ Nat) (s s' : NodeState) : Prop where
  spares : s.ledger.Spares s'.ledger
  metadex : Book.positions s'.metadex ⊆ insert place (Book.positions s.metadex)
  contractdex : Book.positions s'.contractdex ⊆ insert place (Book.positions s.contractdex)

theorem positions_replaceOrder {price : ℚ} {pold : MetaDEx} {left : Int}
    (h : pold.position ∈ Book.positions s.metadex) :
    Book.positions (s.replaceOrder price p pold left).metadex ⊆ Book.positions s.metadex := by
  unfold replaceOrder
  dsimp only
  split_ifs
  · exact Book.positions_file h Book.positions_remove
  · exact Book.positions_remove

theorem positions_of_trade {x y : MetaDEx × NodeState} (h : Trade env x y) :
    Book.positions y.2.metadex ⊆ Book.positions x.2.metadex := by
  cases h with
  | @execute s s' pnew pold got paid hmem hfill hexec =>
    have hrest : pold.position ∈ Book.positions s.metadex := ⟨_, _, pold, hmem, rfl⟩
    dsimp only
    rw [metadex_executeTrade hexec]
    exact positions_replaceOrder hrest

theorem positions_of_trades {x y : MetaDEx × NodeState} (h : Trades env x y) :
    Book.positions y.2.metadex ⊆ Book.positions x.2.metadex := by
  induction h with
  | refl => exact Set.Subset.refl _
  | tail _ ht ih => exact (positions_of_trade ht).trans ih

namespace Keeps

theorem refl : Keeps place s s := ⟨.refl, Set.subset_insert _ _, Set.subset_insert _ _⟩

theorem trans (h : Keeps place s m) (h' : Keeps place m s') : Keeps place s s' where
  spares := h.spares.trans h'.spares
  metadex := h'.metadex.trans (Set.insert_subset (Set.mem_insert _ _) h.metadex)
  contractdex := h'.contractdex.trans (Set.insert_subset (Set.mem_insert _ _) h.contractdex)

theorem of_spares (h : s.ledger.Spares s'.ledger) (hm : s'.metadex = s.metadex)
    (hc : s'.contractdex = s.contractdex) : Keeps place s s' := by
  refine ⟨h, ?_, ?_⟩
  · rw [hm]
    exact Set.subset_insert _ _
  · rw [hc]
    exact Set.subset_insert _ _

theorem of_posted (h : s.Posted ps s') : Keeps place s s' :=
  of_spares h.2.spares (by rw [h.1]) (by rw [h.1])

theorem of_dexTransfers (h : DexTransfers s s') : Keeps place s s' := by
  obtain ⟨ps, hp, -⟩ := h.posted
  exact of_spares hp.spares (by rw [h.frame]) (by rw [h.frame])

theorem of_paidOut (h : PaidOut p s s') : Keeps place s s' := by
  obtain ⟨ps, hp, -⟩ := h.posted
  exact of_spares hp.spares (by rw [h.frame]) (by rw [h.frame])

theorem of_rejected {rc : Int} (h : Rejected rc s s') : Keeps place s s' := by
  obtain ⟨-, rfl⟩ := h
  exact .refl

theorem of_trade {x y : MetaDEx × NodeState} (h : Trade env x y) : Keeps place x.2 y.2 := by
  have hbook := (positions_of_trade h).trans (Set.subset_insert place _)
  cases h with
  | @execute s s' pnew pold got paid hmem hfill hexec =>
    obtain ⟨fee, m, m', hm, hm', rfl⟩ := executeTrade_cases hexec
    have hfee : Keeps place s m := by
      rcases hm with ⟨-, rfl⟩ | hm
      · exact .refl
      · exact of_paidOut (paidOut_of_addFee hm)
    have hpay := hfee.trans (of_posted hm')
    exact ⟨hpay.spares, hbook, hpay.contractdex⟩

theorem of_trades {x y : MetaDEx × NodeState} (h : Trades env x y) : Keeps place x.2 y.2 := by
  induction h with
  | refl => exact .refl
  | tail _ ht ih => exact ih.trans (of_trade ht)

theorem of_metaDExAdd {a : Address} {n d rc : Int} {txid idx : Nat}
    (h : s.metaDExAdd env a p n block q d txid idx = .ok (rc, s')) :
    Keeps (toLex (block, idx)) s s' := by
  rcases metaDExAdd_cases h with ⟨-, rfl⟩ | ⟨o, m, ht, h⟩
  · exact .refl
  · have htrades : Keeps (toLex (block, idx)) s m := of_trades ht
    rcases h with ⟨-, -, -, rfl⟩ | ⟨-, -, -, hp⟩ | ⟨-, -, rfl⟩
    · exact htrades
    · have hk : o.position = toLex (block, idx) :=
        congrArg MetaDEx.position (incoming_of_trades ht).1
      have hfile : Keeps (toLex (block, idx)) m
          { m with metadex := Book.file m.metadex o.property o.unitPrice o } :=
        ⟨.refl, Book.positions_file (.inl hk) (Set.subset_insert _ _), Set.subset_insert _ _⟩
      exact (htrades.trans hfile).trans (of_posted hp)
    · exact htrades

theorem of_cancels (h : Cancels s s') : Keeps place s s' := by
  induction h with
  | refl => exact .refl
  | tail _ hc ih =>
    cases hc with
    | remove hmem h =>
      obtain ⟨m, hm, rfl⟩ := cancelOrder_cases h
      have hreturn : Keeps place _ _ := ih.trans (of_posted hm)
      refine ⟨hreturn.spares, Book.positions_remove.trans ih.metadex, hreturn.contractdex⟩

end Keeps

end NodeState

end TradeLayer
