import TradeLayer.ContractCalls
import TradeLayer.MetaDExReserve

namespace TradeLayer
open Library

def MetaDExCall.Typed : MetaDExCall → Prop
  | .add a p n block q d txid idx => (MetaDEx.incoming a block p n q d txid idx).Storable
  | _ => True

/-- The books of tokens that calls lead to, whatever happens to the rest of the node before each
of them. -/
inductive MetaDExReached : MdPropertiesMap → Prop
  | empty : MetaDExReached ∅
  | call {env : Environment} {s s' : NodeState} {c : MetaDExCall} :
      MetaDExReached s.metadex → c.Typed → c.step env s = .ok s' → MetaDExReached s'.metadex

def MetaDExStored (b : MdPropertiesMap) : Prop :=
  ∀ p r, ∀ o ∈ Book.level b p r, o.Storable ∧ o.property = p ∧ o.unitPrice = r

namespace MetaDExStored

variable {s s' : NodeState} {env : Environment} {b : MdPropertiesMap} {c : MetaDExCall} {rc : Int}

theorem trade {x y : MetaDEx × NodeState} (h : MetaDExStored x.2.metadex) (ht : Trade env x y) :
    MetaDExStored y.2.metadex := by
  cases ht with
  | @execute s s' pnew pold got paid hmem hfill hexec =>
    obtain ⟨-, hwithin, hgot, -⟩ := MetaDEx.fill_eq_some hfill
    intro p r o ho
    rw [NodeState.mem_level_executeTrade hexec] at ho
    rcases ho with ⟨ho, -⟩ | ⟨hleft, rfl, rfl, rfl⟩
    · exact h p r o ho
    · obtain ⟨hpold, hplace⟩ := h _ _ pold hmem
      have hremaining := hpold.amountRemaining
      exact ⟨{ hpold with amountRemaining := by dsimp only; omega }, hplace⟩

theorem trades {x y : MetaDEx × NodeState} (h : MetaDExStored x.2.metadex) (ht : Trades env x y) :
    MetaDExStored y.2.metadex := by
  induction ht with
  | refl => exact h
  | tail _ ht ih => exact ih.trade ht

theorem cancels (h : MetaDExStored s.metadex) (hc : NodeState.Cancels s s') :
    MetaDExStored s'.metadex := by
  induction hc with
  | refl => exact h
  | tail _ hc ih =>
    cases hc with
    | remove hmem hrun =>
      obtain ⟨m, -, rfl⟩ := NodeState.cancelOrder_cases hrun
      exact fun p r o ho => ih p r o (Book.mem_level_remove.mp ho).1

theorem of_cancels (h : MetaDExStored s.metadex)
    (hc : rc < 0 ∧ s' = s ∨ rc = 0 ∧ NodeState.Cancels s s') : MetaDExStored s'.metadex := by
  rcases hc with ⟨-, rfl⟩ | ⟨-, hc⟩
  · exact h
  · exact h.cancels hc

theorem add {a : Address} {p q : PropertyId} {n block d : Int} {txid idx : Nat}
    (h : MetaDExStored s.metadex) (htyped : (MetaDEx.incoming a block p n q d txid idx).Storable)
    (hrun : s.metaDExAdd env a p n block q d txid idx = .ok (rc, s')) :
    MetaDExStored s'.metadex := by
  rcases NodeState.metaDExAdd_cases hrun with ⟨-, rfl⟩ | ⟨o, m, ht, hrest⟩
  · exact h
  · have hm : MetaDExStored m.metadex := h.trades ht
    obtain ⟨ho, hle⟩ := NodeState.incoming_of_trades ht
    rcases hrest with ⟨-, -, -, rfl⟩ | ⟨hpos, hfree, -, hposted⟩ | ⟨-, -, rfl⟩
    · exact hm
    · intro p' r' o' ho'
      rw [hposted.1] at ho'
      change o' ∈ Book.level (Book.file m.metadex o.property o.unitPrice o) p' r' at ho'
      rw [Book.mem_level_file hfree] at ho'
      rcases ho' with ho' | ⟨rfl, rfl, rfl⟩
      · exact hm p' r' o' ho'
      · refine ⟨?_, rfl, rfl⟩
        have hamount := htyped.amountRemaining
        dsimp only at ho hle
        rw [ho]
        exact { htyped with amountRemaining := by dsimp only; omega }
    · exact hm

theorem call (h : MetaDExStored s.metadex) (htyped : c.Typed) (hrun : c.step env s = .ok s') :
    MetaDExStored s'.metadex := by
  obtain ⟨⟨rc, m⟩, hcall, heq⟩ := bind_eq_ok.mp hrun
  cases heq
  cases c with
  | add a p n block q d txid idx => exact h.add htyped hcall
  | cancelAtPrice a p n q d => exact h.of_cancels (NodeState.metaDExCancelAtPrice_cases hcall)
  | cancelAllForPair a p q => exact h.of_cancels (NodeState.metaDExCancelAllForPair_cases hcall)
  | cancelEverything a ecosystem =>
    exact h.of_cancels (NodeState.metaDExCancelEverything_cases hcall)
  | shutdown => exact h.cancels (NodeState.cancels_of_metaDExShutdown hcall)

theorem of_reached (h : MetaDExReached b) : MetaDExStored b := by
  induction h with
  | empty => exact fun p r o ho => by simp [Book.level] at ho
  | call _ htyped hrun ih => exact ih.call htyped hrun

end MetaDExStored

section Lines

variable {σ ε : Type} {input : InputLine σ} {step : σ → ε → σ} {line : ε → List Char}
variable {es : List ε} {t : σ}

theorem inputLines_accepted (h : ∀ done e rest, es = done ++ e :: rest →
      input (done.foldl step t) (line e) = .ok (0, step (done.foldl step t) e)) :
    inputLines input (es.map line) t = .ok (0, es.foldl step t) := by
  induction es generalizing t with
  | nil => rfl
  | cons e es ih =>
    rw [forall_split_cons (P := fun done e =>
      input (done.foldl step t) (line e) = .ok (0, step (done.foldl step t) e))] at h
    have hfirst : input t (line e) = .ok (0, step t e) := h.1
    rw [List.map_cons, inputLines, hfirst, ok_bind]
    exact ih h.2

end Lines

namespace MemoryState

variable {s t t' : MemoryState} {remaining : ContractDex → Int}

section Orders

variable {es : List (PropertyId × ℚ × MetaDEx)}

def fileOrders (t : MemoryState) (es : List (PropertyId × ℚ × MetaDEx)) : MemoryState :=
  es.foldl (fun t e => t.fileOrder e.2.2) t

theorem metadex_fileOrders
    (hplaced : ∀ e ∈ es, e.2.2.property = e.1 ∧ e.2.2.unitPrice = e.2.1) :
    (t.fileOrders es).node.metadex = Book.fileAll t.node.metadex es := by
  induction es generalizing t with
  | nil => rfl
  | cons e es ih =>
    obtain ⟨⟨hproperty, hprice⟩, hplaced⟩ := List.forall_mem_cons.mp hplaced
    have hfirst : (t.fileOrder e.2.2).node.metadex =
        Book.file t.node.metadex e.1 e.2.1 e.2.2 := by rw [← hproperty, ← hprice]; rfl
    rw [fileOrders, List.foldl_cons, ← fileOrders, ih hplaced, hfirst]
    rfl

theorem contractdex_fileOrders : (t.fileOrders es).node.contractdex = t.node.contractdex := by
  induction es generalizing t with
  | nil => rfl
  | cons e es ih => exact ih

theorem inputLines_writeMpMetadex (hs : MetaDExStored s.node.metadex)
    (ht : t.node.metadex = ∅) :
    inputLines inputMpMdexorderString s.writeMpMetadex t =
      .ok (0, t.fileOrders (Book.entries s.node.metadex)) := by
  have hentry : ∀ e ∈ Book.entries s.node.metadex,
      e.2.2.Storable ∧ e.2.2.property = e.1 ∧ e.2.2.unitPrice = e.2.1 :=
    fun e he => hs e.1 e.2.1 e.2.2 (Book.mem_entries.mp he)
  refine inputLines_accepted fun done e rest hsplit => ?_
  have hmem : ∀ e' ∈ done ++ [e], e' ∈ Book.entries s.node.metadex := by
    intro e' he'
    rw [hsplit, List.append_cons]
    exact List.mem_append_left _ he'
  obtain ⟨hstorable, hproperty, hprice⟩ := hentry e (hmem e (by simp))
  apply inputMpMdexorderString_saveOffer hstorable
  have hdone : (t.fileOrders done).node.metadex = Book.fileAll t.node.metadex done :=
    metadex_fileOrders fun e' he' => (hentry e' (hmem e' (List.mem_append_left _ he'))).2
  rw [ht] at hdone
  rw [hproperty, hprice]
  change (Book.level (t.fileOrders done).node.metadex _ _).find? _ = none
  rw [hdone]
  exact Book.find?_fileAll (hsplit ▸ Book.apart_entries s.node.metadex)

end Orders

section Contracts

variable {es : List (PropertyId × Nat × ContractDex)}

def fileContracts (remaining : ContractDex → Int) (t : MemoryState)
    (es : List (PropertyId × Nat × ContractDex)) : MemoryState :=
  es.foldl (fun t e => t.fileContract remaining e.2.2) t

theorem contractdex_fileContracts
    (hplaced : ∀ e ∈ es, e.2.2.property = e.1 ∧ e.2.2.effectivePrice = e.2.1) :
    (t.fileContracts remaining es).node.contractdex = Book.fileAll t.node.contractdex es := by
  induction es generalizing t with
  | nil => rfl
  | cons e es ih =>
    obtain ⟨⟨hproperty, hprice⟩, hplaced⟩ := List.forall_mem_cons.mp hplaced
    have hfirst : (t.fileContract remaining e.2.2).node.contractdex =
        Book.file t.node.contractdex e.1 e.2.1 e.2.2 := by rw [← hproperty, ← hprice]; rfl
    rw [fileContracts, List.foldl_cons, ← fileContracts, ih hplaced, hfirst]
    rfl

theorem metadex_fileContracts :
    (t.fileContracts remaining es).node.metadex = t.node.metadex := by
  induction es generalizing t with
  | nil => rfl
  | cons e es ih => exact ih

theorem contractRemaining_fileContracts {o : ContractDex}
    (h : o ∈ es.map (fun e => e.2.2) ∨ t.contractRemaining o = remaining o) :
    (t.fileContracts remaining es).contractRemaining o = remaining o := by
  induction es generalizing t with
  | nil => exact h.resolve_left List.not_mem_nil
  | cons e es ih =>
    apply ih
    rw [List.map_cons, List.mem_cons, or_assoc] at h
    change _ ∨ Function.update t.contractRemaining e.2.2 (remaining e.2.2) o = remaining o
    rw [Function.update_apply]
    split_ifs with heq
    · exact .inr (by rw [heq])
    · exact h.resolve_left heq

theorem inputLines_writeMpContractdex (hs : ContractStored s.node.contractdex)
    (hremaining : ∀ p r, ∀ o ∈ Book.level s.node.contractdex p r, InInt64 (s.contractRemaining o))
    (ht : t.node.contractdex = ∅) :
    inputLines inputMpContractdexorderString s.writeMpContractdex t =
      .ok (0, t.fileContracts s.contractRemaining (Book.entries s.node.contractdex)) := by
  have hentry : ∀ e ∈ Book.entries s.node.contractdex,
      e.2.2.Storable ∧ e.2.2.property = e.1 ∧ e.2.2.effectivePrice = e.2.1 :=
    fun e he => hs e.1 e.2.1 e.2.2 (Book.mem_entries.mp he)
  refine inputLines_accepted fun done e rest hsplit => ?_
  have hmem : ∀ e' ∈ done ++ [e], e' ∈ Book.entries s.node.contractdex := by
    intro e' he'
    rw [hsplit, List.append_cons]
    exact List.mem_append_left _ he'
  obtain ⟨hstorable, hproperty, hprice⟩ := hentry e (hmem e (by simp))
  have hrange := hremaining e.1 e.2.1 e.2.2 (Book.mem_entries.mp (hmem e (by simp)))
  apply inputMpContractdexorderString_saveOffer hstorable
  · exact ⟨hrange.1, Int.lt_of_le_sub_one hrange.2⟩
  have hdone : (t.fileContracts s.contractRemaining done).node.contractdex =
      Book.fileAll t.node.contractdex done :=
    contractdex_fileContracts fun e' he' => (hentry e' (hmem e' (List.mem_append_left _ he'))).2
  rw [ht] at hdone
  rw [hproperty, hprice]
  change (Book.level (t.fileContracts _ done).node.contractdex _ _).find? _ = none
  rw [hdone]
  exact Book.find?_fileAll (hsplit ▸ Book.apart_entries s.node.contractdex)

end Contracts

/-- Two states hold the same orders under the same properties, prices and positions. -/
structure SameOrders (s t : MemoryState) : Prop where
  metadex : ∀ p r, Book.level t.node.metadex p r = Book.level s.node.metadex p r
  contractdex : ∀ p r, Book.level t.node.contractdex p r = Book.level s.node.contractdex p r
  remaining : ∀ p r, ∀ o ∈ Book.level s.node.contractdex p r,
    t.contractRemaining o = s.contractRemaining o

/-- Any books that order processing leads to are rebuilt from the lines of their orders. -/
theorem sameOrders_of_restart (hmetadex : MetaDExReached s.node.metadex)
    (hcontractdex : ContractReached s.node.contractdex)
    (hremaining : ∀ p r, ∀ o ∈ Book.level s.node.contractdex p r, InInt64 (s.contractRemaining o))
    (ht : t.node.metadex = ∅ ∧ t.node.contractdex = ∅) :
    ∃ m t', inputLines inputMpMdexorderString s.writeMpMetadex t = .ok (0, m) ∧
      inputLines inputMpContractdexorderString s.writeMpContractdex m = .ok (0, t') ∧
      SameOrders s t' := by
  have htokens := MetaDExStored.of_reached hmetadex
  have hcontracts := ContractStored.of_reached hcontractdex
  have hempty : (t.fileOrders (Book.entries s.node.metadex)).node.contractdex = ∅ :=
    contractdex_fileOrders.trans ht.2
  refine ⟨_, _, inputLines_writeMpMetadex htokens ht.1,
    inputLines_writeMpContractdex hcontracts hremaining hempty, ?_, ?_, ?_⟩
  · intro p r
    rw [metadex_fileContracts, metadex_fileOrders, ht.1, Book.level_fileAll_entries]
    exact fun e he => (htokens e.1 e.2.1 e.2.2 (Book.mem_entries.mp he)).2
  · intro p r
    rw [contractdex_fileContracts, hempty, Book.level_fileAll_entries]
    exact fun e he => (hcontracts e.1 e.2.1 e.2.2 (Book.mem_entries.mp he)).2
  · intro p r o ho
    refine contractRemaining_fileContracts (.inl ?_)
    exact List.mem_map.mpr ⟨(p, r, o), Book.mem_entries.mpr ho, rfl⟩

section Samples

def sampleTrader : Address := "1TokenTrader".toList

def sampleTokens : NodeState :=
  { NodeState.initial .test .zero with
    ledger := .ofPostings [⟨⟨sampleTrader, 3, .balance⟩, 100⟩] }

/-- An order for tokens and an order for contracts are written and read again. -/
theorem sameOrders_of_sampleTokens : ∃ s t' : MemoryState,
    (Book.entries s.node.metadex).length = 1 ∧ (Book.entries s.node.contractdex).length = 1 ∧
    SameOrders s t' := by
  have haddr : EncodedAddress sampleTrader := ⟨by decide, List.all_eq_true.mp (by decide)⟩
  obtain ⟨n, hn, horders⟩ := exists_ok_of_map
    (g := fun n : NodeState => (Book.entries n.metadex).length) (b := 1)
    (x := (MetaDExCall.add sampleTrader 3 100 10 4 200 7 1).step (.plain .test) sampleTokens)
    (by decide +kernel)
  obtain ⟨n', hn', hcontracts⟩ := exists_ok_of_map
    (g := fun n : NodeState => (Book.entries n.contractdex).length) (b := 1)
    (x := (ContractCall.add sampleTrader 5 3 10 8 2 50 actionBuy).call (.plain .test) sampleTokens)
    (by decide +kernel)
  have htoken : (MetaDEx.incoming sampleTrader 10 3 100 4 200 7 1).Storable :=
    ⟨haddr, by decide, by decide, by decide, by decide, by decide, by decide, by decide, by decide⟩
  have hcontract : ContractDex.Storable ⟨sampleTrader, 10, 8, 2, 5, 3, 50, actionBuy⟩ :=
    ⟨haddr, by decide, by decide, by decide, by decide, by decide, by decide, by decide⟩
  have hmetadex : MetaDExReached n.metadex :=
    .call (s := sampleTokens) (c := .add sampleTrader 3 100 10 4 200 7 1) .empty htoken hn
  have hcontractdex : ContractReached n'.contractdex :=
    .call (s := sampleTokens) (c := .add sampleTrader 5 3 10 8 2 50 actionBuy) .empty hcontract hn'
  have hthree : InInt64 3 := ⟨by decide, by decide⟩
  obtain ⟨m, t', -, -, hsame⟩ := sameOrders_of_restart
    (s := ⟨{ n with contractdex := n'.contractdex }, ∅, ∅, fun _ => 3, none⟩)
    (t := ⟨sampleTokens, ∅, ∅, fun _ => 0, none⟩) hmetadex hcontractdex
    (fun _ _ _ _ => hthree) ⟨rfl, rfl⟩
  exact ⟨_, t', horders, hcontracts, hsame⟩

end Samples

end MemoryState

end TradeLayer
