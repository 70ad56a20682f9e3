import TradeLayer.ContractCancel

namespace TradeLayer
open Library

namespace NodeState

/-- Orders for contracts rest with something for sale, under their contract and their price. -/
def Filed (s : NodeState) : Prop :=
  ∀ p r, ∀ o ∈ Book.level s.contractdex p r,
    0 < o.amountForSale ∧ o.property = p ∧ o.effectivePrice = r

structure WellFiled (s : NodeState) : Prop where
  filed : s.Filed
  unique : ∀ p r r', ∀ o ∈ Book.level s.contractdex p r, ∀ o' ∈ Book.level s.contractdex p r',
    o.position = o'.position → o = o'

/-- The first order that a new order takes something from is at least as large. -/
def FillsWhole (s : NodeState) (o : ContractDex) : Prop :=
  ∀ pold, ((s.walk o).map Prod.snd).find? (ContractDex.trades o.amountForSale) = some pold →
    o.amountForSale ≤ pold.amountForSale

instance (s : NodeState) (o : ContractDex) : Decidable (s.FillsWhole o) :=
  decidable_of_iff ((((s.walk o).map Prod.snd).find? (ContractDex.trades o.amountForSale)).all
    fun pold => o.amountForSale ≤ pold.amountForSale) (by simp [FillsWhole, Option.all_eq_true])

variable {s s' m : NodeState} {env : Environment} {pnew pold o : ContractDex} {price r : Nat}
variable {orders : List (Nat × ContractDex)} {p : PropertyId} {x : ContractDex × NodeState}
section Matches

theorem filed_replaceContract {rest : ContractDex} {remaining : Int} (hs : s.Filed)
    (hposition : rest.position = pold.position)
    (hrest : 0 < remaining →
      0 < rest.amountForSale ∧ rest.property = p ∧ rest.effectivePrice = price) :
    (s.replaceContract p price pold rest remaining).Filed := by
  intro p' r o ho
  rcases (mem_level_replaceContract hposition).mp ho with ⟨ho, -⟩ | ⟨hremaining, rfl, rfl, rfl⟩
  · exact hs p' r o ho
  · exact hrest hremaining

/-- Matches that use the new order up at the first order that it takes something from leave no
order of nothing. -/
theorem filed_of_meetAll (h : meetAll env orders pnew s = .ok x) (hs : s.Filed)
    (horders : ∀ e ∈ orders, 0 < e.2.amountForSale)
    (hwhole : pnew.amountForSale = 0 ∨ ∀ pold,
      (orders.map Prod.snd).find? (ContractDex.trades pnew.amountForSale) = some pold →
        pnew.amountForSale ≤ pold.amountForSale) : x.2.Filed := by
  induction orders generalizing pnew s with
  | nil =>
    cases h
    exact hs
  | cons e orders ih =>
    obtain ⟨price, pold⟩ := e
    obtain ⟨⟨pmid, m⟩, hm, hnext⟩ := bind_eq_ok.mp h
    obtain ⟨hpold, horders⟩ := List.forall_mem_cons.mp horders
    obtain ⟨hprice, hproperty, ⟨hn, rfl, rfl⟩ | ⟨sp, m', hsp, hm', rfl, rfl⟩⟩ :=
      matchContract_matched hm
    · have hzero : pmid.amountForSale = 0 := by
        rw [ContractDex.nCouldBuy_eq_min] at hn
        dsimp only at hpold
        omega
      exact ih hnext hs horders (.inl hzero)
    · have hpositive := hm'.positive
      rw [ContractDex.nCouldBuy_eq_min] at hpositive
      have hfiled : m'.Filed := by
        have hbook : m'.contractdex = s.contractdex := by rw [hm'.settled.frame]
        rw [Filed, hbook]
        exact hs
      replace hwhole := hwhole.resolve_left (by omega)
      cases htrades : ContractDex.trades pnew.amountForSale pold with
      | true =>
        have hle := hwhole pold (List.find?_cons_of_pos htrades)
        rw [ContractDex.afterMatch_of_trades htrades hle] at hnext
        apply ih hnext _ horders (.inl rfl)
        apply filed_replaceContract hfiled rfl
        intro hremaining
        rw [ContractDex.remaining_eq, abs_pos] at hremaining
        refine ⟨?_, hproperty, hprice⟩
        dsimp only
        omega
      | false =>
        rw [ContractDex.afterMatch_of_not_trades htrades] at hnext
        apply ih hnext _ horders
        · right
          intro o ho
          apply hwhole o
          rw [List.map_cons, List.find?_cons_of_neg (by simp [htrades])]
          exact ho
        · exact filed_replaceContract hfiled rfl fun _ => ⟨hpold, hproperty, hprice⟩

theorem places_of_meetAll (h : meetAll env orders pnew s = .ok x)
    (horders : ∀ e ∈ orders, e.2 ∈ Book.level m.contractdex pnew.property e.1)
    (hs : ∀ p r, ∀ o ∈ Book.level s.contractdex p r,
      ∃ o' ∈ Book.level m.contractdex p r, o'.position = o.position) :
    ∀ p r, ∀ o ∈ Book.level x.2.contractdex p r,
      ∃ o' ∈ Book.level m.contractdex p r, o'.position = o.position := by
  induction orders generalizing pnew s with
  | nil =>
    cases h
    exact hs
  | cons e orders ih =>
    obtain ⟨price, pold⟩ := e
    obtain ⟨⟨pmid, m₁⟩, hm, hnext⟩ := bind_eq_ok.mp h
    obtain ⟨hpold, horders⟩ := List.forall_mem_cons.mp horders
    obtain ⟨-, -, ⟨-, rfl, rfl⟩ | ⟨sp, m₂, -, hm₂, rfl, rfl⟩⟩ := matchContract_matched hm
    · exact ih hnext horders hs
    · obtain ⟨n, n', hafter⟩ := ContractDex.afterMatch_eq pnew pold
      rw [hafter] at hnext
      apply ih hnext horders
      intro p r o ho
      have hbook : m₂.contractdex = s.contractdex := by rw [hm₂.settled.frame]
      rcases (mem_level_replaceContract rfl).mp ho with ⟨ho, -⟩ | ⟨-, rfl, rfl, rfl⟩
      · rw [hbook] at ho
        exact hs p r o ho
      · exact ⟨pold, hpold, rfl⟩

theorem wellFiled_of_meetAll (hs : s.WellFiled) (hwhole : s.FillsWhole o)
    (h : meetAll env (s.walk o) o s = .ok x) : x.2.WellFiled := by
  have hmem : ∀ e ∈ s.walk o, e.2 ∈ Book.level s.contractdex o.property e.1 :=
    fun _ he => (mem_walk he).1
  have hplaces := places_of_meetAll h hmem fun _ _ o' ho' => ⟨o', ho', rfl⟩
  constructor
  · apply filed_of_meetAll h hs.filed _ (.inr hwhole)
    intro e he
    exact (hs.filed _ _ _ (hmem e he)).1
  · intro p r r' o₁ ho₁ o₂ ho₂ hpos
    -- the orders that were at the two places are one order, which has one price
    obtain ⟨q₁, hq₁, hpos₁⟩ := hplaces p r o₁ ho₁
    obtain ⟨q₂, hq₂, hpos₂⟩ := hplaces p r' o₂ ho₂
    have hq : q₁ = q₂ := hs.unique p r r' q₁ hq₁ q₂ hq₂ ((hpos₁.trans hpos).trans hpos₂.symm)
    have hr : r = r' := by
      rw [← (hs.filed p r q₁ hq₁).2.2, hq, (hs.filed p r' q₂ hq₂).2.2]
    subst hr
    exact Keyed.eq_of_key_eq ho₁ ho₂ hpos

theorem wellFiled_insertRest (hx : x.2.WellFiled)
    (hnew : x.1.position ∉ Book.positions x.2.contractdex) : (insertRest x).2.WellFiled := by
  rcases insertRest_cases (r := x) with ⟨h, -⟩ | ⟨hpositive, hnone, h⟩
  · rw [h]
    exact hx
  · have hlevel : ∀ p r o, o ∈ Book.level (insertRest x).2.contractdex p r ↔
        o ∈ Book.level x.2.contractdex p r ∨
          p = x.1.property ∧ r = x.1.effectivePrice ∧ o = x.1 := by
      intro p r o
      rw [h]
      exact Book.mem_level_file hnone
    constructor
    · intro p r o ho
      rcases (hlevel p r o).mp ho with ho | ⟨rfl, rfl, rfl⟩
      · exact hx.filed p r o ho
      · exact ⟨hpositive, rfl, rfl⟩
    · intro p r r' o ho o' ho' hpos
      rcases (hlevel p r o).mp ho with ho | ⟨rfl, rfl, rfl⟩
      · rcases (hlevel p r' o').mp ho' with ho' | ⟨-, -, rfl⟩
        · exact hx.unique p r r' o ho o' ho' hpos
        · exact absurd ⟨p, r, o, ho, hpos⟩ hnew
      · rcases (hlevel _ r' o').mp ho' with ho' | ⟨-, -, rfl⟩
        · exact absurd ⟨_, r', o', ho', hpos.symm⟩ hnew
        · rfl

theorem positions_insertRest : Book.positions (insertRest x).2.contractdex ⊆
    insert x.1.position (Book.positions x.2.contractdex) := by
  rcases insertRest_cases (r := x) with ⟨h, -⟩ | ⟨-, -, h⟩
  · rw [h]
    exact Set.subset_insert _ _
  · rw [h]
    exact Book.positions_file (Set.mem_insert _ _) (Set.subset_insert _ _)

theorem wellFiled_of_cancelEverything {sender : Address} {ecosystem : Nat} {rc : Int}
    (hs : s.WellFiled) (h : s.contractDexCancelEverything sender ecosystem p = .ok (rc, s')) :
    s'.WellFiled ∧ Book.positions s'.contractdex ⊆ Book.positions s.contractdex := by
  obtain ⟨m', hm, h⟩ := bind_eq_ok.mp h
  cases h
  have hlevel : ∀ p r, ∀ o ∈ Book.level s'.contractdex p r, o ∈ Book.level s.contractdex p r :=
    fun p r o ho => ((mem_level_of_cancelContracts hm).mp ho).1
  refine ⟨⟨?_, ?_⟩, ?_⟩
  · intro p r o ho
    exact hs.filed p r o (hlevel p r o ho)
  · intro p r r' o ho o' ho'
    exact hs.unique p r r' o (hlevel p r o ho) o' (hlevel p r' o' ho')
  · rintro k ⟨p, r, o, ho, hpos⟩
    exact ⟨p, r, o, hlevel p r o ho, hpos⟩

end Matches

end NodeState

inductive BookCall
  | contractDexAdd (senderAddr : Address) (prop : PropertyId) (amount block : Int)
      (txid idx effectivePrice tradingAction : Nat)
  | contractDexCancelEverything (senderAddr : Address) (ecosystem : Nat) (contractId : PropertyId)

namespace BookCall

def call (env : Environment) (s : NodeState) : BookCall → Except Abort (Int × NodeState)
  | contractDexAdd a p n block txid idx price action =>
    s.contractDexAdd env a p n block txid idx price action
  | contractDexCancelEverything a ecosystem c => s.contractDexCancelEverything a ecosystem c

def step (env : Environment) (s : NodeState) (c : BookCall) : Except Abort NodeState :=
  (c.call env s).map Prod.snd

def position : BookCall → Option (Int ×ₗ Nat)
  | contractDexAdd _ _ _ block _ idx _ _ => some (toLex (block, idx))
  | contractDexCancelEverything _ _ _ => none

def Proper : BookCall → Prop
  | contractDexAdd _ _ n _ _ _ price _ => 0 < n ∧ 0 < price
  | contractDexCancelEverything _ _ _ => True

def FillsWhole (s : NodeState) : BookCall → Prop
  | contractDexAdd a p n block txid idx price action =>
    s.FillsWhole ⟨a, block, txid, idx, p, n, price, action⟩
  | contractDexCancelEverything _ _ _ => True

/-- Every order of a run is used up by the first order that it takes something from. -/
def AllFillWhole (env : Environment) (s : NodeState) : List BookCall → Prop
  | [] => True
  | c :: calls => c.FillsWhole s ∧ ∀ s', c.step env s = .ok s' → AllFillWhole env s' calls

instance (s : NodeState) : (c : BookCall) → Decidable (c.FillsWhole s)
  | contractDexAdd a p n block txid idx price action =>
    inferInstanceAs (Decidable (s.FillsWhole ⟨a, block, txid, idx, p, n, price, action⟩))
  | contractDexCancelEverything _ _ _ => .isTrue trivial

instance decidableAllFillWhole (env : Environment) :
    (s : NodeState) → (calls : List BookCall) → Decidable (AllFillWhole env s calls)
  | _, [] => .isTrue trivial
  | s, c :: calls =>
    match h : c.step env s with
    | .error e => decidable_of_iff (c.FillsWhole s) (by simp [AllFillWhole, h])
    | .ok s' =>
      haveI := decidableAllFillWhole env s' calls
      decidable_of_iff (c.FillsWhole s ∧ AllFillWhole env s' calls) (by simp [AllFillWhole, h])

variable {s s' : NodeState} {env : Environment} {c : BookCall} {calls : List BookCall}
variable {used : Set (Int ×ₗ Nat)}

theorem wellFiled_of_contractDexAdd {a : Address} {p : PropertyId} {n block : Int}
    {txid idx price action : Nat} {rc : Int} (hs : s.WellFiled)
    (hused : Book.positions s.contractdex ⊆ used) (hnew : toLex (block, idx) ∉ used)
    (hprice : 0 < price) (hwhole : s.FillsWhole ⟨a, block, txid, idx, p, n, price, action⟩)
    (h : s.contractDexAdd env a p n block txid idx price action = .ok (rc, s')) :
    s'.WellFiled ∧ Book.positions s'.contractdex ⊆ insert (toLex (block, idx)) used := by
  rw [NodeState.contractDexAdd_eq hprice] at h
  obtain ⟨⟨o, m⟩, hx, hs'⟩ := exists_ok_of_map h
  have hm := NodeState.wellFiled_of_meetAll hs hwhole hx
  have hfilled : NodeState.Filled (Book.positions s.contractdex) _ (o, m) :=
    .of_xTradeContract (NodeState.xTradeContract_eq.trans hx)
  obtain ⟨n', ho⟩ := hfilled.order
  have hposition : o.position = toLex (block, idx) := congrArg ContractDex.position ho
  have hpositions := (hfilled.positions subset_rfl).trans hused
  have hrest := NodeState.wellFiled_insertRest (x := (o, m)) hm
    (fun hmem => hnew (hposition ▸ hpositions hmem))
  have hgrown := NodeState.positions_insertRest (x := (o, m))
  rw [hs'] at hrest hgrown
  rw [hposition] at hgrown
  exact ⟨hrest, hgrown.trans (Set.insert_subset_insert hpositions)⟩

theorem wellFiled_of_step (hs : s.WellFiled) (hused : Book.positions s.contractdex ⊆ used)
    (hnew : ∀ k, c.position = some k → k ∉ used) (hproper : c.Proper) (hwhole : c.FillsWhole s)
    (h : c.step env s = .ok s') :
    s'.WellFiled ∧ Book.positions s'.contractdex ⊆ {k | c.position = some k} ∪ used := by
  obtain ⟨⟨rc, m⟩, hcall, rfl⟩ := exists_ok_of_map h
  cases c with
  | contractDexAdd a p n block txid idx price action =>
    obtain ⟨hm, hpositions⟩ :=
      wellFiled_of_contractDexAdd hs hused (hnew _ rfl) hproper.2 hwhole hcall
    refine ⟨hm, hpositions.trans ?_⟩
    rintro k (rfl | hk)
    · exact .inl rfl
    · exact .inr hk
  | contractDexCancelEverything a ecosystem p =>
    obtain ⟨hm, hpositions⟩ := NodeState.wellFiled_of_cancelEverything hs hcall
    exact ⟨hm, (hpositions.trans hused).trans Set.subset_union_right⟩

theorem wellFiled_of_steps (hs : s.WellFiled) (hused : Book.positions s.contractdex ⊆ used)
    (hnodup : (calls.filterMap position).Nodup) (hnew : ∀ k ∈ calls.filterMap position, k ∉ used)
    (hproper : ∀ c ∈ calls, c.Proper) (hwhole : AllFillWhole env s calls)
    (h : calls.foldlM (step env) s = .ok s') : s'.WellFiled := by
  induction calls generalizing s used with
  | nil =>
    cases h
    exact hs
  | cons c calls ih =>
    rw [List.foldlM_cons] at h
    obtain ⟨m, hm, hrun⟩ := bind_eq_ok.mp h
    obtain ⟨hplace, hnodup, hnew⟩ := fresh_of_cons hnodup hnew
    obtain ⟨hc, hproper⟩ := List.forall_mem_cons.mp hproper
    obtain ⟨hfiled, hpositions⟩ := wellFiled_of_step hs hused hplace hc hwhole.1 hm
    exact ih hfiled hpositions hnodup hnew hproper (hwhole.2 m hm) hrun

end BookCall

/-- After any calls with distinct positions on an empty book, in which every new order is used up
by the first order that it takes something from, every resting order has something for sale and
lies under its contract and its price, and no two of a contract share a position. -/
theorem wellFiled_of_calls {env : Environment} {s s' : NodeState} {calls : List BookCall}
    (hbook : s.contractdex = ∅) (hproper : ∀ c ∈ calls, c.Proper)
    (hpositions : (calls.filterMap BookCall.position).Nodup)
    (hwhole : BookCall.AllFillWhole env s calls)
    (hrun : calls.foldlM (BookCall.step env) s = .ok s') :
    (∀ p r o, (p, r, o) ∈ Book.entries s'.contractdex →
        0 < o.amountForSale ∧ o.property = p ∧ o.effectivePrice = r) ∧
      ∀ e ∈ Book.entries s'.contractdex, ∀ e' ∈ Book.entries s'.contractdex, e.1 = e'.1 →
        (e.2.2.block, e.2.2.idx) = (e'.2.2.block, e'.2.2.idx) → e = e' := by
  have hnone : ∀ p r o, o ∉ Book.level s.contractdex p r := by
    simp [hbook, Book.level]
  have hinit : s.WellFiled := by
    constructor
    · exact fun p r o ho => absurd ho (hnone p r o)
    · exact fun p r r' o ho => absurd ho (hnone p r o)
  have hempty : Book.positions s.contractdex ⊆ ∅ := by
    rw [hbook, Book.positions_empty]
  have h := BookCall.wellFiled_of_steps hinit hempty hpositions (by simp) hproper hwhole hrun
  constructor
  · intro p r o ho
    exact h.filed p r o (Book.mem_entries.mp ho)
  · rintro ⟨p, r, o⟩ ho ⟨p', r', o'⟩ ho' rfl hpos
    have ho := Book.mem_entries.mp ho
    have ho' := Book.mem_entries.mp ho'
    obtain rfl := h.unique _ r r' o ho o' ho' (congrArg toLex hpos)
    obtain ⟨-, -, rfl⟩ := h.filed _ r o ho
    obtain ⟨-, -, rfl⟩ := h.filed _ r' o ho'
    rfl

def sampleTaken : List BookCall :=
  [.contractDexAdd ['a'] 5 5 100 1 1 7 actionBuy, .contractDexAdd ['b'] 5 3 101 2 1 7 actionSell,
    .contractDexCancelEverything ['a'] 1 5, .contractDexAdd ['c'] 5 4 102 3 1 6 actionBuy]

theorem wellFiled_of_sampleTaken :
    ∃ s', sampleTaken.foldlM (BookCall.step (.plain .test)) NodeState.sampleMarket = .ok s' ∧
      (Book.entries s'.contractdex).map (fun e => e.2.2.amountForSale) = [4] ∧
      ∀ p r o, (p, r, o) ∈ Book.entries s'.contractdex →
        0 < o.amountForSale ∧ o.property = p ∧ o.effectivePrice = r := by
  obtain ⟨s', hrun, hbook⟩ := exists_ok_of_map
    (g := fun s => (Book.entries s.contractdex).map (fun e => e.2.2.amountForSale))
    (x := sampleTaken.foldlM (BookCall.step (.plain .test)) NodeState.sampleMarket) (b := [4])
    (by decide +kernel)
  have hproper : ∀ c ∈ sampleTaken, c.Proper := by
    simp [sampleTaken, BookCall.Proper]
  exact ⟨s', hrun, hbook,
    (wellFiled_of_calls rfl hproper (by decide +kernel) (by decide +kernel) hrun).1⟩

/-- An order to sell more than the resting order to buy leaves an order for nothing. -/
theorem empty_order_of_sampleOversold :
    ∃ s', [BookCall.contractDexAdd ['a'] 5 5 100 1 1 7 actionBuy,
          .contractDexAdd ['b'] 5 8 101 2 1 7 actionSell].foldlM
        (BookCall.step (.plain .test)) NodeState.sampleMarket = .ok s' ∧
      (5, 7, ⟨['a'], 100, 1, 1, 5, 0, 7, actionBuy⟩) ∈ Book.entries s'.contractdex := by
  obtain ⟨s', hrun, hbook⟩ := exists_ok_of_map
    (g := fun s => (Book.entries s.contractdex).contains
      (5, 7, ⟨['a'], 100, 1, 1, 5, 0, 7, actionBuy⟩))
    (x := [BookCall.contractDexAdd ['a'] 5 5 100 1 1 7 actionBuy,
          .contractDexAdd ['b'] 5 8 101 2 1 7 actionSell].foldlM
        (BookCall.step (.plain .test)) NodeState.sampleMarket) (b := true) (by decide +kernel)
  exact ⟨s', hrun, List.contains_iff_mem.mp hbook⟩

end TradeLayer
