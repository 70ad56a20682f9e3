import TradeLayer.MetaDExTrades

namespace TradeLayer
open Library

def MetaDEx.reserves (a : Address) (p : PropertyId) (o : MetaDEx) : Int :=
  if o.addr = a ∧ o.property = p then o.amountRemaining else 0

section Match

variable {s s' : NodeState} {env : Environment} {price : ℚ} {pnew pold : MetaDEx} {got paid : Int}

theorem NodeState.reserve_executeTrade
    (h : s.executeTrade env price pnew pold got paid = .ok s') (a : Address) (p : PropertyId) :
    s'.ledger.money a p .metadexReserve = s.ledger.money a p .metadexReserve -
      if pold.addr = a ∧ pold.property = p then got else 0 := by
  obtain ⟨fee, m, m', hm, hm', rfl⟩ := executeTrade_cases h
  have hfee : m.ledger.money a p .metadexReserve = s.ledger.money a p .metadexReserve := by
    rcases hm with ⟨-, rfl⟩ | hm
    · rfl
    · exact (paidOut_of_addFee hm).money_eq (.inr (by decide))
  change m'.ledger.money a p .metadexReserve = _
  rw [hm'.2.money_eq, hfee]
  simp only [tradePostings, Posting.net_cons, Posting.net_nil, Account.mk.injEq, reduceCtorEq,
    and_false, if_false, and_true]
  split_ifs <;> ring

theorem NodeState.total_executeTrade
    (h : s.executeTrade env price pnew pold got paid = .ok s')
    (hmem : pold ∈ Book.level s.metadex pnew.desProperty price)
    (hleft : 0 ≤ pold.amountRemaining - got) (a : Address) (p : PropertyId) :
    Book.total s'.metadex (MetaDEx.reserves a p) = Book.total s.metadex (MetaDEx.reserves a p) -
      if pold.addr = a ∧ pold.property = p then got else 0 := by
  rw [metadex_executeTrade h, total_replaceOrder hmem]
  simp only [MetaDEx.reserves]
  split_ifs <;> omega

end Match

/-- The reserve of every address is what its resting orders have left to sell, and every
resting order is in its place, one at each of the used positions. -/
structure Reserved (used : Set (Int ×ₗ Nat)) (s : NodeState) : Prop where
  reserve : ∀ a p, s.ledger.money a p .metadexReserve = Book.total s.metadex (MetaDEx.reserves a p)
  remaining : ∀ {p r o}, o ∈ Book.level s.metadex p r →
    0 < o.amountRemaining ∧ o.amountRemaining ≤ o.amountForSale
  place : ∀ {p r o}, o ∈ Book.level s.metadex p r → p = o.property ∧ r = o.unitPrice
  used : ∀ {p r o}, o ∈ Book.level s.metadex p r → o.position ∈ used
  unique : ∀ {p r o p' r' o'}, o ∈ Book.level s.metadex p r → o' ∈ Book.level s.metadex p' r' →
    o.position = o'.position → o = o'

namespace Reserved

variable {used : Set (Int ×ₗ Nat)} {s s' : NodeState} {env : Environment} {o o' : MetaDEx}

theorem trade (hs : Reserved used s) (h : Trade env (o, s) (o', s')) : Reserved used s' := by
  generalize hx : (o, s) = x at h
  generalize hy : (o', s') = y at h
  cases h with
  | @execute t t' pnew pold got paid hmem hfill hexec =>
    cases hx
    cases hy
    obtain ⟨hmatch, hwithin, hgot, -⟩ := MetaDEx.fill_eq_some hfill
    have hleft := hwithin.2.2.1
    have hlevel := fun p r x => NodeState.mem_level_executeTrade (p := p) (r := r) (o := x) hexec
    refine ⟨fun a p => ?_, fun {p r x} hx => ?_, fun {p r x} hx => ?_, fun {p r x} hx => ?_,
      fun {p r x p' r' x'} hx hx' hpos => ?_⟩
    · rw [NodeState.reserve_executeTrade hexec, NodeState.total_executeTrade hexec hmem hleft,
        hs.reserve a p]
    · rw [hlevel] at hx
      rcases hx with ⟨hx, -⟩ | ⟨hpos, -, -, rfl⟩
      · exact hs.remaining hx
      · have hrem := hs.remaining hmem
        exact ⟨hpos, by dsimp only; omega⟩
    · rw [hlevel] at hx
      rcases hx with ⟨hx, -⟩ | ⟨-, rfl, rfl, rfl⟩
      · exact hs.place hx
      · exact hs.place (o := pold) hmem
    · rw [hlevel] at hx
      rcases hx with ⟨hx, -⟩ | ⟨-, -, -, rfl⟩
      · exact hs.used hx
      · exact hs.used (o := pold) hmem
    · rw [hlevel] at hx hx'
      have hlone : ∀ {p r x}, x ∈ Book.level s.metadex p r → x.position = pold.position →
          p = o.desProperty ∧ r = pold.unitPrice := by
        intro p r x hx hpos
        cases hs.unique hx hmem hpos
        exact ⟨(hs.place hx).1.trans (hs.place hmem).1.symm, (hs.place hx).2⟩
      rcases hx with ⟨hx, hne⟩ | ⟨-, -, -, rfl⟩ <;> rcases hx' with ⟨hx', hne'⟩ | ⟨-, -, -, rfl⟩
      · exact hs.unique hx hx' hpos
      · obtain ⟨hp, hr⟩ := hlone hx hpos
        exact absurd ⟨hp, hr, hpos⟩ hne
      · obtain ⟨hp, hr⟩ := hlone hx' hpos.symm
        exact absurd ⟨hp, hr, hpos.symm⟩ hne'
      · rfl

theorem trades {x y : MetaDEx × NodeState} (hs : Reserved used x.2) (h : Trades env x y) :
    Reserved used y.2 := by
  induction h with
  | refl => exact hs
  | tail _ ht ih => exact ih.trade ht

theorem cancel (hs : Reserved used s) (h : NodeState.Cancel s s') : Reserved used s' := by
  cases h with
  | @remove e hmem h =>
    obtain ⟨m, hm, rfl⟩ := NodeState.cancelOrder_cases h
    obtain ⟨p₀, r₀, o₀⟩ := e
    have hold := Book.mem_entries.mp hmem
    have hsub : ∀ {p r x}, x ∈ Book.level (Book.remove s.metadex p₀ r₀ o₀.position) p r →
        x ∈ Book.level s.metadex p r := fun hx => (Book.mem_level_remove.mp hx).1
    refine ⟨fun a p => ?_, fun hx => hs.remaining (hsub hx), fun hx => hs.place (hsub hx),
      fun hx => hs.used (hsub hx), fun hx hx' hpos => hs.unique (hsub hx) (hsub hx') hpos⟩
    have hmoney : m.ledger.money a p .metadexReserve =
        s.ledger.money a p .metadexReserve - MetaDEx.reserves a p o₀ := by
      rw [hm.2.money_eq]
      simp only [Posting.transfer, Posting.net_cons, Posting.net_nil, Account.mk.injEq,
        reduceCtorEq, and_false, if_false, and_true, MetaDEx.reserves]
      split_ifs <;> ring
    change m.ledger.money a p .metadexReserve = _
    rw [hmoney, hs.reserve, Book.total_remove hold]

theorem cancels (hs : Reserved used s) (h : NodeState.Cancels s s') : Reserved used s' := by
  induction h with
  | refl => exact hs
  | tail _ ht ih => exact ih.cancel ht

theorem file (hs : Reserved used s) (hnew : o.position ∉ used) (hpos : 0 < o.amountRemaining)
    (hle : o.amountRemaining ≤ o.amountForSale)
    (h : NodeState.Posted { s with metadex := Book.file s.metadex o.property o.unitPrice o }
      (Posting.transfer ⟨o.addr, o.property, .balance⟩ ⟨o.addr, o.property, .metadexReserve⟩
        o.amountRemaining) s') :
    Reserved (insert o.position used) s' := by
  have hfree : (Book.level s.metadex o.property o.unitPrice).find? o.position = none :=
    Keyed.find?_eq_none.mpr fun x hx hk => hnew (hk ▸ hs.used hx)
  have hbook : s'.metadex = Book.file s.metadex o.property o.unitPrice o := by rw [h.1]
  have hlevel : ∀ p r x, x ∈ Book.level s'.metadex p r ↔
      x ∈ Book.level s.metadex p r ∨ p = o.property ∧ r = o.unitPrice ∧ x = o := by
    intro p r x
    rw [hbook, Book.mem_level_file hfree]
  refine ⟨fun a p => ?_, fun {p r x} hx => ?_, fun {p r x} hx => ?_, fun {p r x} hx => ?_,
    fun {p r x p' r' x'} hx hx' hk => ?_⟩
  · rw [h.2.money_eq, hbook, Book.total_file hfree, ← hs.reserve]
    simp only [Posting.transfer, Posting.net_cons, Posting.net_nil, Account.mk.injEq,
      reduceCtorEq, and_false, if_false, and_true, MetaDEx.reserves, zero_add, add_zero]
  · rw [hlevel] at hx
    rcases hx with hx | ⟨-, -, rfl⟩
    · exact hs.remaining hx
    · exact ⟨hpos, hle⟩
  · rw [hlevel] at hx
    rcases hx with hx | ⟨rfl, rfl, rfl⟩
    · exact hs.place hx
    · exact ⟨rfl, rfl⟩
  · rw [hlevel] at hx
    rcases hx with hx | ⟨-, -, rfl⟩
    · exact .inr (hs.used hx)
    · exact .inl rfl
  · rw [hlevel] at hx hx'
    rcases hx with hx | ⟨-, -, rfl⟩ <;> rcases hx' with hx' | ⟨-, -, rfl⟩
    · exact hs.unique hx hx' hk
    · exact absurd (hk ▸ hs.used hx) hnew
    · exact absurd (hk ▸ hs.used hx') hnew
    · rfl

theorem mono {used' : Set (Int ×ₗ Nat)} (hs : Reserved used s) (h : used ⊆ used') :
    Reserved used' s :=
  ⟨hs.reserve, hs.remaining, hs.place, fun hx => h (hs.used hx), hs.unique⟩

end Reserved

inductive MetaDExCall
  | add (senderAddr : Address) (prop : PropertyId) (amount block : Int)
      (propertyDesired : PropertyId) (amountDesired : Int) (txid idx : Nat)
  | cancelAtPrice (senderAddr : Address) (prop : PropertyId) (amount : Int)
      (propertyDesired : PropertyId) (amountDesired : Int)
  | cancelAllForPair (senderAddr : Address) (prop propertyDesired : PropertyId)
  | cancelEverything (senderAddr : Address) (ecosystem : Nat)
  | shutdown

namespace MetaDExCall

def call (env : Environment) (s : NodeState) : MetaDExCall → Except Abort (Int × NodeState)
  | add a p n block q d txid idx => s.metaDExAdd env a p n block q d txid idx
  | cancelAtPrice a p n q d => s.metaDExCancelAtPrice a p n q d
  | cancelAllForPair a p q => s.metaDExCancelAllForPair a p q
  | cancelEverything a ecosystem => s.metaDExCancelEverything a ecosystem
  | shutdown => s.metaDExShutdown

def step (env : Environment) (s : NodeState) (c : MetaDExCall) : Except Abort NodeState := do
  let (_, s) ← c.call env s
  return s

def position : MetaDExCall → Option (Int ×ₗ Nat)
  | add _ _ _ block _ _ _ idx => some (toLex (block, idx))
  | _ => none

variable {s s' : NodeState} {env : Environment} {c : MetaDExCall} {calls : List MetaDExCall}
variable {used : Set (Int ×ₗ Nat)} {rc : Int}

theorem reserved_of_cancels (hs : Reserved used s)
    (h : rc < 0 ∧ s' = s ∨ rc = 0 ∧ NodeState.Cancels s s') : Reserved used s' := by
  rcases h with ⟨-, rfl⟩ | ⟨-, hc⟩
  · exact hs
  · exact hs.cancels hc

theorem reserved_of_metaDExAdd {a : Address} {p q : PropertyId} {n block d : Int}
    {txid idx : Nat} (hs : Reserved used s) (hnew : toLex (block, idx) ∉ used)
    (h : s.metaDExAdd env a p n block q d txid idx = .ok (rc, s')) :
    Reserved (insert (toLex (block, idx)) used) s' := by
  rcases NodeState.metaDExAdd_cases h with ⟨-, rfl⟩ | ⟨o, m, ht, hrest⟩
  · exact hs.mono (Set.subset_insert _ _)
  · have hm : Reserved used m := Reserved.trades (x := (_, s)) (y := (o, m)) hs ht
    obtain ⟨ho, hle⟩ := NodeState.incoming_of_trades ht
    rcases hrest with ⟨-, -, -, rfl⟩ | ⟨hpos, -, -, hp⟩ | ⟨-, -, rfl⟩
    · exact hm.mono (Set.subset_insert _ _)
    · have hk : o.position = toLex (block, idx) := congrArg MetaDEx.position ho
      have hsale : o.amountForSale = n := congrArg MetaDEx.amountForSale ho
      obtain rfl : o.addr = a := congrArg MetaDEx.addr ho
      obtain rfl : o.property = p := congrArg MetaDEx.property ho
      rw [← hk] at hnew ⊢
      exact hm.file hnew hpos (hsale ▸ hle) hp
    · exact hm.mono (Set.subset_insert _ _)

theorem reserved_of_call (hs : Reserved used s) (hnew : ∀ k, c.position = some k → k ∉ used)
    (h : c.call env s = .ok (rc, s')) : Reserved ({k | c.position = some k} ∪ used) s' := by
  cases c with
  | add a p n block q d txid idx =>
    refine (reserved_of_metaDExAdd hs (hnew _ rfl) h).mono fun k hk => ?_
    rcases hk with rfl | hk
    · exact .inl rfl
    · exact .inr hk
  | cancelAtPrice a p n q d =>
    exact (reserved_of_cancels hs (NodeState.metaDExCancelAtPrice_cases h)).mono
      Set.subset_union_right
  | cancelAllForPair a p q =>
    exact (reserved_of_cancels hs (NodeState.metaDExCancelAllForPair_cases h)).mono
      Set.subset_union_right
  | cancelEverything a ecosystem =>
    exact (reserved_of_cancels hs (NodeState.metaDExCancelEverything_cases h)).mono
      Set.subset_union_right
  | shutdown =>
    exact (hs.cancels (NodeState.cancels_of_metaDExShutdown h)).mono Set.subset_union_right

theorem reserved_of_run (hs : Reserved used s) (hnodup : (calls.filterMap position).Nodup)
    (hnew : ∀ k ∈ calls.filterMap position, k ∉ used)
    (h : calls.foldlM (step env) s = .ok s') : ∃ used', Reserved used' s' := by
  induction calls generalizing s used with
  | nil =>
    cases h
    exact ⟨used, hs⟩
  | cons c calls ih =>
    rw [List.foldlM_cons] at h
    obtain ⟨m, hm, hrun⟩ := bind_eq_ok.mp h
    obtain ⟨⟨rc, m'⟩, hcall, hm⟩ := bind_eq_ok.mp hm
    cases hm
    obtain ⟨hplace, hnodup, hnew⟩ := fresh_of_cons hnodup hnew
    exact ih (reserved_of_call hs hplace hcall) hnodup hnew hrun

end MetaDExCall

/-- After any calls with distinct positions on an empty book, what the resting orders of an
address have left to sell is what the address has in its reserve, every resting order lies under
its property and its unit price with a part of its amount left, and no two share a position. -/
theorem metadexReserve_eq_of_calls {env : Environment} {s s' : NodeState}
    {calls : List MetaDExCall} (hbook : s.metadex = ∅)
    (hreserve : ∀ a p, s.ledger.money a p .metadexReserve = 0)
    (hpositions : (calls.filterMap MetaDExCall.position).Nodup)
    (hrun : calls.foldlM (MetaDExCall.step env) s = .ok s') :
    (∀ a p, s'.ledger.money a p .metadexReserve = Book.total s'.metadex fun o =>
        if o.addr = a ∧ o.property = p then o.amountRemaining else 0) ∧
      (∀ p r o, (p, r, o) ∈ Book.entries s'.metadex →
        0 < o.amountRemaining ∧ o.amountRemaining ≤ o.amountForSale ∧ p = o.property ∧
          r = o.amountDesired / o.amountForSale) ∧
      ∀ e ∈ Book.entries s'.metadex, ∀ e' ∈ Book.entries s'.metadex,
        (e.2.2.block, e.2.2.idx) = (e'.2.2.block, e'.2.2.idx) → e = e' := by
  have hinit : Reserved ∅ s := by
    have hnone : ∀ {p r o}, o ∉ Book.level s.metadex p r := by
      simp [hbook, Book.level]
    refine ⟨fun a p => ?_, fun h => absurd h hnone, fun h => absurd h hnone,
      fun h => absurd h hnone, fun h => absurd h hnone⟩
    rw [hreserve, hbook, Book.total_empty]
  obtain ⟨used, h⟩ := MetaDExCall.reserved_of_run hinit hpositions (by simp) hrun
  refine ⟨h.reserve, fun p r o ho => ?_, ?_⟩
  · have ho := Book.mem_entries.mp ho
    exact ⟨(h.remaining ho).1, (h.remaining ho).2, h.place ho⟩
  · rintro ⟨p, r, o⟩ ho ⟨p', r', o'⟩ ho' hpos
    have ho := Book.mem_entries.mp ho
    have ho' := Book.mem_entries.mp ho'
    obtain rfl := h.unique ho ho' (congrArg toLex hpos)
    obtain ⟨rfl, rfl⟩ := h.place ho
    obtain ⟨rfl, rfl⟩ := h.place ho'
    rfl

def sampleMetaDExCalls : List MetaDExCall :=
  [.add ['A'] 3 100 10 4 200 1 1, .add ['B'] 4 60 10 3 20 2 2, .add ['A'] 3 50 11 4 500 3 1,
    .cancelAtPrice ['A'] 3 50 4 500]

def sampleMetaDExState : NodeState :=
  { NodeState.initial .main .zero with
    ledger := .ofPostings [⟨⟨['A'], 3, .balance⟩, 1000⟩, ⟨⟨['B'], 4, .balance⟩, 500⟩] }

theorem metadexReserve_of_sampleMetaDExCalls :
    ∃ s', sampleMetaDExCalls.foldlM (MetaDExCall.step (.plain .main)) sampleMetaDExState = .ok s' ∧
      s'.ledger.money ['A'] 3 .metadexReserve = Book.total s'.metadex fun o =>
        if o.addr = ['A'] ∧ o.property = 3 then o.amountRemaining else 0 := by
  obtain ⟨s', hrun⟩ := exists_ok (by decide +kernel :
    (sampleMetaDExCalls.foldlM (MetaDExCall.step (.plain .main)) sampleMetaDExState).toBool = true)
  refine ⟨s', hrun, (metadexReserve_eq_of_calls rfl (fun a p => ?_) (by decide +kernel) hrun).1 _ _⟩
  exact Ledger.money_ofPostings (by decide)

end TradeLayer
