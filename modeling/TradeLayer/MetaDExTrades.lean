import TradeLayer.MetaDEx

namespace TradeLayer
open Library

inductive Trade (env : Environment) : MetaDEx × NodeState → MetaDEx × NodeState → Prop
  | execute {s s' : NodeState} {pnew pold : MetaDEx} {got paid : Int}
      (hmem : pold ∈ Book.level s.metadex pnew.desProperty pold.unitPrice)
      (hfill : MetaDEx.fill pnew pold = .ok (some (got, paid)))
      (hexec : s.executeTrade env pold.unitPrice pnew pold got paid = .ok s') :
      Trade env (pnew, s) ({ pnew with amountRemaining := pnew.amountRemaining - paid }, s')

abbrev Trades (env : Environment) := Relation.ReflTransGen (Trade env)

variable {s s' m : NodeState} {env : Environment} {pnew pnew' pold : MetaDEx} {price : ℚ}
variable {got paid rc : Int}

namespace NodeState

variable {a : Address} {r : ℚ} {left : Int}

/-- Everything the execution of a match does: the fee goes to the cache, the amounts change
hands and the rest of the old order replaces it. -/
theorem executeTrade_cases (h : s.executeTrade env price pnew pold got paid = .ok s') :
    ∃ fee m m', (fee = 0 ∧ m = s ∨ s.addFee env pnew.desProperty pnew.block fee = .ok m) ∧
      m.Posted (tradePostings pnew pold got paid fee) m' ∧
      s' = m'.replaceOrder price pnew.desProperty pold (pold.amountRemaining - got) := by
  obtain ⟨m, hm, h⟩ := bind_eq_ok.mp h
  obtain ⟨m', hm', h⟩ := bind_eq_ok.mp h
  cases h
  refine ⟨(s.tradingFee pnew pold got).getD 0, m, m', ?_, posted_of_assertTallies hm', rfl⟩
  cases hf : s.tradingFee pnew pold got with
  | none =>
    rw [hf] at hm
    cases hm
    exact .inl ⟨rfl, rfl⟩
  | some fee =>
    rw [hf] at hm
    exact .inr hm

theorem metadex_executeTrade (h : s.executeTrade env price pnew pold got paid = .ok s') :
    s'.metadex = (s.replaceOrder price pnew.desProperty pold
      (pold.amountRemaining - got)).metadex := by
  obtain ⟨fee, m, m', hm, hm', rfl⟩ := executeTrade_cases h
  have hmm : m.metadex = s.metadex := by
    rcases hm with ⟨-, rfl⟩ | hm
    · rfl
    · rw [(paidOut_of_addFee hm).frame]
  have hmm' : m'.metadex = s.metadex := by rw [hm'.1, hmm]
  simp only [replaceOrder, hmm']

theorem level_replaceOrder_of_ne {property p : PropertyId} (h : ¬ (p = property ∧ r = price)) :
    Book.level (s.replaceOrder price property pold left).metadex p r =
      Book.level s.metadex p r := by
  simp only [replaceOrder]
  split_ifs
  · rw [Book.file, Book.level_setLevel, if_neg h, Book.remove, Book.level_setLevel, if_neg h]
  · rw [Book.remove, Book.level_setLevel, if_neg h]

theorem mem_level_replaceOrder {property p : PropertyId} {o : MetaDEx} :
    o ∈ Book.level (s.replaceOrder price property pold left).metadex p r ↔
      o ∈ Book.level s.metadex p r ∧ ¬ (p = property ∧ r = price ∧ o.position = pold.position) ∨
        0 < left ∧ p = property ∧ r = price ∧ o = { pold with amountRemaining := left } := by
  have hnone : (Book.level (Book.remove s.metadex property price pold.position) property
      price).find? { pold with amountRemaining := left }.position = none := by
    rw [Keyed.find?_eq_none]
    intro o ho
    exact fun hp => (Book.mem_level_remove.mp ho).2 ⟨rfl, rfl, hp⟩
  simp only [replaceOrder]
  split_ifs with hl
  · rw [Book.mem_level_file hnone, Book.mem_level_remove]
    simp [hl]
  · rw [Book.mem_level_remove]
    simp [hl]

theorem total_replaceOrder {property : PropertyId} {f : MetaDEx → Int}
    (hmem : pold ∈ Book.level s.metadex property price) :
    Book.total (s.replaceOrder price property pold left).metadex f = Book.total s.metadex f -
      f pold + if 0 < left then f { pold with amountRemaining := left } else 0 := by
  simp only [replaceOrder]
  split_ifs
  · rw [Book.total_file, Book.total_remove hmem]
    rw [Keyed.find?_eq_none]
    exact fun x hx hp => (Book.mem_level_remove.mp hx).2 ⟨rfl, rfl, hp⟩
  · rw [Book.total_remove hmem, add_zero]

theorem mem_level_executeTrade {p : PropertyId} {o : MetaDEx}
    (h : s.executeTrade env price pnew pold got paid = .ok s') :
    o ∈ Book.level s'.metadex p r ↔ o ∈ Book.level s.metadex p r ∧
          ¬ (p = pnew.desProperty ∧ r = price ∧ o.position = pold.position) ∨
        0 < pold.amountRemaining - got ∧ p = pnew.desProperty ∧ r = price ∧
          o = { pold with amountRemaining := pold.amountRemaining - got } := by
  rw [metadex_executeTrade h, mem_level_replaceOrder]

theorem matchOrder_cases (h : s.matchOrder env price pnew pold = .ok (pnew', s'))
    (hmem : pold ∈ Book.level s.metadex pnew.desProperty price) :
    pnew' = pnew ∧ s' = s ∨ Trade env (pnew, s) (pnew', s') ∧ pnew'.desProperty = pnew.desProperty ∧
      ∃ got, s'.metadex =
        (s.replaceOrder price pnew.desProperty pold (pold.amountRemaining - got)).metadex := by
  unfold matchOrder at h
  split_ifs at h with hp
  obtain ⟨fill, hfill, h⟩ := bind_eq_ok.mp h
  match fill with
  | none =>
    cases h
    exact .inl ⟨rfl, rfl⟩
  | some (got, paid) =>
    obtain ⟨m, hm, h⟩ := bind_eq_ok.mp h
    cases h
    rw [not_not] at hp
    subst hp
    exact .inr ⟨.execute hmem hfill hm, rfl, got, metadex_executeTrade hm⟩

theorem trades_of_xTradeLevel {orders : List MetaDEx}
    (h : xTradeLevel env price orders pnew s = .ok (pnew', s'))
    (hmem : ∀ o ∈ orders, o ∈ Book.level s.metadex pnew.desProperty price)
    (hpos : orders.Pairwise fun a b => a.position < b.position) :
    Trades env (pnew, s) (pnew', s') ∧ pnew'.desProperty = pnew.desProperty ∧
      ∀ r, r ≠ price → Book.level s'.metadex pnew.desProperty r =
        Book.level s.metadex pnew.desProperty r := by
  induction orders generalizing pnew s with
  | nil =>
    cases h
    exact ⟨.refl, rfl, fun _ _ => rfl⟩
  | cons pold orders ih =>
    obtain ⟨⟨pmid, m⟩, hm, hrun⟩ := bind_eq_ok.mp h
    obtain ⟨hlt, hpos⟩ := List.pairwise_cons.mp hpos
    have hrest : ∀ o ∈ orders, o ∈ Book.level s.metadex pnew.desProperty price :=
      fun o ho => hmem o (List.mem_cons_of_mem _ ho)
    rcases matchOrder_cases hm (hmem pold List.mem_cons_self) with
      ⟨rfl, rfl⟩ | ⟨ht, hdes, got, hbook⟩
    · dsimp only at hrun
      split_ifs at hrun
      · cases hrun
        exact ⟨.refl, rfl, fun _ _ => rfl⟩
      · exact ih hrun hrest hpos
    · have hother : ∀ r, r ≠ price → Book.level m.metadex pnew.desProperty r =
          Book.level s.metadex pnew.desProperty r := by
        intro r hr
        rw [hbook]
        exact level_replaceOrder_of_ne fun hk => hr hk.2
      dsimp only at hrun
      split_ifs at hrun
      · cases hrun
        exact ⟨.single ht, hdes, hother⟩
      · obtain ⟨hts, hdes', hother'⟩ := ih hrun (fun o ho => by
          rw [hbook, hdes, mem_level_replaceOrder]
          exact .inl ⟨hrest o ho, fun hk => (hlt o ho).ne' hk.2.2⟩) hpos
        refine ⟨.head ht hts, hdes'.trans hdes, fun r hr => ?_⟩
        rw [← hother r hr, ← hdes]
        exact hother' r hr

theorem trades_of_xTradeLevels {levels : List (ℚ × Keyed MetaDEx.position)}
    (h : xTradeLevels env levels pnew s = .ok (pnew', s'))
    (hlevel : ∀ e ∈ levels, Book.level s.metadex pnew.desProperty e.1 = e.2)
    (hsorted : levels.Pairwise fun a b => a.1 < b.1) :
    Trades env (pnew, s) (pnew', s') := by
  induction levels generalizing pnew s with
  | nil =>
    cases h
    exact .refl
  | cons e levels ih =>
    obtain ⟨hlt, hsorted⟩ := List.pairwise_cons.mp hsorted
    have hrest : ∀ e ∈ levels, Book.level s.metadex pnew.desProperty e.1 = e.2 :=
      fun e he => hlevel e (List.mem_cons_of_mem _ he)
    unfold xTradeLevels at h
    split_ifs at h
    · exact ih h hrest hsorted
    · obtain ⟨⟨pmid, m⟩, hm, h⟩ := bind_eq_ok.mp h
      have he := hlevel e List.mem_cons_self
      obtain ⟨hts, hdes, hother⟩ := trades_of_xTradeLevel hm
        (fun o ho => by rw [he]; exact ho) e.2.sorted
      dsimp only at h
      split_ifs at h
      · cases h
        exact hts
      · refine hts.trans (ih h (fun e' he' => ?_) hsorted)
        rw [hdes, hother _ (hlt e' he').ne']
        exact hrest e' he'

theorem trades_of_xTrade (h : s.xTrade env pnew = .ok (pnew', s')) :
    Trades env (pnew, s) (pnew', s') := by
  unfold xTrade at h
  split at h
  case h_1 =>
    cases h
    exact .refl
  case h_2 prices hprices =>
    refine trades_of_xTradeLevels h (fun e he => ?_) prices.sorted
    have he' : prices.get? e.1 = some e.2 := OrderedMap.get?_eq_some.mpr he
    simp only [Book.level, hprices, Option.bind_some, he', Option.getD_some]

theorem incoming_of_trades {x y : MetaDEx × NodeState} (h : Trades env x y) :
    y.1 = { x.1 with amountRemaining := y.1.amountRemaining } ∧
      y.1.amountRemaining ≤ x.1.amountRemaining := by
  induction h with
  | refl => exact ⟨rfl, le_refl _⟩
  | tail _ ht ih =>
    cases ht with
    | execute hmem hfill hexec =>
      obtain ⟨-, -, -, hpaid⟩ := MetaDEx.fill_eq_some hfill
      dsimp only at ih ⊢
      refine ⟨?_, by omega⟩
      rw [ih.1]

/-- Everything the placing of an order can do: it is refused, or it trades and its rest, if
any, goes into the book. -/
theorem metaDExAdd_cases {p q : PropertyId} {n block d : Int} {txid idx : Nat}
    (h : s.metaDExAdd env a p n block q d txid idx = .ok (rc, s')) :
    rc = metaDExError - 66 ∧ s' = s ∨
      ∃ o m, Trades env (.incoming a block p n q d txid idx, s) (o, m) ∧
        (0 < o.amountRemaining ∧
            (Book.level m.metadex o.property o.unitPrice).contains o.position = true ∧
            rc = metaDExError - 70 ∧ s' = m ∨
          0 < o.amountRemaining ∧
            (Book.level m.metadex o.property o.unitPrice).find? o.position = none ∧ rc = 0 ∧
            Posted { m with metadex := Book.file m.metadex o.property o.unitPrice o }
              (Posting.transfer ⟨a, p, .balance⟩ ⟨a, p, .metadexReserve⟩ o.amountRemaining) s' ∨
          o.amountRemaining ≤ 0 ∧ rc = 0 ∧ s' = m) := by
  unfold metaDExAdd at h
  dsimp only at h
  split_ifs at h with hprice
  · cases h
    exact .inl ⟨rfl, rfl⟩
  obtain ⟨⟨o, m⟩, hm, h⟩ := bind_eq_ok.mp h
  refine .inr ⟨o, m, trades_of_xTrade hm, ?_⟩
  dsimp only at h
  split_ifs at h with hrem
  · by_cases hc : (Book.level m.metadex o.property o.unitPrice).contains o.position = true
    · simp only [metaDExInsert, hc, if_true] at h
      cases h
      exact .inl ⟨hrem, hc, rfl, rfl⟩
    · simp only [metaDExInsert, hc, if_false, Bool.false_eq_true] at h
      obtain ⟨m', hm', h⟩ := bind_eq_ok.mp h
      cases h
      refine .inr (.inl ⟨hrem, ?_, rfl, posted_of_assertTallies hm'⟩)
      rw [Keyed.find?_eq_none]
      exact fun x hx hp => hc (Keyed.contains_eq_true.mpr ⟨x, hx, hp⟩)
  · cases h
    exact .inr (.inr ⟨not_lt.mp hrem, rfl, rfl⟩)

inductive Cancel : NodeState → NodeState → Prop
  | remove {s s' : NodeState} {e : PropertyId × ℚ × MetaDEx}
      (hmem : e ∈ Book.entries s.metadex) (h : s.cancelOrder e = .ok s') : Cancel s s'

abbrev Cancels := Relation.ReflTransGen Cancel

theorem cancelOrder_cases {e : PropertyId × ℚ × MetaDEx} (h : s.cancelOrder e = .ok s') :
    ∃ m, s.Posted (Posting.transfer ⟨e.2.2.addr, e.2.2.property, .metadexReserve⟩
        ⟨e.2.2.addr, e.2.2.property, .balance⟩ e.2.2.amountRemaining) m ∧
      s' = { m with metadex := Book.remove s.metadex e.1 e.2.1 e.2.2.position } := by
  obtain ⟨m, hm, h⟩ := bind_eq_ok.mp h
  cases h
  have hp := posted_of_assertTallies hm
  refine ⟨m, hp, ?_⟩
  rw [hp.1]

theorem cancels_of_foldlM {orders : List (PropertyId × ℚ × MetaDEx)}
    (h : orders.foldlM cancelOrder s = .ok s') (hmem : ∀ e ∈ orders, e ∈ Book.entries s.metadex)
    (hnodup : orders.Nodup) : Cancels s s' := by
  induction orders generalizing s with
  | nil =>
    cases h
    exact .refl
  | cons e orders ih =>
    rw [List.foldlM_cons] at h
    obtain ⟨m, hm, hrun⟩ := bind_eq_ok.mp h
    obtain ⟨hne, hnodup⟩ := List.nodup_cons.mp hnodup
    refine .head (.remove (hmem e List.mem_cons_self) hm) (ih hrun (fun e' he' => ?_) hnodup)
    obtain ⟨m', -, rfl⟩ := cancelOrder_cases hm
    obtain ⟨p, r, o⟩ := e
    obtain ⟨p', r', o'⟩ := e'
    have ho := Book.mem_entries.mp (hmem _ List.mem_cons_self)
    have ho' := Book.mem_entries.mp (hmem _ (List.mem_cons_of_mem _ he'))
    refine Book.mem_entries.mpr (Book.mem_level_remove.mpr ⟨ho', ?_⟩)
    rintro ⟨rfl, rfl, hpos⟩
    rw [Keyed.eq_of_key_eq ho' ho hpos] at he'
    exact hne he'

theorem cancelOrders_cases {selected : PropertyId × ℚ × MetaDEx → Bool} {rc' : Int}
    (h : s.cancelOrders selected rc = .ok (rc', s')) :
    rc' = rc ∧ s' = s ∨ rc' = 0 ∧ Cancels s s' := by
  obtain ⟨m, hm, h⟩ := bind_eq_ok.mp h
  by_cases hnil : (Book.entries s.metadex).filter selected = []
  · rw [hnil] at hm h
    cases hm
    cases h
    exact .inl ⟨rfl, rfl⟩
  · simp only [hnil, if_false] at h
    cases h
    refine .inr ⟨rfl, cancels_of_foldlM hm (fun e he => (List.mem_filter.mp he).1) ?_⟩
    exact (Book.entries_nodup _).filter _

theorem metaDExCancelAtPrice_cases {p q : PropertyId} {n d : Int}
    (h : s.metaDExCancelAtPrice a p n q d = .ok (rc, s')) :
    rc < 0 ∧ s' = s ∨ rc = 0 ∧ Cancels s s' := by
  unfold metaDExCancelAtPrice at h
  dsimp only at h
  split at h
  · cases h
    exact .inl ⟨by decide, rfl⟩
  · rcases cancelOrders_cases h with ⟨rfl, hs⟩ | hc
    · exact .inl ⟨by decide, hs⟩
    · exact .inr hc

theorem metaDExCancelAllForPair_cases {p q : PropertyId}
    (h : s.metaDExCancelAllForPair a p q = .ok (rc, s')) :
    rc < 0 ∧ s' = s ∨ rc = 0 ∧ Cancels s s' := by
  unfold metaDExCancelAllForPair at h
  dsimp only at h
  split at h
  · cases h
    exact .inl ⟨by decide, rfl⟩
  · rcases cancelOrders_cases h with ⟨rfl, hs⟩ | hc
    · exact .inl ⟨by decide, hs⟩
    · exact .inr hc

theorem metaDExCancelEverything_cases {ecosystem : Nat}
    (h : s.metaDExCancelEverything a ecosystem = .ok (rc, s')) :
    rc < 0 ∧ s' = s ∨ rc = 0 ∧ Cancels s s' := by
  rcases cancelOrders_cases h with ⟨rfl, hs⟩ | hc
  · exact .inl ⟨by decide, hs⟩
  · exact .inr hc

theorem cancels_of_metaDExShutdown (h : s.metaDExShutdown = .ok (rc, s')) : Cancels s s' := by
  rcases cancelOrders_cases h with ⟨-, rfl⟩ | ⟨-, hc⟩
  · exact .refl
  · exact hc

theorem cancels_of_metaDExShutdownAllPair (h : s.metaDExShutdownAllPair = .ok (rc, s')) :
    Cancels s s' := by
  obtain ⟨m, hm, h⟩ := bind_eq_ok.mp h
  split_ifs at h
  cases h
  have hsub := List.takeWhile_sublist (l := Book.entries s.metadex) isAllPair
  exact cancels_of_foldlM hm (fun e he => hsub.subset he) ((Book.entries_nodup _).sublist hsub)

end NodeState

end TradeLayer
