import TradeLayer.BookInvariant

namespace TradeLayer
open Library

namespace NodeState

variable {s s' : NodeState} {orders : List (PropertyId × ℚ × MetaDEx)}
variable {sender : Address} {selected : MetaDEx → Bool} {rc : Int}

theorem sum_reserves {a : Address} {p : PropertyId} (h : ∀ e ∈ orders, e.2.2.addr = sender) :
    (orders.map fun e => MetaDEx.reserves a p e.2.2).sum = if a = sender then
      ((orders.filter fun e => e.2.2.property = p).map fun e => e.2.2.amountRemaining).sum
        else 0 := by
  induction orders with
  | nil => simp
  | cons e orders ih =>
    obtain ⟨he, h⟩ := List.forall_mem_cons.mp h
    rw [List.map_cons, List.sum_cons, ih h, MetaDEx.reserves, he]
    by_cases ha : a = sender
    · by_cases hp : e.2.2.property = p
      · simp [ha, hp]
      · simp [ha, hp]
    · simp [ha, Ne.symm ha]

def selectedOrders (s : NodeState) (selected : MetaDEx → Bool) :
    List (PropertyId × ℚ × MetaDEx) :=
  (Book.entries s.metadex).filter fun e => selected e.2.2

def selectedAmount (s : NodeState) (selected : MetaDEx → Bool) (p : PropertyId) : Int :=
  (((s.selectedOrders selected).filter fun e => e.2.2.property = p).map
    fun e => e.2.2.amountRemaining).sum

/-- Exactly the selected orders are removed, exactly their amounts go from the reserve to the
balance of the sender, and the code is zero exactly where there are any. -/
structure CancelsExactly (s : NodeState) (sender : Address) (selected : MetaDEx → Bool) (rc : Int)
    (s' : NodeState) : Prop where
  frame : s' = { s with ledger := s'.ledger, metadex := s'.metadex }
  freeze_eq : s'.ledger.freeze = s.ledger.freeze
  book : ∀ p r o, o ∈ Book.level s'.metadex p r ↔
    o ∈ Book.level s.metadex p r ∧ selected o = false
  balance : ∀ p, s'.ledger.money sender p .balance =
    s.ledger.money sender p .balance + s.selectedAmount selected p
  reserve : ∀ p, s'.ledger.money sender p .metadexReserve =
    s.ledger.money sender p .metadexReserve - s.selectedAmount selected p
  others : ∀ a p t, ¬ (a = sender ∧ (t = .balance ∨ t = .metadexReserve)) →
    s'.ledger.money a p t = s.ledger.money a p t
  rc_eq_zero : rc = 0 ↔ ∃ p r, ∃ o ∈ Book.level s.metadex p r, selected o = true

theorem Refunded.cancelsExactly (h : Refunded (s.selectedOrders selected) s s') (hrc : rc ≠ 0)
    (hsender : ∀ o, selected o = true → o.addr = sender) :
    CancelsExactly s sender selected (if s.selectedOrders selected = [] then rc else 0) s' := by
  have howner : ∀ e ∈ s.selectedOrders selected, e.2.2.addr = sender :=
    fun e he => hsender _ (List.mem_filter.mp he).2
  have hmoney (a : Address) (p : PropertyId) (t : TallyType) := h.posted.money_eq a p t
  simp only [net_refunds, sum_reserves howner] at hmoney
  refine ⟨h.frame, h.posted.freeze_eq, ?_, ?_, ?_, ?_, ?_⟩
  · intro p r o
    rw [← Book.mem_entries, h.mem_entries, ← Book.mem_entries, selectedOrders, List.mem_filter]
    cases hsel : selected o <;> simp
  · intro p
    rw [hmoney]
    simp [selectedAmount]
  · intro p
    rw [hmoney]
    simp [selectedAmount, sub_eq_add_neg]
  · intro a p t hother
    rw [hmoney]
    by_cases ha : a = sender
    · simp only [ha, true_and, not_or] at hother
      simp [hother.1, hother.2]
    · simp [ha]
  · have hnil : s.selectedOrders selected = [] ↔
        ¬ ∃ p r, ∃ o ∈ Book.level s.metadex p r, selected o = true := by
      rw [selectedOrders, List.filter_eq_nil_iff]
      constructor
      · rintro hnone ⟨p, r, o, ho, hsel⟩
        exact hnone (p, r, o) (Book.mem_entries.mpr ho) hsel
      · rintro hnone ⟨p, r, o⟩ ho hsel
        exact hnone ⟨p, r, o, Book.mem_entries.mp ho, hsel⟩
    by_cases hempty : s.selectedOrders selected = []
    · rw [if_pos hempty]
      exact iff_of_false hrc (hnil.mp hempty)
    · rw [if_neg hempty]
      exact iff_of_true rfl (not_not.mp fun hnone => hempty (hnil.mpr hnone))

theorem cancelsExactly_of_cancelOrders (h : s.BookInvariant)
    {filter : PropertyId × ℚ × MetaDEx → Bool}
    (hrc : rc ≠ 0) (hsender : ∀ o, selected o = true → o.addr = sender)
    (hfilter : ∀ e ∈ Book.entries s.metadex, filter e = selected e.2.2) :
    ∃ rc' s', s.cancelOrders filter rc = .ok (rc', s') ∧
      CancelsExactly s sender selected rc' s' := by
  have horders : (Book.entries s.metadex).filter filter = s.selectedOrders selected :=
    List.filter_congr hfilter
  have hmem : ∀ e ∈ s.selectedOrders selected, e ∈ Book.entries s.metadex :=
    fun e he => (List.mem_filter.mp he).1
  obtain ⟨s', hs', hrefunded, -⟩ := h.cancelAll hmem ((Book.entries_nodup _).filter _)
  refine ⟨_, s', ?_, hrefunded.cancelsExactly hrc hsender⟩
  rw [cancelOrders, horders, hs', ok_bind]
  rfl

theorem cancelsExactly_of_get?_eq_none (h : s.BookInvariant) {prop : PropertyId} (hrc : rc ≠ 0)
    (hselected : ∀ o, selected o = true → o.addr = sender ∧ o.property = prop)
    (hnone : s.metadex.get? prop = none) : CancelsExactly s sender selected rc s := by
  have hempty : s.selectedOrders selected = [] := by
    rw [selectedOrders, List.filter_eq_nil_iff]
    rintro ⟨p, r, o⟩ ho hsel
    have hlevel := Book.mem_entries.mp ho
    rw [Book.level, (h.place hlevel).1.trans (hselected o hsel).2, hnone] at hlevel
    exact Keyed.not_mem_empty hlevel
  have hrefunded : Refunded (s.selectedOrders selected) s s := by
    rw [hempty]
    exact ⟨rfl, .nil _, by simp⟩
  have hexact := hrefunded.cancelsExactly hrc fun o ho => (hselected o ho).1
  rw [if_pos hempty] at hexact
  exact hexact

def inEcosystem (ecosystem : Nat) (p : PropertyId) : Bool :=
  if ecosystem = 1 then isMainEcosystemProperty p else isTestEcosystemProperty p

/-- The three cancellations remove exactly the orders of the sender that they are for. -/
theorem cancellations_exact (h : s.BookInvariant) (sender : Address) :
    (∀ prop amount desired amountDesired, ∃ rc s',
      s.metaDExCancelAtPrice sender prop amount desired amountDesired = .ok (rc, s') ∧
        CancelsExactly s sender (fun o => o.addr = sender && o.property = prop &&
          o.desProperty = desired && o.unitPrice = (amountDesired : ℚ) / amount) rc s') ∧
    (∀ prop desired, ∃ rc s', s.metaDExCancelAllForPair sender prop desired = .ok (rc, s') ∧
        CancelsExactly s sender
          (fun o => o.addr = sender && o.property = prop && o.desProperty = desired) rc s') ∧
    ∀ ecosystem, ecosystem = 1 ∨ ecosystem = 2 → ∃ rc s',
      s.metaDExCancelEverything sender ecosystem = .ok (rc, s') ∧
        CancelsExactly s sender (fun o => o.addr = sender && inEcosystem ecosystem o.property)
          rc s' := by
  refine ⟨?_, ?_, ?_⟩
  · intro prop amount desired amountDesired
    have hselected : ∀ o : MetaDEx, (o.addr = sender && o.property = prop &&
        o.desProperty = desired && o.unitPrice = (amountDesired : ℚ) / amount) = true →
        o.addr = sender ∧ o.property = prop := by
      intro o ho
      simp only [Bool.and_eq_true, decide_eq_true_eq] at ho
      exact ho.1.1
    rw [metaDExCancelAtPrice]
    cases hbook : s.metadex.get? prop with
    | none => exact ⟨_, s, rfl, cancelsExactly_of_get?_eq_none h (by decide) hselected hbook⟩
    | some prices =>
      refine cancelsExactly_of_cancelOrders h (by decide) (fun o ho => (hselected o ho).1) ?_
      rintro ⟨p, r, o⟩ ho
      obtain ⟨rfl, rfl⟩ := h.place (Book.mem_entries.mp ho)
      dsimp only
      ac_rfl
  · intro prop desired
    have hselected : ∀ o : MetaDEx, (o.addr = sender && o.property = prop &&
        o.desProperty = desired) = true → o.addr = sender ∧ o.property = prop := by
      intro o ho
      simp only [Bool.and_eq_true, decide_eq_true_eq] at ho
      exact ho.1
    rw [metaDExCancelAllForPair]
    cases hbook : s.metadex.get? prop with
    | none => exact ⟨_, s, rfl, cancelsExactly_of_get?_eq_none h (by decide) hselected hbook⟩
    | some prices =>
      refine cancelsExactly_of_cancelOrders h (by decide) (fun o ho => (hselected o ho).1) ?_
      rintro ⟨p, r, o⟩ ho
      obtain ⟨rfl, rfl⟩ := h.place (Book.mem_entries.mp ho)
      dsimp only
      ac_rfl
  · intro ecosystem heco
    refine cancelsExactly_of_cancelOrders h (by decide) ?_ ?_
    · intro o ho
      simp only [Bool.and_eq_true, decide_eq_true_eq] at ho
      exact ho.1
    · rintro ⟨p, r, o⟩ ho
      obtain ⟨rfl, rfl⟩ := h.place (Book.mem_entries.mp ho)
      have hmain : isMainEcosystemProperty 1 = true ∧ isTestEcosystemProperty 1 = false := by decide
      have htest : isMainEcosystemProperty 2 = false ∧ isTestEcosystemProperty 2 = true := by decide
      rcases heco with rfl | rfl
      · simp [inEcosystem, hmain, Bool.and_comm]
      · simp [inEcosystem, htest, Bool.and_comm]

end NodeState

/-- Each of the three cancels of one owner leaves the other owner's order. -/
theorem cancels_sampleLevels :
    (Book.entries sampleLevels.metadex).map (fun e => e.2.2) =
        [sampleCheapOrder, sampleOrder, sampleDearOrder] ∧
      (∃ rc s', sampleLevels.metaDExCancelAtPrice ['A'] 3 50 4 100 = .ok (rc, s') ∧
        NodeState.CancelsExactly sampleLevels ['A'] (fun o => o.addr = ['A'] && o.property = 3 &&
          o.desProperty = 4 && o.unitPrice = ((100 : Int) : ℚ) / (50 : Int)) rc s') ∧
      (∃ rc s', sampleLevels.metaDExCancelAllForPair ['A'] 3 4 = .ok (rc, s') ∧
        NodeState.CancelsExactly sampleLevels ['A']
          (fun o => o.addr = ['A'] && o.property = 3 && o.desProperty = 4) rc s') ∧
      ∃ rc s', sampleLevels.metaDExCancelEverything ['A'] 1 = .ok (rc, s') ∧
        NodeState.CancelsExactly sampleLevels ['A']
          (fun o => o.addr = ['A'] && NodeState.inEcosystem 1 o.property) rc s' := by
  obtain ⟨hprice, hpair, heverything⟩ :=
    NodeState.cancellations_exact bookInvariant_sampleLevels ['A']
  exact ⟨by decide +kernel, hprice 3 50 4 100, hpair 3 4, heverything 1 (.inl rfl)⟩

end TradeLayer
