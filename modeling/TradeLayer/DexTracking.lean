import TradeLayer.DexHistories

namespace TradeLayer
open Library

variable {log : DexLog} {o o' pnew pnew' : MetaDEx} {s s' m : NodeState} {env : Environment}
variable {b b' : MdPropertiesMap} {fills : List DexFill} {visits : List Visit} {txid : Nat}

theorem Passes.remaining_nonneg (h : Passes pnew visits pnew') (hpos : 0 ≤ pnew.amountRemaining) :
    0 ≤ pnew'.amountRemaining := by
  induction h with
  | nil => exact hpos
  | @cons pnew pold pnew' x visits hfill h ih =>
    apply ih
    have hx := Visit.fill_eq (v := ⟨pnew, pold⟩) hfill
    rw [Visit.paid, hx]
    cases x with
    | none => simpa using hpos
    | some f => exact (MetaDEx.fill_eq_some hfill).2.1.2.2.2

namespace NodeState

/-- Everything the placing of a proper order can do. -/
theorem metaDExAdd_visits {a : Address} {p q : PropertyId} {n block d rc : Int} {txid idx : Nat}
    (hn : 0 < n) (hd : 0 < d) (h : s.metaDExAdd env a p n block q d txid idx = .ok (rc, s')) :
    ∃ visits o m, visitOffers env (s.offers (.incoming a block p n q d txid idx))
        (.incoming a block p n q d txid idx) s = .ok (visits, o, m) ∧
      (0 < o.amountRemaining ∧
          (Book.level m.metadex o.property o.unitPrice).contains o.position = true ∨
        0 < o.amountRemaining ∧
          (Book.level m.metadex o.property o.unitPrice).find? o.position = none ∧
          s'.metadex = Book.file m.metadex o.property o.unitPrice o ∨
        o.amountRemaining ≤ 0 ∧ s'.metadex = m.metadex) := by
  have hprice : 0 < (MetaDEx.incoming a block p n q d txid idx).unitPrice :=
    div_pos (Int.cast_pos.mpr hd) (Int.cast_pos.mpr hn)
  have hne : (MetaDEx.incoming a block p n q d txid idx).amountRemaining ≠ 0 := hn.ne'
  rw [metaDExAdd] at h
  dsimp only at h
  rw [if_neg hprice.not_ge, xTrade_eq hne] at h
  obtain ⟨⟨o, m⟩, hm, h⟩ := bind_eq_ok.mp h
  obtain ⟨⟨visits, r⟩, hvisit, hr⟩ := exists_ok_of_map hm
  cases hr
  refine ⟨visits, o, m, hvisit, ?_⟩
  dsimp only at h
  split_ifs at h with hrem
  · by_cases hc : (Book.level m.metadex o.property o.unitPrice).contains o.position = true
    · exact .inl ⟨hrem, hc⟩
    · simp only [metaDExInsert, hc, if_false, Bool.false_eq_true] at h
      obtain ⟨t, ht, h⟩ := bind_eq_ok.mp h
      cases h
      refine .inr (.inl ⟨hrem, ?_, by rw [(posted_of_assertTallies ht).1]⟩)
      rw [Keyed.find?_eq_none]
      exact fun x hx hp => hc (Keyed.contains_eq_true.mpr ⟨x, hx, hp⟩)
  · cases h
    exact .inr (.inr ⟨not_lt.mp hrem, rfl⟩)

theorem level_of_cancels (h : Cancels s s') {p : PropertyId} {r : ℚ}
    (ho : o ∈ Book.level s'.metadex p r) : o ∈ Book.level s.metadex p r := by
  induction h with
  | refl => exact ho
  | tail _ hc ih =>
    cases hc with
    | remove hmem hrun =>
      obtain ⟨m, -, rfl⟩ := cancelOrder_cases hrun
      exact ih (Book.mem_level_remove.mp ho).1

end NodeState

namespace DexLog

theorem metaDExIsOpen_iff {p : PropertyId} : metaDExIsOpen b txid p = true ↔
    ∃ q r o, o ∈ Book.level b q r ∧ (p = 0 ∨ p = q) ∧ o.txid = txid := by
  rw [metaDExIsOpen, List.any_eq_true]
  constructor
  · rintro ⟨⟨q, r, o⟩, he, hopen⟩
    exact ⟨q, r, o, Book.mem_entries.mp he, by simpa using hopen⟩
  · rintro ⟨q, r, o, ho, hopen⟩
    exact ⟨(q, r, o), Book.mem_entries.mpr ho, by simpa using hopen⟩

theorem Tracks.isOpen_iff (h : log.Tracks b) (ho : o ∈ log.orders) :
    metaDExIsOpen b o.txid o.property = true ↔
      o.txid ∉ log.removed ∧ log.sold o.txid < o.amountForSale := by
  rw [metaDExIsOpen_iff]
  constructor
  · rintro ⟨q, r, o', ho', -, htxid⟩
    obtain ⟨o₁, ho₁, -, -, rfl, hin, hlt⟩ := (h.mem_level _ _ _).mp ho'
    obtain rfl : o₁ = o := h.eq_of_txid_eq ho₁ ho htxid
    exact ⟨hin, hlt⟩
  · rintro ⟨hin, hlt⟩
    exact ⟨o.property, o.unitPrice, log.rest o,
      (h.mem_level _ _ _).mpr ⟨o, ho, rfl, rfl, rfl, hin, hlt⟩, .inr rfl, rfl⟩

theorem mem_removed_cancelled : txid ∈ (log.cancelled b b').removed ↔ txid ∈ log.removed ∨
    ∃ p r o, o ∈ Book.level b p r ∧ metaDExIsOpen b' o.txid p = false ∧ o.txid = txid := by
  simp only [cancelled, List.mem_append, List.mem_map, List.mem_filter, Prod.exists,
    Book.mem_entries, Bool.not_eq_true', and_assoc]

theorem Tracks.eq_rest (h : log.Tracks b) (ho : o ∈ log.orders) {p : PropertyId} {r : ℚ}
    (ho' : o' ∈ Book.level b p r) (htxid : o'.txid = o.txid) :
    p = o.property ∧ r = o.unitPrice ∧ o' = log.rest o := by
  obtain ⟨o₁, ho₁, rfl, rfl, rfl, -⟩ := (h.mem_level _ _ _).mp ho'
  obtain rfl : o₁ = o := h.eq_of_txid_eq ho₁ ho htxid
  exact ⟨rfl, rfl, rfl⟩

theorem Tracks.mem_removed_cancelled (h : log.Tracks b)
    (hsub : ∀ p r o, o ∈ Book.level b' p r → o ∈ Book.level b p r) (ho : o ∈ log.orders) :
    o.txid ∈ (log.cancelled b b').removed ↔ o.txid ∈ log.removed ∨
      log.rest o ∈ Book.level b o.property o.unitPrice ∧
        log.rest o ∉ Book.level b' o.property o.unitPrice := by
  rw [DexLog.mem_removed_cancelled]
  refine or_congr_right ⟨?_, ?_⟩
  · rintro ⟨p, r, o', ho', hclosed, htxid⟩
    obtain ⟨rfl, rfl, rfl⟩ := h.eq_rest ho ho' htxid
    refine ⟨ho', fun hopen => ?_⟩
    rw [metaDExIsOpen_iff.mpr ⟨_, _, _, hopen, .inr rfl, rfl⟩] at hclosed
    cases hclosed
  · rintro ⟨hin, hout⟩
    refine ⟨_, _, _, hin, ?_, rfl⟩
    rw [← Bool.not_eq_true, metaDExIsOpen_iff]
    rintro ⟨q, r, o', ho', -, htxid⟩
    obtain ⟨rfl, rfl, rfl⟩ := h.eq_rest ho (hsub _ _ _ ho') htxid
    exact hout ho'

theorem Tracks.cancelled (h : log.Tracks b)
    (hsub : ∀ p r o, o ∈ Book.level b' p r → o ∈ Book.level b p r) :
    (log.cancelled b b').Tracks b' := by
  refine ⟨h.txids, h.positions, fun p r o' => ?_, h.sold_le, fun o ho hin => ?_⟩
  · constructor
    · intro ho'
      obtain ⟨o, ho, rfl, rfl, rfl, hin, hlt⟩ := (h.mem_level _ _ _).mp (hsub _ _ _ ho')
      refine ⟨o, ho, rfl, rfl, rfl, ?_, hlt⟩
      rw [h.mem_removed_cancelled hsub ho]
      rintro (hin' | ⟨-, hout⟩)
      · exact hin hin'
      · exact hout ho'
    · rintro ⟨o, ho, rfl, rfl, rfl, hin, hlt⟩
      rw [h.mem_removed_cancelled hsub ho, not_or, not_and, not_not] at hin
      exact hin.2 ((h.mem_level _ _ _).mpr ⟨o, ho, rfl, rfl, rfl, hin.1, hlt⟩)
  · rcases (h.mem_removed_cancelled hsub ho).mp hin with hin | ⟨hrest, -⟩
    · exact h.removed_lt o ho hin
    · obtain ⟨o₁, ho₁, -, -, heq, -, hlt⟩ := (h.mem_level _ _ _).mp hrest
      have htxid : (log.rest o).txid = (log.rest o₁).txid := by rw [heq]
      obtain rfl : o = o₁ := h.eq_of_txid_eq ho ho₁ htxid
      exact hlt

theorem Proper.cancelled (h : log.Proper) (htracks : log.Tracks b) :
    (log.cancelled b b').Proper := by
  refine { h with removed := fun txid hin => ?_ }
  rcases DexLog.mem_removed_cancelled.mp hin with hin | ⟨p, r, o', ho', -, rfl⟩
  · exact h.removed txid hin
  · obtain ⟨o, ho, -, -, rfl, -⟩ := (htracks.mem_level _ _ _).mp ho'
    exact List.mem_map.mpr ⟨o, ho, rfl⟩

theorem nodup_placed {α : Type} {f : MetaDEx → α} (hnodup : (log.orders.map f).Nodup)
    (hfresh : ∀ o' ∈ log.orders, f o' ≠ f o) : ((log.placed o fills).orders.map f).Nodup := by
  rw [placed, List.map_append, List.nodup_append]
  refine ⟨hnodup, by simp, ?_⟩
  simpa using hfresh

theorem Tracks.placed (hadmits : log.Admits o) (hlog : log.Proper)
    (h : (log.filled fills).Tracks m.metadex)
    (hsold : (log.filled fills).sold o.txid = o.amountForSale - o'.amountRemaining)
    (ho' : o' = { o with amountRemaining := o'.amountRemaining }) (hpos : 0 ≤ o'.amountRemaining)
    (hbook : 0 < o'.amountRemaining ∧
        (Book.level m.metadex o'.property o'.unitPrice).contains o'.position = true ∨
      0 < o'.amountRemaining ∧
        (Book.level m.metadex o'.property o'.unitPrice).find? o'.position = none ∧
        b = Book.file m.metadex o'.property o'.unitPrice o' ∨
      o'.amountRemaining ≤ 0 ∧ b = m.metadex) : (log.placed o fills).Tracks b := by
  have hrest : (log.placed o fills).rest o = o' := by
    rw [ho', rest, show (log.placed o fills).sold = (log.filled fills).sold from rfl, hsold,
      sub_sub_cancel]
  have hkept : o.txid ∉ log.removed := by
    intro hin
    obtain ⟨o₁, ho₁, htxid⟩ := List.mem_map.mp (hlog.removed _ hin)
    exact (hadmits.fresh o₁ ho₁).1 htxid
  have hlevel : ∀ p r o₂, o₂ ∈ Book.level b p r ↔ o₂ ∈ Book.level m.metadex p r ∨
      0 < o'.amountRemaining ∧ p = o.property ∧ r = o.unitPrice ∧ o₂ = o' := by
    intro p r o₂
    rcases hbook with ⟨-, hin⟩ | ⟨hleft, hfree, rfl⟩ | ⟨hdone, rfl⟩
    · -- the position of the order is its own, so it cannot be in the book before it is put there
      obtain ⟨o₃, ho₃, hposition⟩ := Keyed.contains_eq_true.mp hin
      obtain ⟨o₁, ho₁, -, -, rfl, -⟩ := (h.mem_level _ _ _).mp ho₃
      rw [ho'] at hposition
      exact absurd hposition (hadmits.fresh o₁ ho₁).2
    · rw [Book.mem_level_file hfree, ho']
      simp [hleft, MetaDEx.unitPrice]
    · simp [hdone.not_gt]
  refine ⟨nodup_placed h.txids fun o₁ ho₁ => (hadmits.fresh o₁ ho₁).1,
    nodup_placed h.positions fun o₁ ho₁ => (hadmits.fresh o₁ ho₁).2, fun p r o₂ => ?_,
    fun o₁ ho₁ => ?_, fun o₁ ho₁ hin => ?_⟩
  · have hold := h.mem_level p r o₂
    rw [hlevel, hold]
    constructor
    · rintro (⟨o₁, ho₁, hat⟩ | ⟨hleft, rfl, rfl, rfl⟩)
      · exact ⟨o₁, List.mem_append_left _ ho₁, hat⟩
      · refine ⟨o, by simp [DexLog.placed], rfl, rfl, hrest.symm, hkept, ?_⟩
        exact hsold.trans_lt (by omega)
    · rintro ⟨o₁, ho₁, hp, hr, hat, hin, hlt⟩
      rcases List.mem_append.mp ho₁ with ho₁ | ho₁
      · exact .inl ⟨o₁, ho₁, hp, hr, hat, hin, hlt⟩
      · obtain rfl := List.mem_singleton.mp ho₁
        replace hlt := hsold.symm.trans_lt hlt
        exact .inr ⟨by omega, hp, hr, hat.trans hrest⟩
  · rcases List.mem_append.mp ho₁ with ho₁ | ho₁
    · exact h.sold_le o₁ ho₁
    · obtain rfl := List.mem_singleton.mp ho₁
      exact hsold.trans_le (by omega)
  · rcases List.mem_append.mp ho₁ with ho₁ | ho₁
    · exact h.removed_lt o₁ ho₁ hin
    · obtain rfl := List.mem_singleton.mp ho₁
      exact absurd hin hkept

theorem Proper.placed (hadmits : log.Admits o) (h : log.Proper)
    (hfills : ∀ x ∈ fills, x.Proper log.orders o)
    (hpairs : fills.Pairwise fun x y => x.pold.txid ≠ y.pold.txid) :
    (log.placed o fills).Proper := by
  have hsub : log.orders ⊆ (log.placed o fills).orders := List.subset_append_left _ _
  have ho : o ∈ (log.placed o fills).orders := by simp [DexLog.placed]
  refine ⟨fun o₁ ho₁ => ?_, fun o₁ ho₁ => ?_, fun x hx => ?_, ?_, ?_, fun txid hin => ?_⟩
  · rcases List.mem_append.mp ho₁ with ho₁ | ho₁
    · exact h.orders o₁ ho₁
    · rw [List.mem_singleton.mp ho₁]
      exact hadmits.storable
  · rcases List.mem_append.mp ho₁ with ho₁ | ho₁
    · exact h.forSale o₁ ho₁
    · rw [List.mem_singleton.mp ho₁]
      exact hadmits.forSale
  · rcases List.mem_append.mp hx with hx | hx
    · obtain ⟨taker, htaker, hx⟩ := h.fills x hx
      exact ⟨taker, hsub htaker, hx.mono hsub⟩
    · exact ⟨o, ho, (hfills x hx).mono hsub⟩
  · rw [DexLog.placed, List.pairwise_append]
    refine ⟨h.pairs, hpairs.imp fun hne heq => absurd heq hne, fun x hx y hy _ => ?_⟩
    obtain ⟨taker, htaker, hx⟩ := h.fills x hx
    rw [hx.txid_taker, (hfills y hy).txid_taker]
    exact (hadmits.fresh taker htaker).1
  · simp only [DexLog.placed, List.map_append, List.map_cons, List.map_nil]
    refine (h.records.append_right _).trans ?_
    rw [List.append_assoc, List.append_assoc]
    exact List.Perm.append_left _ List.perm_middle
  · exact List.map_subset _ hsub (h.removed txid hin)

theorem tracks_of_metaDExAdd {a : Address} {p q : PropertyId} {n block d rc : Int} {txid idx : Nat}
    (h : log.Tracks s.metadex) (hlog : log.Proper)
    (hadmits : log.Admits (.incoming a block p n q d txid idx))
    (hrun : s.metaDExAdd env a p n block q d txid idx = .ok (rc, s')) :
    (log.placed (.incoming a block p n q d txid idx)
        (s.fillsOf env (.incoming a block p n q d txid idx))).Tracks s'.metadex ∧
      (log.placed (.incoming a block p n q d txid idx)
        (s.fillsOf env (.incoming a block p n q d txid idx))).Proper := by
  have hn : 0 < n := hadmits.forSale
  have hd : 0 < d := hadmits.desired
  obtain ⟨visits, o, m, hvisit, hbook⟩ := NodeState.metaDExAdd_visits hn hd hrun
  obtain ⟨hpass, -⟩ := NodeState.passes_of_visitOffers hvisit
  have hmem : ∀ e ∈ s.offers (.incoming a block p n q d txid idx),
      e.2 ∈ Book.level s.metadex q e.1 := fun e he => (NodeState.mem_offers.mp he).2
  have hfresh : ∀ o' ∈ log.orders, o'.txid ≠ txid := fun o' ho' => (hadmits.fresh o' ho').1
  have hsorted := NodeState.offers_sorted s (.incoming a block p n q d txid idx)
  have hfills : s.fillsOf env (.incoming a block p n q d txid idx) =
      visits.filterMap s.fillOf := by
    rw [NodeState.fillsOf, hvisit]
  have hsold : (log.filled (visits.filterMap s.fillOf)).sold txid = n - o.amountRemaining := by
    rw [sold_filled, hlog.sold_eq_zero hfresh, zero_add]
    refine (sold_of_visits h hmem hvisit hfresh).trans ?_
    rw [hpass.pnew_eq]
    exact (sub_sub_cancel _ _).symm
  rw [hfills]
  constructor
  · refine Tracks.placed hadmits hlog (h.visits hfresh hmem hsorted hvisit) hsold ?_
      (hpass.remaining_nonneg hn.le) hbook
    rw [hpass.pnew_eq]
  · refine Proper.placed hadmits hlog (fun x hx => ?_) (pairs_of_visits h hmem hvisit hsorted)
    obtain ⟨v, hv, hx⟩ := List.mem_filterMap.mp hx
    refine proper_of_visit h hlog hmem hvisit ?_ hv hx
    exact Int.le_sub_one_of_lt hadmits.storable.amountForSale.2

end DexLog

theorem NodeState.level_of_call {c : MetaDExCall} {rc : Int} (hc : c.position = none)
    (h : c.call env s = .ok (rc, s')) {p : PropertyId} {r : ℚ}
    (ho : o ∈ Book.level s'.metadex p r) : o ∈ Book.level s.metadex p r := by
  have hcancels : ∀ {rc : Int}, (rc < 0 ∧ s' = s ∨ rc = 0 ∧ NodeState.Cancels s s') →
      o ∈ Book.level s.metadex p r := by
    rintro rc (⟨-, rfl⟩ | ⟨-, hc⟩)
    · exact ho
    · exact level_of_cancels hc ho
  cases c with
  | add => cases hc
  | cancelAtPrice => exact hcancels (metaDExCancelAtPrice_cases h)
  | cancelAllForPair => exact hcancels (metaDExCancelAllForPair_cases h)
  | cancelEverything => exact hcancels (metaDExCancelEverything_cases h)
  | shutdown => exact level_of_cancels (cancels_of_metaDExShutdown h) ho

theorem DexHistory.tracks (h : DexHistory b log) : log.Tracks b ∧ log.Proper := by
  induction h with
  | empty =>
    refine ⟨⟨.nil, .nil, ?_, ?_, ?_⟩, ⟨?_, ?_, ?_, .nil, .nil, ?_⟩⟩ <;> simp [Book.level]
  | add _ hadmits hrun ih => exact DexLog.tracks_of_metaDExAdd ih.1 ih.2 hadmits hrun
  | cancel _ hc hrun ih =>
    exact ⟨ih.1.cancelled fun _ _ _ => NodeState.level_of_call hc hrun, ih.2.cancelled ih.1⟩
  | shutdownAllPair _ hrun ih =>
    have hcancels := NodeState.cancels_of_metaDExShutdownAllPair hrun
    exact ⟨ih.1.cancelled fun _ _ _ => NodeState.level_of_cancels hcancels, ih.2.cancelled ih.1⟩

end TradeLayer
