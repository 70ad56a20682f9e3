import TradeLayer.MetaDExPriority

namespace TradeLayer
open Library

variable {s s' m : NodeState} {env : Environment} {pnew pnew' o rest : MetaDEx} {v w : Visit}
variable {visits before after : List Visit} {offers : List (ℚ × MetaDEx)}

theorem Visit.paid_of_fill {got paid : Int} (h : v.fill = some (got, paid)) : v.paid = paid := by
  rw [Visit.paid, h]
  rfl

theorem Visit.got_of_fill {got paid : Int} (h : v.fill = some (got, paid)) : v.got = got := by
  rw [Visit.got, h]
  rfl

def Visit.Spares (v : Visit) (price : ℚ) (o : MetaDEx) : Prop :=
  v.fill ≠ none → priority (v.pold.unitPrice, v.pold) ≠ priority (price, o)

def Visit.Leaves (v : Visit) (price : ℚ) (o : MetaDEx) : Prop :=
  price = v.pold.unitPrice ∧ v.fill ≠ none ∧ 0 < v.pold.amountRemaining - v.got ∧
    o = { v.pold with amountRemaining := v.pold.amountRemaining - v.got }

theorem Visit.Leaves.priority_eq {price : ℚ} (h : v.Leaves price o) :
    priority (price, o) = priority (v.pold.unitPrice, v.pold) := by
  obtain ⟨rfl, -, -, rfl⟩ := h
  rfl

theorem Passes.eq_afterOffers (h : Passes pnew visits pnew') (hwant : 0 < pnew.amountDesired) :
    pnew' = pnew.afterOffers (visits.map Visit.pold) := by
  induction h with
  | nil => rfl
  | @cons pnew pold pnew' x visits hfill h ih =>
    have hstep : pnew.afterOffer pold = { pnew with amountRemaining :=
        pnew.amountRemaining - (Visit.mk pnew pold).paid } := by
      rw [MetaDEx.afterOffer]
      rcases x with _ | ⟨got, paid⟩
      · rw [if_neg (MetaDEx.not_executable_of_fill hwant hfill), Visit.paid,
          Visit.fill_eq (v := ⟨pnew, pold⟩) hfill]
        simp
      · obtain ⟨-, -, rfl, rfl⟩ := MetaDEx.amounts_of_fill hfill
        rw [if_pos (MetaDEx.executable_of_fill hwant hfill),
          Visit.paid_of_fill (Visit.fill_eq (v := ⟨pnew, pold⟩) hfill)]
    rw [List.map_cons, MetaDEx.afterOffers, List.foldl_cons, hstep]
    exact ih hwant

namespace NodeState

theorem eq_afterOffers_of_visitOffers
    (h : visitOffers env offers pnew s = .ok (visits, pnew', s'))
    (hwant : 0 < pnew.amountDesired) : pnew' = pnew.afterOffers (offers.map Prod.snd) := by
  obtain ⟨hpass, ⟨others, hothers⟩, hall⟩ := passes_of_visitOffers h
  have hsplit : offers.map Prod.snd = visits.map Visit.pold ++ others.map Prod.snd := by
    rw [← hothers, List.map_append, List.map_map]
    rfl
  rw [hsplit, MetaDEx.afterOffers, List.foldl_append]
  change pnew' = (pnew.afterOffers _).afterOffers _
  rw [← hpass.eq_afterOffers hwant]
  by_cases hzero : pnew'.amountRemaining = 0
  · rw [MetaDEx.afterOffers_of_zero hzero]
  · have hlength := congrArg List.length hothers
    rw [List.length_append, List.length_map, hall hzero] at hlength
    rw [List.length_eq_zero_iff.mp (by omega : others.length = 0)]
    rfl

theorem mem_level_of_matchOrder {e : ℚ × MetaDEx} (price : ℚ) (o : MetaDEx)
    (h : s.matchOrder env e.1 pnew e.2 = .ok (pnew', m)) :
    o ∈ Book.level m.metadex pnew.desProperty price ↔
      o ∈ Book.level s.metadex pnew.desProperty price ∧ (Visit.mk pnew e.2).Spares price o ∨
        (Visit.mk pnew e.2).Leaves price o := by
  obtain ⟨hprice, ⟨hfill, -, rfl⟩ | ⟨got, paid, hfill, hexec, -⟩⟩ := matchOrder_eq_ok h
  · have hnone := Visit.fill_eq (v := ⟨pnew, e.2⟩) hfill
    simp [Visit.Spares, Visit.Leaves, hnone]
  · have hsome := Visit.fill_eq (v := ⟨pnew, e.2⟩) hfill
    have hpriority : priority (e.1, e.2) = priority (price, o) ↔
        price = e.1 ∧ o.position = e.2.position := by
      rw [priority, priority, toLex_inj, Prod.mk.injEq]
      exact and_congr eq_comm eq_comm
    rw [mem_level_executeTrade hexec, Visit.Spares, Visit.Leaves, Visit.got_of_fill hsome, hsome]
    simp only [ne_eq, reduceCtorEq, not_false_eq_true, true_imp_iff, true_and, hprice, hpriority]
    exact or_congr_right and_left_comm

/-- The orders of a book after visits: those that were not bought from stay, and of those that
were bought in part the rest. -/
theorem mem_level_of_visitOffers
    (h : visitOffers env offers pnew s = .ok (visits, pnew', s'))
    (hsorted : offers.Pairwise fun a b => priority a < priority b) {price : ℚ} :
    o ∈ Book.level s'.metadex pnew.desProperty price ↔
      o ∈ Book.level s.metadex pnew.desProperty price ∧ (∀ v ∈ visits, v.Spares price o) ∨
        ∃ v ∈ visits, v.Leaves price o := by
  induction offers generalizing pnew s visits with
  | nil =>
    cases h
    simp
  | cons e offers ih =>
    obtain ⟨⟨pmid, m⟩, hm, h⟩ := bind_eq_ok.mp h
    obtain ⟨hfirst, hsorted⟩ := List.pairwise_cons.mp hsorted
    have hstep := mem_level_of_matchOrder price o hm
    have hdes : pmid.desProperty = pnew.desProperty := by rw [pnew_of_matchOrder hm]
    have hprice := (matchOrder_eq_ok hm).1
    dsimp only at h
    split_ifs at h with hzero
    · cases h
      rw [hstep]
      simp
    · obtain ⟨⟨vs, r⟩, hr, h⟩ := bind_eq_ok.mp h
      cases h
      have hbegins := (passes_of_visitOffers hr).2.1
      -- the visits that follow are of orders behind the first one
      have hlater : (Visit.mk pnew e.2).Leaves price o → ∀ w ∈ vs, w.Spares price o := by
        intro hrest w hw _ heq
        have hbehind := hfirst _ (hbegins.subset (List.mem_map.mpr ⟨w, hw, rfl⟩))
        rw [heq, hrest.priority_eq, hprice] at hbehind
        exact lt_irrefl _ hbehind
      have hih := ih hr hsorted
      rw [hdes] at hih
      rw [hih, hstep]
      rw [List.forall_mem_cons, List.exists_mem_cons_iff]
      constructor
      · rintro (⟨⟨ho, hkeep⟩ | hrest, hvs⟩ | hex)
        · exact .inl ⟨ho, hkeep, hvs⟩
        · exact .inr (.inl hrest)
        · exact .inr (.inr hex)
      · rintro (⟨ho, hkeep, hvs⟩ | hrest | hex)
        · exact .inl ⟨.inl ⟨ho, hkeep⟩, hvs⟩
        · exact .inl ⟨.inr hrest, hlater hrest⟩
        · exact .inr hex

theorem sums_of_later {after : List Visit} (hf : 0 < o.amountForSale)
    (hwant : 0 < pnew.amountDesired)
    (h : ∀ w ∈ after, w.pnew.amountForSale = pnew.amountForSale ∧
      w.pnew.amountDesired = pnew.amountDesired ∧ o.unitPrice ≤ w.pold.unitPrice) :
    (after.map Visit.paid).sum * pnew.amountDesired ≤
        (after.map Visit.got).sum * pnew.amountForSale ∧
      (after.map Visit.got).sum * o.amountDesired ≤
        (after.map Visit.paid).sum * o.amountForSale := by
  induction after with
  | nil => simp
  | cons w after ih =>
    obtain ⟨⟨hsale, hdesired, hprice⟩, hrest⟩ := List.forall_mem_cons.mp h
    obtain ⟨hpaid, hgot⟩ := ih hrest
    have hvisit : w.paid * pnew.amountDesired ≤ w.got * pnew.amountForSale ∧
        w.got * o.amountDesired ≤ w.paid * o.amountForSale := by
      cases hfill : w.fill with
      | none => simp [Visit.paid, Visit.got, hfill]
      | some x =>
        obtain ⟨got, paid⟩ := x
        have hfill' := Visit.fill_eq_some.mp hfill
        rw [Visit.paid_of_fill hfill, Visit.got_of_fill hfill, ← hsale, ← hdesired]
        obtain ⟨hold, hnew⟩ := fair_of_fill hfill' (by rw [hdesired]; exact hwant)
        obtain ⟨hf', -, -, -⟩ := MetaDEx.amounts_of_fill hfill'
        obtain ⟨-, -, hpos, -⟩ := MetaDEx.fill_eq_some hfill'
        rw [MetaDEx.unitPrice_le_unitPrice hf hf'] at hprice
        refine ⟨hnew, le_of_mul_le_mul_right ?_ hf'⟩
        calc got * o.amountDesired * w.pold.amountForSale
            = got * (o.amountDesired * w.pold.amountForSale) := mul_assoc ..
          _ ≤ got * (w.pold.amountDesired * o.amountForSale) :=
              mul_le_mul_of_nonneg_left hprice hpos.le
          _ = got * w.pold.amountDesired * o.amountForSale := (mul_assoc ..).symm
          _ ≤ paid * w.pold.amountForSale * o.amountForSale :=
              mul_le_mul_of_nonneg_right hold hf.le
          _ = paid * o.amountForSale * w.pold.amountForSale := mul_right_comm ..
    simp only [List.map_cons, List.sum_cons, add_mul]
    exact ⟨add_le_add hvisit.1 hpaid, add_le_add hvisit.2 hgot⟩

theorem level_of_metaDExAdd {a : Address} {block n d rc : Int} {p q : PropertyId}
    {txid idx : Nat} (hne : p ≠ q)
    (htrade : s.xTrade env (.incoming a block p n q d txid idx) = .ok (rest, m))
    (hprice : 0 < (MetaDEx.incoming a block p n q d txid idx).unitPrice)
    (hadd : s.metaDExAdd env a p n block q d txid idx = .ok (rc, s')) (price : ℚ) :
    Book.level s'.metadex q price = Book.level m.metadex q price := by
  have hrest : rest.property = p :=
    congrArg MetaDEx.property (incoming_of_trades (trades_of_xTrade htrade)).1
  have hkey : ¬ (q = rest.property ∧ price = rest.unitPrice) := by
    rintro ⟨rfl, -⟩
    exact hne hrest.symm
  rw [metaDExAdd, if_neg hprice.not_ge, htrade, ok_bind] at hadd
  dsimp only at hadd
  split_ifs at hadd
  · rw [metaDExInsert] at hadd
    split_ifs at hadd
    · cases hadd
      rfl
    · obtain ⟨t, ht, hadd⟩ := bind_eq_ok.mp hadd
      cases hadd
      rw [(posted_of_assertTallies ht).1]
      dsimp only
      rw [Book.file, Book.level_setLevel, if_neg hkey]
  · cases hadd
    rfl

end NodeState

namespace Passes

variable (h : Passes pnew visits pnew') (hvisits : visits = before ++ v :: after)

include h hvisits

theorem left_eq : pnew'.amountRemaining =
    v.pnew.amountRemaining - v.paid - (after.map Visit.paid).sum := by
  subst hvisits
  have hpnew := h.split.2.2.pnew_eq
  rw [List.map_cons, List.sum_cons, ← sub_sub] at hpnew
  exact congrArg MetaDEx.amountRemaining hpnew

theorem not_executable_of_partial (hfill : v.fill ≠ none)
    (hpart : v.got < v.pold.amountRemaining) (hsale : o.amountForSale = v.pold.amountForSale)
    (hdesired : o.amountDesired = v.pold.amountDesired) : ¬ MetaDEx.Executable pnew' o := by
  rintro ⟨-, -, hpos, -⟩
  obtain ⟨⟨got, paid⟩, hx⟩ := Option.ne_none_iff_exists'.mp hfill
  obtain ⟨hf, hd, hgot, hpaid⟩ := MetaDEx.amounts_of_fill (Visit.fill_eq_some.mp hx)
  have hleft := h.left_eq hvisits
  have hsum := sum_paid_nonneg after
  rw [Visit.got_of_fill hx] at hpart
  rw [Visit.paid_of_fill hx, hpaid] at hleft
  have hprice : v.pold.unitPrice ≤ o.unitPrice := by
    rw [MetaDEx.unitPrice, MetaDEx.unitPrice, hsale, hdesired]
  have hnone := MetaDEx.affordable_of_partial hf hd (hsale ▸ hf) (hdesired ▸ hd) hprice hgot
    hpart (by omega : pnew'.amountRemaining ≤ v.pnew.amountRemaining - v.pold.cost got)
  exact absurd hpos hnone.not_gt

/-- An order whose whole rest is too dear was not bought whole, and if it can be bought in the
end, then it was not bought at all. -/
theorem fill_eq_none_of_tooDear (hwant : 0 < pnew.amountDesired)
    (hdear : MetaDEx.TooDear pnew v.pold) (hexec : MetaDEx.Executable pnew' v.pold) :
    v.fill = none := by
  by_contra hfill
  obtain ⟨⟨got, paid⟩, hx⟩ := Option.ne_none_iff_exists'.mp hfill
  have hx' := Visit.fill_eq_some.mp hx
  obtain ⟨-, -, -, hpaid⟩ := MetaDEx.amounts_of_fill hx'
  obtain ⟨-, hwithin, -, -⟩ := MetaDEx.fill_eq_some hx'
  rcases (sub_nonneg.mp hwithin.2.2.1).eq_or_lt with hall | hpart
  · have hpnew := (hvisits ▸ h).split.1
    have hfair := (fair_of_fill hx' (by rw [hpnew]; exact hwant)).2
    rw [hpaid, hall, hpnew] at hfair
    exact absurd hdear hfair.not_gt
  · exact h.not_executable_of_partial hvisits hfill (by rwa [Visit.got_of_fill hx]) rfl rfl hexec

theorem tooDear_of_executable (hwant : 0 < pnew.amountDesired) (hsale : 0 ≤ pnew.amountForSale)
    (hsorted : ∀ w ∈ after, v.pold.unitPrice ≤ w.pold.unitPrice) (hfill : v.fill = none)
    (hexec : MetaDEx.Executable pnew' v.pold) : MetaDEx.TooDear pnew v.pold := by
  obtain ⟨hdes, hprice, hpos, hlimit⟩ := hexec
  have hleft := h.left_eq hvisits
  have hpnew := h.pnew_eq
  subst hvisits
  obtain ⟨hvnew, ⟨x, hx⟩, hrest⟩ := h.split
  have hpaid : v.paid = 0 := by rw [Visit.paid, hfill]; rfl
  rw [hpaid, sub_zero] at hleft
  rw [Visit.fill_eq hx] at hfill
  subst hfill
  have hdes' : v.pold.desProperty = v.pnew.property := by
    rw [hdes, hpnew, hvnew]
  have hsum := sum_paid_nonneg after
  obtain ⟨hf, hd, hzero | ⟨hfpos, hcould, hdear⟩⟩ := MetaDEx.skipped_of_fill hx hdes'
  · have hmono : MetaDEx.affordable pnew'.amountRemaining v.pold ≤
        MetaDEx.affordable v.pnew.amountRemaining v.pold :=
      MetaDEx.affordable_mono hf hd (by omega)
    omega
  · have hterms : v.pnew.amountForSale = pnew.amountForSale ∧
        v.pnew.amountDesired = pnew.amountDesired := by
      rw [hvnew]
      exact ⟨rfl, rfl⟩
    rw [MetaDEx.inversePrice_lt_iff (hterms.2 ▸ hwant) hcould, hterms.1, hterms.2] at hdear
    have hsame : pnew'.amountForSale = pnew.amountForSale ∧
        pnew'.amountDesired = pnew.amountDesired ∧ pnew'.inversePrice = pnew.inversePrice := by
      rw [hpnew]
      exact ⟨rfl, rfl, rfl⟩
    rw [hsame.2.2] at hprice
    rw [hsame.1, hsame.2.1, hleft] at hlimit
    rw [hleft] at hpos
    have hlater : ∀ w ∈ after, w.pnew.amountForSale = pnew.amountForSale ∧
        w.pnew.amountDesired = pnew.amountDesired ∧ v.pold.unitPrice ≤ w.pold.unitPrice := by
      intro w hw
      obtain ⟨first, second, rfl⟩ := List.append_of_mem hw
      rw [← List.cons_append, ← List.append_assoc] at h
      have hwnew := h.split.1
      rw [hwnew]
      exact ⟨rfl, rfl, hsorted w hw⟩
    obtain ⟨hpaidSum, hgotSum⟩ := NodeState.sums_of_later hfpos hwant hlater
    exact MetaDEx.tooDear_of_skipped hfpos hd hwant
      ((MetaDEx.unitPrice_le_inversePrice hfpos hwant).mp hprice) hdear hsale hpaidSum hgotSum hsum
      hpos hlimit

end Passes

end TradeLayer
