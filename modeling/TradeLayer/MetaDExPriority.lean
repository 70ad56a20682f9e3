import TradeLayer.BookInvariant
import TradeLayer.MetaDExVisits

namespace TradeLayer
open Library

/-- An order is passed over because no unit of it can be bought with what the incoming order has
left, or because its rounded price is above the limit. -/
def Visit.Skips (v : Visit) : Prop :=
  v.fill = none ∧
    (MetaDEx.affordable v.pnew.amountRemaining v.pold = 0 ∨
      v.pnew.inversePrice <
        (v.pold.cost (MetaDEx.affordable v.pnew.amountRemaining v.pold) : ℚ) /
          MetaDEx.affordable v.pnew.amountRemaining v.pold)

def Visit.FillsAll (v : Visit) : Prop :=
  ∃ paid, v.fill = some (v.pold.amountRemaining, paid)

/-- Price and time decide which resting orders an incoming order trades with. -/
structure PriceTimePriority (s : NodeState) (pnew : MetaDEx) (visits : List Visit) : Prop where
  increasing : visits.Pairwise fun v w =>
    priority (v.pold.unitPrice, v.pold) < priority (w.pold.unitPrice, w.pold)
  resting : ∀ v ∈ visits, v.pold ∈ Book.level s.metadex pnew.desProperty v.pold.unitPrice
  left : ∀ done v rest, visits = done ++ v :: rest → v.pnew = { pnew with
    amountRemaining := pnew.amountRemaining - (done.map Visit.paid).sum }
  earlier : ∀ done v rest, visits = done ++ v :: rest → v.fill ≠ none →
    ∀ price o, o ∈ Book.level s.metadex pnew.desProperty price →
      priority (price, o) < priority (v.pold.unitPrice, v.pold) →
      o.desProperty = pnew.property → price ≤ pnew.inversePrice →
      ∃ w ∈ done, w.pold = o ∧ (w.FillsAll ∨ w.Skips)
  fair : ∀ v ∈ visits, ∀ got paid, v.fill = some (got, paid) →
    got * v.pold.amountDesired ≤ paid * v.pold.amountForSale ∧
      paid * pnew.amountDesired ≤ got * pnew.amountForSale

variable {s s' : NodeState} {env : Environment} {pnew pnew' : MetaDEx} {v w : Visit}
variable {visits done rest : List Visit} {got paid : Int}

namespace Passes

theorem fillsAll_of_later (h : Passes pnew visits pnew') (hvisits : visits = done ++ v :: rest)
    (hw : w ∈ done) (hprice : w.pold.unitPrice ≤ v.pold.unitPrice) (hv : v.fill ≠ none)
    (hfill : w.fill = some (got, paid)) : got = w.pold.amountRemaining := by
  obtain ⟨first, middle, rfl⟩ := List.append_of_mem hw
  subst hvisits
  have hstep := h
  rw [List.append_assoc, List.cons_append] at hstep
  obtain ⟨hnew, -, hrest⟩ := hstep.split
  obtain ⟨⟨gotv, paidv⟩, hvfill⟩ := Option.ne_none_iff_exists'.mp hv
  have hvfill' := Visit.fill_eq_some.mp hvfill
  have hfill' := Visit.fill_eq_some.mp hfill
  obtain ⟨hf, hd, hgot, hpaid⟩ := MetaDEx.amounts_of_fill hfill'
  obtain ⟨hf', hd', hgot', -⟩ := MetaDEx.amounts_of_fill hvfill'
  obtain ⟨-, hwithin, -, -⟩ := MetaDEx.fill_eq_some hfill'
  obtain ⟨-, -, hpos, -⟩ := MetaDEx.fill_eq_some hvfill'
  by_contra hne
  have hpart : got < w.pold.amountRemaining :=
    lt_of_le_of_ne (sub_nonneg.mp hwithin.2.2.1) hne
  -- after the first visit the order has less left by what it paid there
  have hleft : v.pnew.amountRemaining ≤ w.pnew.amountRemaining - w.pold.cost got := by
    have hvnew := (h.split).1
    have hsum := sum_paid_nonneg middle
    have hwpaid : w.paid = w.pold.cost got := by
      rw [Visit.paid, hfill, ← hpaid]
      rfl
    rw [hvnew, hnew]
    simp only [List.map_append, List.map_cons, List.sum_append, List.sum_cons, hwpaid]
    omega
  have hnone := MetaDEx.affordable_of_partial hf hd hf' hd' hprice hgot hpart hleft
  omega

end Passes

theorem Visit.skips_of_fill (h : MetaDEx.fill v.pnew v.pold = .ok none)
    (hdes : v.pold.desProperty = v.pnew.property) : v.Skips := by
  refine ⟨Visit.fill_eq h, ?_⟩
  obtain ⟨-, -, hzero | ⟨-, -, hlimit⟩⟩ := MetaDEx.skipped_of_fill h hdes
  · exact .inl hzero
  · exact .inr hlimit

theorem fair_of_fill {pold : MetaDEx} (h : MetaDEx.fill pnew pold = .ok (some (got, paid)))
    (hwant : 0 < pnew.amountDesired) :
    got * pold.amountDesired ≤ paid * pold.amountForSale ∧
      paid * pnew.amountDesired ≤ got * pnew.amountForSale := by
  obtain ⟨hf, -, -, hpaid⟩ := MetaDEx.amounts_of_fill h
  obtain ⟨-, hwithin, hgot, -⟩ := MetaDEx.fill_eq_some h
  constructor
  · rw [hpaid]
    exact MetaDEx.mul_le_cost hf
  · rw [← not_lt, ← MetaDEx.inversePrice_lt_iff hwant hgot]
    exact hwithin.2.1.not_gt

namespace NodeState

theorem priceTimePriority_of_passes (h : Passes pnew visits pnew')
    (hbegins : visits.map (fun v => (v.pold.unitPrice, v.pold)) <+: s.offers pnew)
    (hprice : 0 < pnew.unitPrice) (hwhole : pnew.amountRemaining ≤ pnew.amountForSale) :
    PriceTimePriority s pnew visits := by
  have hsorted := (offers_sorted s pnew).sublist hbegins.sublist
  rw [List.pairwise_map] at hsorted
  have hpnew : ∀ done v rest, visits = done ++ v :: rest → v.pnew = { pnew with
      amountRemaining := pnew.amountRemaining - (done.map Visit.paid).sum } := by
    rintro done v rest rfl
    exact h.split.1
  refine ⟨hsorted, ?_, hpnew, ?_, ?_⟩
  · intro v hv
    exact (mem_offers.mp (hbegins.subset (List.mem_map.mpr ⟨v, hv, rfl⟩))).2
  · intro done v rest hvisits hv price o ho hlt hdes hlimit
    rw [hvisits, List.map_append, List.map_cons] at hbegins
    have hbefore := mem_of_priority_lt (offers_sorted s pnew) hbegins
      (mem_offers.mpr ⟨hlimit, ho⟩) hlt
    obtain ⟨w, hw, hwo⟩ := List.mem_map.mp hbefore
    obtain ⟨rfl, rfl⟩ := Prod.mk.inj hwo
    refine ⟨w, hw, rfl, ?_⟩
    obtain ⟨first, middle, hdone⟩ := List.append_of_mem hw
    have hat : visits = first ++ w :: (middle ++ v :: rest) := by
      rw [hvisits, hdone, List.append_assoc, List.cons_append]
    obtain ⟨hwnew, ⟨x, hx⟩, -⟩ := (hat ▸ h).split
    match x with
    | none =>
      refine .inr (Visit.skips_of_fill hx ?_)
      rw [hdes, hwnew]
    | some (got, paid) =>
      have hfill := Visit.fill_eq hx
      have hle : w.pold.unitPrice ≤ v.pold.unitPrice := by
        rcases Prod.Lex.lt_iff.mp hlt with hless | ⟨heq, -⟩
        · exact hless.le
        · exact heq.le
      have hall := h.fillsAll_of_later hvisits hw hle hv hfill
      exact .inl ⟨paid, by rw [hfill, hall]⟩
  · intro v hv got paid hfill
    obtain ⟨done, rest, rfl⟩ := List.append_of_mem hv
    have hfill' := Visit.fill_eq_some.mp hfill
    have hnew := h.split.1
    obtain ⟨⟨-, hleft, -⟩, -⟩ := MetaDEx.fill_eq_some hfill'
    have hsum := Passes.sum_paid_nonneg done
    have hsale : 0 < pnew.amountForSale := by
      rw [hnew] at hleft
      dsimp only at hleft
      omega
    have hwant : 0 < pnew.amountDesired := by
      have hsale' : (0 : ℚ) < pnew.amountForSale := by exact_mod_cast hsale
      have hpos := (div_pos_iff_of_pos_right hsale').mp hprice
      exact_mod_cast hpos
    have hwant' : 0 < v.pnew.amountDesired := by
      rw [hnew]
      exact hwant
    have hfair := fair_of_fill hfill' hwant'
    rw [hnew] at hfair
    exact hfair

/-- An incoming order with a price trades by price and time. -/
theorem priceTimePriority_of_xTrade {a : Address} {block n d : Int} {p q : PropertyId}
    {txid idx : Nat} (hnew : pnew = .incoming a block p n q d txid idx)
    (hprice : 0 < pnew.unitPrice) (h : s.xTrade env pnew = .ok (pnew', s')) :
    ∃ visits, visitOffers env (s.offers pnew) pnew s = .ok (visits, pnew', s') ∧
      PriceTimePriority s pnew visits := by
  have hwhole : pnew.amountRemaining = pnew.amountForSale := by
    rw [hnew]
    rfl
  have hne : pnew.amountRemaining ≠ 0 := by
    intro hzero
    rw [MetaDEx.unitPrice, ← hwhole, hzero, Int.cast_zero, div_zero] at hprice
    exact absurd hprice (lt_irrefl _)
  rw [xTrade_eq hne] at h
  obtain ⟨⟨visits, r⟩, hvisits, hr⟩ := exists_ok_of_map h
  cases hr
  obtain ⟨hpass, hbegins, -⟩ := passes_of_visitOffers hvisits
  exact ⟨visits, hvisits, priceTimePriority_of_passes hpass hbegins hprice hwhole.le⟩

def sampleTaker : MetaDEx := .incoming ['B'] 11 4 50 3 20 2 1

/-- The order uses up the best price level, takes a part of the next one, and does not come to
the third. -/
theorem priceTimePriority_sampleTaker :
    ∃ visits pnew' s', visitOffers (.plain .main) (sampleLevels.offers sampleTaker) sampleTaker
        sampleLevels = .ok (visits, pnew', s') ∧
      visits.map (fun v => (v.pold, v.paid)) = [(sampleCheapOrder, 10), (sampleOrder, 40)] ∧
      PriceTimePriority sampleLevels sampleTaker visits := by
  obtain ⟨⟨pnew', s'⟩, hrun⟩ : ∃ r, sampleLevels.xTrade (.plain .main) sampleTaker = .ok r :=
    exists_ok (by decide +kernel)
  have htaker : sampleTaker = .incoming ['B'] 11 4 50 3 20 2 1 := rfl
  obtain ⟨visits, hvisits, hpriority⟩ :=
    priceTimePriority_of_xTrade htaker (by decide +kernel) hrun
  obtain ⟨r, hr, hpaid⟩ := exists_ok_of_map (g := fun r => r.1.map fun v => (v.pold, v.paid))
    (x := visitOffers (.plain .main) (sampleLevels.offers sampleTaker) sampleTaker sampleLevels)
    (b := [(sampleCheapOrder, 10), (sampleOrder, 40)]) (by decide +kernel)
  rw [hvisits] at hr
  cases hr
  exact ⟨visits, pnew', s', hvisits, hpaid, hpriority⟩

end NodeState

namespace MetaDEx

/-- The whole rest of an order is, with its cost rounded up, above the limit of another. -/
def TooDear (pnew o : MetaDEx) : Prop :=
  o.amountRemaining * pnew.amountForSale < o.cost o.amountRemaining * pnew.amountDesired

instance (pnew o : MetaDEx) : Decidable (TooDear pnew o) := inferInstanceAs (Decidable (_ < _))

def afterOffer (pnew o : MetaDEx) : MetaDEx :=
  if Executable pnew o then
    { pnew with amountRemaining :=
      pnew.amountRemaining - o.cost (affordable pnew.amountRemaining o) }
  else pnew

def afterOffers (pnew : MetaDEx) (orders : List MetaDEx) : MetaDEx := orders.foldl afterOffer pnew

variable {pnew o : MetaDEx} {left left' got paid : Int}

theorem affordable_mono (hf : 0 ≤ o.amountForSale) (hd : 0 < o.amountDesired)
    (hle : left' ≤ left) : affordable left' o ≤ affordable left o := by
  obtain ⟨hrest, hmul⟩ := (le_affordable_iff hd).mp (le_refl (affordable left' o))
  exact (le_affordable_iff hd).mpr ⟨hrest, hmul.trans (mul_le_mul_of_nonneg_right hle hf)⟩

/-- An order is passed over for its rounded price and comes within the limit after further fills
only if its whole rest is too dear: otherwise what the fills and the late purchase pay together
would have bought as much in the first place. -/
theorem tooDear_of_skipped (hf : 0 < o.amountForSale) (hd : 0 < o.amountDesired)
    (hwant : 0 < pnew.amountDesired)
    (hprice : o.amountDesired * pnew.amountDesired ≤ pnew.amountForSale * o.amountForSale)
    (hskip : affordable left o * pnew.amountForSale <
      o.cost (affordable left o) * pnew.amountDesired)
    (hsale : 0 ≤ pnew.amountForSale)
    (hlimit : paid * pnew.amountDesired ≤ got * pnew.amountForSale)
    (hworse : got * o.amountDesired ≤ paid * o.amountForSale) (hpaid : 0 ≤ paid)
    (hpos : 0 < affordable (left - paid) o)
    (hlate : o.cost (affordable (left - paid) o) * pnew.amountDesired ≤
      affordable (left - paid) o * pnew.amountForSale) :
    TooDear pnew o := by
  generalize hq : affordable left o = q at hskip
  generalize hq' : affordable (left - paid) o = q' at hlate hpos
  have hmono : q' ≤ q := hq ▸ hq' ▸ affordable_mono hf.le hd (sub_le_self _ hpaid)
  obtain ⟨hrest, hbuy⟩ := (le_affordable_iff hd).mp hq.ge
  obtain ⟨-, hbuy'⟩ := (le_affordable_iff hd).mp hq'.ge
  rw [sub_mul] at hbuy'
  rcases hrest.eq_or_lt with hall | hpart
  · rwa [TooDear, ← hall]
  exfalso
  have hmore : left * o.amountForSale < (q + 1) * o.amountDesired := by
    by_contra hle
    have hnext := (le_affordable_iff hd).mpr ⟨hpart, not_lt.mp hle⟩
    omega
  have hmore' : (left - paid) * o.amountForSale < (q' + 1) * o.amountDesired := by
    by_contra hle
    have hnext := (le_affordable_iff hd).mpr ⟨(Int.add_le_add_right hmono 1).trans hpart,
      not_lt.mp hle⟩
    omega
  have hsum : q' + got ≤ q := by
    have hmul : (q' + got) * o.amountDesired < (q + 1) * o.amountDesired := by
      rw [add_mul]
      omega
    exact Int.le_of_lt_add_one (lt_of_mul_lt_mul_right hmul hd.le)
  rcases hsum.eq_or_lt with heq | hlt
  · -- the two purchases cost no less together than the first one would have
    have hcost : o.cost q ≤ o.cost q' + paid := by
      rw [cost_le_iff hf, ← heq, add_mul, add_mul]
      exact add_le_add (mul_le_cost hf) hworse
    have hdear := mul_le_mul_of_nonneg_right hcost hwant.le
    rw [add_mul] at hdear
    rw [← heq, add_mul] at hskip
    rw [← heq] at hdear
    omega
  · -- the first purchase would have had a unit more, for no more than there was
    have hcost : o.cost q * pnew.amountDesired ≤ left * pnew.amountDesired :=
      mul_le_mul_of_nonneg_right ((cost_le_iff hf).mpr hbuy) hwant.le
    have hrestCost : (left - paid) * pnew.amountDesired < (q' + 1) * pnew.amountForSale := by
      apply lt_of_mul_lt_mul_right _ hf.le
      calc (left - paid) * pnew.amountDesired * o.amountForSale
          = (left - paid) * o.amountForSale * pnew.amountDesired := mul_right_comm ..
        _ < (q' + 1) * o.amountDesired * pnew.amountDesired :=
            mul_lt_mul_of_pos_right hmore' hwant
        _ = (q' + 1) * (o.amountDesired * pnew.amountDesired) := mul_assoc ..
        _ ≤ (q' + 1) * (pnew.amountForSale * o.amountForSale) :=
            mul_le_mul_of_nonneg_left hprice (by omega)
        _ = (q' + 1) * pnew.amountForSale * o.amountForSale := (mul_assoc ..).symm
    have hunits : (q' + 1 + got) * pnew.amountForSale ≤ q * pnew.amountForSale :=
      mul_le_mul_of_nonneg_right (by omega) hsale
    rw [sub_mul] at hrestCost
    rw [add_mul] at hunits
    omega

theorem executable_of_fill (hwant : 0 < pnew.amountDesired)
    (h : fill pnew o = .ok (some (got, paid))) : Executable pnew o := by
  obtain ⟨-, -, rfl, rfl⟩ := amounts_of_fill h
  obtain ⟨hmatch, -, hpos, -⟩ := fill_eq_some h
  exact ⟨hmatch.2.2.2.1.symm, hmatch.2.2.2.2.2.1, hpos, (fair_of_fill h hwant).2⟩

theorem not_executable_of_fill (hwant : 0 < pnew.amountDesired) (h : fill pnew o = .ok none) :
    ¬ Executable pnew o := by
  rintro ⟨hdes, -, hpos, hlimit⟩
  obtain ⟨-, -, hzero | ⟨-, -, hdear⟩⟩ := skipped_of_fill h hdes
  · exact hpos.ne' hzero
  · rw [inversePrice_lt_iff hwant hpos] at hdear
    exact absurd hlimit hdear.not_ge

theorem not_executable_of_zero (h : pnew.amountRemaining = 0) : ¬ Executable pnew o := by
  rintro ⟨-, -, hpos, -⟩
  rw [h, affordable, zero_mul, Int.zero_ediv] at hpos
  exact absurd (min_le_right _ _) hpos.not_ge

theorem afterOffers_of_zero (h : pnew.amountRemaining = 0) (orders : List MetaDEx) :
    pnew.afterOffers orders = pnew := by
  induction orders with
  | nil => rfl
  | cons o orders ih =>
    rw [afterOffers, List.foldl_cons, afterOffer, if_neg (not_executable_of_zero h)]
    exact ih

end MetaDEx

end TradeLayer
