import TradeLayer.MetaDEx

namespace TradeLayer
open Library

namespace MetaDEx

/-- The whole units of a resting order that an amount buys, at most what the order has left. -/
def affordable (left : Int) (o : MetaDEx) : Int :=
  min o.amountRemaining (left * o.amountForSale / o.amountDesired)

def cost (o : MetaDEx) (n : Int) : Int :=
  ⌈((n * o.amountDesired : Int) : ℚ) / o.amountForSale⌉

/-- The matching rule: the incoming order buys what it can afford of a resting order that wants
its property, if the price and the rounded price are within its limit. -/
def Executable (pnew pold : MetaDEx) : Prop :=
  pold.desProperty = pnew.property ∧ pold.unitPrice ≤ pnew.inversePrice ∧
    0 < affordable pnew.amountRemaining pold ∧
    pold.cost (affordable pnew.amountRemaining pold) * pnew.amountDesired ≤
      affordable pnew.amountRemaining pold * pnew.amountForSale

instance (pnew pold : MetaDEx) : Decidable (Executable pnew pold) :=
  inferInstanceAs (Decidable (_ ∧ _ ∧ _ ∧ _))

variable {pnew pold o : MetaDEx} {got paid left left' n m : Int}

theorem le_affordable_iff (hd : 0 < o.amountDesired) :
    n ≤ affordable left o ↔
      n ≤ o.amountRemaining ∧ n * o.amountDesired ≤ left * o.amountForSale := by
  rw [affordable, le_min_iff, Int.le_ediv_iff_mul_le hd]

theorem cost_le_iff (hf : 0 < o.amountForSale) :
    o.cost n ≤ m ↔ n * o.amountDesired ≤ m * o.amountForSale := by
  have hf' : (0 : ℚ) < o.amountForSale := by exact_mod_cast hf
  rw [cost, Int.ceil_le, div_le_iff₀ hf']
  norm_cast

theorem mul_le_cost (hf : 0 < o.amountForSale) :
    n * o.amountDesired ≤ o.cost n * o.amountForSale :=
  (cost_le_iff hf).mp le_rfl

theorem cost_pos (hf : 0 < o.amountForSale) (hd : 0 < o.amountDesired) (hn : 0 < n) :
    0 < o.cost n := by
  by_contra hle
  have hmul := (cost_le_iff hf).mp (not_lt.mp hle)
  rw [zero_mul] at hmul
  exact absurd (mul_pos hn hd) hmul.not_gt

theorem cost_affordable_le (hf : 0 < o.amountForSale) (hd : 0 < o.amountDesired) :
    o.cost (affordable left o) ≤ left :=
  (cost_le_iff hf).mpr ((le_affordable_iff hd).mp le_rfl).2

theorem unitPrice_le_unitPrice (hf : 0 < pold.amountForSale) (hf' : 0 < o.amountForSale) :
    pold.unitPrice ≤ o.unitPrice ↔
      pold.amountDesired * o.amountForSale ≤ o.amountDesired * pold.amountForSale := by
  have h : (0 : ℚ) < pold.amountForSale := by exact_mod_cast hf
  have h' : (0 : ℚ) < o.amountForSale := by exact_mod_cast hf'
  rw [unitPrice, unitPrice, div_le_div_iff₀ h h']
  norm_cast

theorem unitPrice_le_inversePrice (hf : 0 < pold.amountForSale) (hd : 0 < pnew.amountDesired) :
    pold.unitPrice ≤ pnew.inversePrice ↔
      pold.amountDesired * pnew.amountDesired ≤ pnew.amountForSale * pold.amountForSale := by
  have h : (0 : ℚ) < pold.amountForSale := by exact_mod_cast hf
  have h' : (0 : ℚ) < pnew.amountDesired := by exact_mod_cast hd
  rw [unitPrice, inversePrice, div_le_div_iff₀ h h']
  norm_cast

theorem inversePrice_lt_iff (hd : 0 < pnew.amountDesired) (hn : 0 < n) :
    pnew.inversePrice < (m : ℚ) / n ↔ n * pnew.amountForSale < m * pnew.amountDesired := by
  have h : (0 : ℚ) < pnew.amountDesired := by exact_mod_cast hd
  have h' : (0 : ℚ) < n := by exact_mod_cast hn
  rw [inversePrice, div_lt_div_iff₀ h h', mul_comm]
  norm_cast

theorem affordable_of_partial (hf : 0 < pold.amountForSale) (hd : 0 < pold.amountDesired)
    (hf' : 0 < o.amountForSale) (hd' : 0 < o.amountDesired)
    (hprice : pold.unitPrice ≤ o.unitPrice) (hgot : got = affordable left pold)
    (hpart : got < pold.amountRemaining) (hleft : left' ≤ left - pold.cost got) :
    affordable left' o ≤ 0 := by
  rw [unitPrice_le_unitPrice hf hf'] at hprice
  have hmore : left * pold.amountForSale < (got + 1) * pold.amountDesired := by
    by_contra hle
    have hnext := (le_affordable_iff hd).mpr ⟨hpart, not_lt.mp hle⟩
    omega
  have hcost := mul_le_cost (n := got) hf
  -- what is left is worth less than a unit of the order, and so of any dearer one
  have hless : left' * pold.amountForSale < pold.amountDesired := by
    have hmul := mul_le_mul_of_nonneg_right hleft hf.le
    rw [sub_mul] at hmul
    rw [add_mul, one_mul] at hmore
    omega
  by_contra hpos
  obtain ⟨-, hunit⟩ := (le_affordable_iff hd').mp (Int.add_one_le_of_lt (not_le.mp hpos))
  have hchain : pold.amountDesired * o.amountForSale ≤
      left' * o.amountForSale * pold.amountForSale := by
    refine hprice.trans ?_
    rw [zero_add, one_mul] at hunit
    exact mul_le_mul_of_nonneg_right hunit hf.le
  have hscaled := mul_lt_mul_of_pos_right hless hf'
  rw [mul_right_comm] at hscaled
  exact absurd (hchain.trans_lt hscaled) (lt_irrefl _)

section Amounts

theorem couldBuy_eq_ok (h : couldBuy pnew pold = .ok got) :
    0 ≤ pnew.amountRemaining ∧ 0 ≤ pold.amountForSale ∧ 0 < pold.amountDesired ∧
      got = affordable pnew.amountRemaining pold := by
  simp only [couldBuy, bind_eq_ok] at h
  obtain ⟨x, hx, f, hf, d, hd, q, hq, r, hr, h⟩ := h
  rw [convertTo256_eq_ok] at hx hf hd hr
  obtain ⟨hne, rfl⟩ := divide256_eq_ok.mp hq
  have hquot : ((x * f / d : Nat) : Int) =
      pnew.amountRemaining * pold.amountForSale / pold.amountDesired := by
    rw [hx, hf, hd]
    push_cast
    rfl
  refine ⟨hx ▸ Int.natCast_nonneg x, hf ▸ Int.natCast_nonneg f, by omega, ?_⟩
  rw [affordable, ← hquot, hr]
  split_ifs at h with hlt
  · rw [(convertTo64_eq_ok.mp h).1]
    omega
  · cases h
    omega

theorem couldBuy_of_proper (hleft : 0 ≤ pnew.amountRemaining) (hf : 0 ≤ pold.amountForSale)
    (hd : 0 < pold.amountDesired) (hr : 0 ≤ pold.amountRemaining)
    (hmax : pold.amountRemaining ≤ int64Max) :
    couldBuy pnew pold = .ok (affordable pnew.amountRemaining pold) := by
  have hok : (couldBuy pnew pold).toBool = true := by
    simp only [couldBuy, convertTo256_of_nonneg hleft, convertTo256_of_nonneg hf,
      convertTo256_of_nonneg hd.le, convertTo256_of_nonneg hr, ok_bind, divide256]
    rw [if_neg (by omega), ok_bind]
    split_ifs with hlt
    · rw [convertTo64, if_pos (by omega)]
      rfl
    · rfl
  obtain ⟨got, hgot⟩ := exists_ok hok
  rw [hgot, (couldBuy_eq_ok hgot).2.2.2]

theorem wouldPay_eq_ok (h : wouldPay pold got = .ok paid) (hd : 0 < pold.amountDesired)
    (hgot : 0 < got) : 0 < pold.amountForSale ∧ paid = pold.cost got := by
  simp only [wouldPay, bind_eq_ok] at h
  obtain ⟨x, hx, d, hd', f, hf, n, hn, h⟩ := h
  rw [convertTo256_eq_ok] at hx hd' hf
  obtain ⟨rfl, -⟩ := convertTo64_eq_ok.mp h
  have hprod : x * d ≠ 0 := Nat.mul_ne_zero (by omega) (by omega)
  have hfpos : 0 < f := by
    rcases divideAndRoundUp_eq_ok hn with ⟨hzero, -⟩ | ⟨hne, -, -⟩
    · exact absurd hzero hprod
    · exact Nat.pos_of_ne_zero hne
  refine ⟨by omega, ?_⟩
  rw [cost, hx, hd', hf, ← ceil_of_divideAndRoundUp hn hfpos]
  push_cast
  rfl

theorem wouldPay_of_proper (hgot : 0 < got) (hf : 0 < pold.amountForSale)
    (hd : 0 < pold.amountDesired) (hmax : pold.cost got ≤ int64Max) :
    wouldPay pold got = .ok (pold.cost got) := by
  obtain ⟨n, hn⟩ := exists_divideAndRoundUp (x := got.toNat * pold.amountDesired.toNat)
    (d := pold.amountForSale.toNat) (Int.pos_iff_toNat_pos.mp hf)
  have hcost : pold.cost got = n := by
    have hceil := ceil_of_divideAndRoundUp hn (Int.pos_iff_toNat_pos.mp hf)
    rw [Int.natCast_mul, Int.toNat_of_nonneg hgot.le, Int.toNat_of_nonneg hd.le,
      Int.toNat_of_nonneg hf.le] at hceil
    exact hceil
  simp only [wouldPay, convertTo256_of_nonneg hgot.le, convertTo256_of_nonneg hd.le,
    convertTo256_of_nonneg hf.le, ok_bind, hn]
  rw [convertTo64_of_le (hcost ▸ hmax), hcost]

end Amounts

section Fills

theorem amounts_of_fill (h : fill pnew pold = .ok (some (got, paid))) :
    0 < pold.amountForSale ∧ 0 < pold.amountDesired ∧
      got = affordable pnew.amountRemaining pold ∧ paid = pold.cost got := by
  have hgot := (fill_eq_some h).2.2.1
  unfold fill at h
  split_ifs at h with hdes hmatch
  · cases h
  obtain ⟨x, hx, h⟩ := bind_eq_ok.mp h
  split_ifs at h with hzero
  · cases h
  obtain ⟨y, hy, h⟩ := bind_eq_ok.mp h
  split_ifs at h with hlimit hwithin
  · cases h
  cases h
  obtain ⟨-, -, hd, hx⟩ := couldBuy_eq_ok hx
  obtain ⟨hf, hy⟩ := wouldPay_eq_ok hy hd hgot
  exact ⟨hf, hd, hx, hy⟩

/-- An order that wants the property for sale is passed over only if no unit of it can be bought
or the rounded price is above the limit. -/
theorem skipped_of_fill (h : fill pnew pold = .ok none)
    (hdes : pold.desProperty = pnew.property) :
    0 ≤ pold.amountForSale ∧ 0 < pold.amountDesired ∧
      (affordable pnew.amountRemaining pold = 0 ∨
        0 < pold.amountForSale ∧ 0 < affordable pnew.amountRemaining pold ∧
          pnew.inversePrice < (pold.cost (affordable pnew.amountRemaining pold) : ℚ) /
            affordable pnew.amountRemaining pold) := by
  unfold fill at h
  rw [if_neg (not_not.mpr hdes)] at h
  split_ifs at h with hmatch
  obtain ⟨x, hx, h⟩ := bind_eq_ok.mp h
  have hnonneg := couldBuy_nonneg hx hmatch.1
  obtain ⟨-, hsale, hd, rfl⟩ := couldBuy_eq_ok hx
  refine ⟨hsale, hd, ?_⟩
  split_ifs at h with hzero
  · exact .inl hzero
  obtain ⟨y, hy, h⟩ := bind_eq_ok.mp h
  have hpos := hnonneg.lt_of_ne' hzero
  obtain ⟨hf, rfl⟩ := wouldPay_eq_ok hy hd hpos
  split_ifs at h with hlimit
  · exact .inr ⟨hf, hpos, hlimit⟩
  · cases h

theorem fill_eq (hnew : 0 < pnew.amountRemaining) (hmax : pnew.amountRemaining ≤ int64Max)
    (hsale : 0 < pnew.amountForSale) (hwant : 0 < pnew.amountDesired)
    (hne : pnew.property ≠ pnew.desProperty) (hold : 0 < pold.amountRemaining)
    (hle : pold.amountRemaining ≤ pold.amountForSale) (hf : pold.amountForSale ≤ int64Max)
    (hd : 0 < pold.amountDesired) (hprop : pold.property = pnew.desProperty)
    (hprice : pold.unitPrice ≤ pnew.inversePrice) :
    fill pnew pold = .ok (if Executable pnew pold then
      some (affordable pnew.amountRemaining pold,
        pold.cost (affordable pnew.amountRemaining pold)) else none) := by
  have hfpos : 0 < pold.amountForSale := hold.trans_le hle
  rw [fill]
  by_cases hdes : pold.desProperty = pnew.property
  · rw [if_neg (not_not.mpr hdes)]
    have hinverse : pnew.unitPrice ≤ pold.inversePrice := by
      rw [unitPrice_le_inversePrice hfpos hwant] at hprice
      rw [unitPrice_le_inversePrice hsale hd]
      rw [mul_comm, mul_comm pold.amountForSale]
      exact hprice
    have hmatch : Matches pnew pold :=
      ⟨hold, hnew, hne, hdes.symm, hprop, hprice, hinverse⟩
    rw [if_neg (not_not.mpr hmatch),
      couldBuy_of_proper hnew.le hfpos.le hd hold.le (hle.trans hf), ok_bind]
    have hnonneg : 0 ≤ affordable pnew.amountRemaining pold :=
      (le_affordable_iff hd).mpr ⟨hold.le, by rw [zero_mul]; exact mul_nonneg hnew.le hfpos.le⟩
    by_cases hzero : affordable pnew.amountRemaining pold = 0
    · rw [if_pos hzero, if_neg fun he => he.2.2.1.ne' hzero]
    · have hpos := hnonneg.lt_of_ne' hzero
      have hcost : pold.cost (affordable pnew.amountRemaining pold) ≤ pnew.amountRemaining :=
        cost_affordable_le hfpos hd
      rw [if_neg hzero, wouldPay_of_proper hpos hfpos hd (hcost.trans hmax), ok_bind]
      simp only [inversePrice_lt_iff hwant hpos]
      by_cases hlimit : affordable pnew.amountRemaining pold * pnew.amountForSale <
          pold.cost (affordable pnew.amountRemaining pold) * pnew.amountDesired
      · rw [if_pos hlimit, if_neg fun he => absurd hlimit he.2.2.2.not_gt]
      · have hwithin : FillsWithin pnew pold (affordable pnew.amountRemaining pold)
            (pold.cost (affordable pnew.amountRemaining pold)) := by
          refine ⟨?_, ?_, sub_nonneg.mpr (min_le_left _ _), sub_nonneg.mpr hcost⟩
          · have hq : (0 : ℚ) < affordable pnew.amountRemaining pold := by exact_mod_cast hpos
            have hf' : (0 : ℚ) < pold.amountForSale := by exact_mod_cast hfpos
            rw [unitPrice, div_le_div_iff₀ hf' hq, mul_comm]
            exact_mod_cast mul_le_cost hfpos
          · rw [← not_lt, inversePrice_lt_iff hwant hpos]
            exact hlimit
        rw [if_neg hlimit, if_neg (not_not.mpr hwithin),
          if_pos ⟨hdes, hprice, hpos, not_lt.mp hlimit⟩]
  · rw [if_pos hdes, if_neg fun he => hdes he.1]

end Fills

end MetaDEx

end TradeLayer
