import TradeLayer.Circulation

namespace TradeLayer
open Library

structure Shares (owners : List (Int × Address)) : Prop where
  pos : ∀ r ∈ owners, 0 < r.1
  nodup : (owners.map Prod.snd).Nodup

namespace Shares

variable {acc : OwnerAddrType} {owners : List (Int × Address)} {n : Int} {a : Address}
variable {r : Int × Address}

theorem empty : Shares (∅ : OwnerAddrType).toList := ⟨by simp, by simp⟩

theorem reverse (h : Shares owners) : Shares owners.reverse where
  pos r hr := h.pos r (List.mem_reverse.mp hr)
  nodup := by
    rw [List.map_reverse, List.nodup_reverse]
    exact h.nodup

theorem key_ne (hnew : ∀ r ∈ acc, r.2 ≠ a) : ∀ r ∈ acc,
    toLex (r.1, OrderDual.toDual r.2) ≠ toLex (n, OrderDual.toDual a) :=
  fun r hr hk => hnew r hr (OrderDual.toDual.injective (Prod.mk.inj (toLex.injective hk)).2)

theorem mem_insert (hnew : ∀ r ∈ acc, r.2 ≠ a) : r ∈ acc.insert (n, a) ↔ r ∈ acc ∨ r = (n, a) := by
  rw [Keyed.mem_insert, Keyed.find?_eq_none.mpr (key_ne hnew)]
  simp

theorem insert (h : Shares acc.toList) (hn : 0 < n) (hnew : ∀ r ∈ acc, r.2 ≠ a) :
    Shares (acc.insert (n, a)).toList ∧ OwnerAddrType.total (acc.insert (n, a)) =
      acc.total + n := by
  have hkey := key_ne (n := n) hnew
  have hperm : (acc.insert (n, a)).toList.Perm ((n, a) :: acc.toList) :=
    Keyed.insertList_perm hkey
  refine ⟨⟨?_, ?_⟩, ?_⟩
  · intro r hr
    rcases List.mem_cons.mp (hperm.mem_iff.mp hr) with rfl | hr
    · exact hn
    · exact h.pos r hr
  · rw [(hperm.map Prod.snd).nodup_iff, List.map_cons, List.nodup_cons]
    refine ⟨fun hmem => ?_, h.nodup⟩
    obtain ⟨r, hr, rfl⟩ := List.mem_map.mp hmem
    exact hnew r hr rfl
  · rw [OwnerAddrType.total, Keyed.sum_insert (Keyed.find?_eq_none.mpr hkey), add_comm]
    rfl

theorem sum_nonneg (h : Shares owners) : 0 ≤ (owners.map Prod.fst).sum := by
  apply List.sum_nonneg
  intro n hn
  obtain ⟨r, hr, rfl⟩ := List.mem_map.mp hn
  exact (h.pos r hr).le

theorem le_total (h : Shares acc.toList) (hr : r ∈ acc) : r.1 ≤ acc.total :=
  Keyed.le_sum (fun x hx => (h.pos x hx).le) hr

end Shares

section Owners

variable {sender : Address} {p : PropertyId} {entries : List (Address × Tally)}
variable {acc : OwnerAddrType} {total : Int}

def Tally.holding (x : Tally) (p : PropertyId) : Int :=
  (circulatingTallies.map fun t => x.getMoney p t).sum

def holdings (sender : Address) (p : PropertyId) (entries : List (Address × Tally)) : Int :=
  (entries.map fun e => if e.1 = sender then 0 else e.2.holding p).sum

theorem checked64_of_le {x : Int} (hnonneg : 0 ≤ x) (hmax : x ≤ int64Max) :
    checked64 x = .ok x :=
  checked64_eq_ok.mpr ⟨rfl, le_trans (by decide) hnonneg, hmax⟩

theorem addTokens_eq {x : Tally} (hx : ∀ t ∈ circulatingTallies, 0 ≤ x.getMoney p t)
    (hmax : x.holding p ≤ int64Max) : addTokens x p 0 = .ok (x.holding p) := by
  have hb := hx .balance (by decide)
  have hs := hx .sellOfferReserve (by decide)
  have ha := hx .acceptReserve (by decide)
  have hm := hx .metadexReserve (by decide)
  simp only [Tally.holding, circulatingTallies, List.map_cons, List.map_nil, List.sum_cons,
    List.sum_nil] at hmax ⊢
  simp only [addTokens, circulatingTallies, List.foldlM_cons, List.foldlM_nil]
  rw [checked64_of_le (by omega) (by omega), ok_bind, checked64_of_le (by omega) (by omega),
    ok_bind, checked64_of_le (by omega) (by omega), ok_bind,
    checked64_of_le (by omega) (by omega), ok_bind, pure_eq_ok]
  congr 1
  ring

theorem Tally.holding_nonneg {x : Tally} (hx : ∀ t ∈ circulatingTallies, 0 ≤ x.getMoney p t) :
    0 ≤ x.holding p := by
  apply List.sum_nonneg
  intro n hn
  obtain ⟨t, ht, rfl⟩ := List.mem_map.mp hn
  exact hx t ht

def Owns (sender : Address) (p : PropertyId) (entries : List (Address × Tally))
    (r : Int × Address) : Prop :=
  ∃ e ∈ entries, e.1 ≠ sender ∧ 0 < e.2.holding p ∧ r = (e.2.holding p, e.1)

theorem owns_cons {e : Address × Tally} {r : Int × Address} : Owns sender p (e :: entries) r ↔
    (e.1 ≠ sender ∧ 0 < e.2.holding p ∧ r = (e.2.holding p, e.1)) ∨ Owns sender p entries r := by
  simp [Owns]

/-- Where the amounts fit all together, the first loop collects every owner with the whole of
what it holds. -/
theorem exists_collectOwners (sender : Address)
    (hnonneg : ∀ e ∈ entries, ∀ t ∈ circulatingTallies, 0 ≤ e.2.getMoney p t)
    (hkeys : (entries.map Prod.fst).Nodup) (hacc : Shares acc.toList)
    (hnew : ∀ r ∈ acc, r.2 ∉ entries.map Prod.fst)
    (hmax : acc.total + (entries.map fun e => e.2.holding p).sum ≤ int64Max) :
    ∃ owners : OwnerAddrType, Shares owners.toList ∧
      owners.total = acc.total + holdings sender p entries ∧
      (∀ r, r ∈ owners ↔ r ∈ acc ∨ Owns sender p entries r) ∧
      collectOwners sender p entries acc.total acc = .ok (owners.total, owners) := by
  induction entries generalizing acc with
  | nil => exact ⟨acc, hacc, by simp [holdings], by simp [Owns], rfl⟩
  | cons e entries ih =>
    obtain ⟨he, hnonneg⟩ := List.forall_mem_cons.mp hnonneg
    rw [List.map_cons, List.nodup_cons] at hkeys
    rw [List.map_cons, List.sum_cons] at hmax
    have hhold := Tally.holding_nonneg he
    have htotal := hacc.sum_nonneg
    change 0 ≤ acc.total at htotal
    have hrest : 0 ≤ (entries.map fun e => e.2.holding p).sum := by
      apply List.sum_nonneg
      intro n hn
      obtain ⟨e', he', rfl⟩ := List.mem_map.mp hn
      exact Tally.holding_nonneg (hnonneg e' he')
    have hold : ∀ r ∈ acc, r.2 ≠ e.1 ∧ r.2 ∉ entries.map Prod.fst := by
      intro r hr
      have hr' := hnew r hr
      rwa [List.map_cons, List.mem_cons, not_or] at hr'
    rw [holdings, List.map_cons, List.sum_cons, ← holdings, collectOwners,
      addTokens_eq he (by omega), ok_bind]
    simp only [owns_cons]
    by_cases hsender : e.1 = sender
    · simp only [hsender, ne_eq, not_true_eq_false, false_and, false_or, if_true, zero_add]
      exact ih hnonneg hkeys.2 hacc (fun r hr => (hold r hr).2) (by omega)
    · rw [if_neg hsender, if_neg hsender, checked64_of_le (by omega) (by omega), ok_bind]
      by_cases hpos : 0 < e.2.holding p
      · obtain ⟨hacc', htotal'⟩ := hacc.insert hpos fun r hr => (hold r hr).1
        have hnew' : ∀ r ∈ acc.insert (e.2.holding p, e.1), r.2 ∉ entries.map Prod.fst := by
          intro r hr
          rcases Keyed.mem_insert.mp hr with hr | ⟨rfl, -⟩
          · exact (hold r hr).2
          · exact hkeys.1
        obtain ⟨owners, hshares, heq, hmem, hrun⟩ := ih hnonneg hkeys.2 hacc' hnew' (by omega)
        refine ⟨owners, hshares, by omega, fun r => ?_, ?_⟩
        · rw [hmem, Shares.mem_insert fun r hr => (hold r hr).1]
          tauto
        · rw [if_pos hpos, ← htotal']
          exact hrun
      · have hzero : e.2.holding p = 0 := le_antisymm (not_lt.mp hpos) hhold
        simp only [hzero, lt_irrefl, false_and, and_false, false_or, add_zero, zero_add]
        exact ih hnonneg hkeys.2 hacc (fun r hr => (hold r hr).2) (by omega)

end Owners

section Split

variable {amount total sent : Int} {owners : List (Int × Address)} {acc : OwnerAddrType}

theorem exists_piece {tokens : Int} (hpos : 0 < tokens) (hle : tokens ≤ total)
    (hamount : 0 ≤ amount) :
    ∃ piece : Nat, divideAndRoundUp (tokens.toNat * amount.toNat) total.toNat = .ok piece ∧
      tokens * amount ≤ piece * total ∧ (piece : Int) ≤ amount := by
  have htotal : 0 < total := hpos.trans_le hle
  obtain ⟨piece, hpiece⟩ := exists_divideAndRoundUp (x := tokens.toNat * amount.toNat)
    (d := total.toNat) (Int.pos_iff_toNat_pos.mp htotal)
  have hceil := ceil_of_divideAndRoundUp hpiece (Int.pos_iff_toNat_pos.mp htotal)
  rw [Int.natCast_mul, Int.toNat_of_nonneg hpos.le, Int.toNat_of_nonneg hamount,
    Int.toNat_of_nonneg htotal.le] at hceil
  have htotal' : (0 : ℚ) < total := by exact_mod_cast htotal
  refine ⟨piece, hpiece, ?_, ?_⟩
  · have hle := Int.ceil_le.mp hceil.le
    rw [div_le_iff₀ htotal'] at hle
    exact_mod_cast hle
  · rw [← hceil, Int.ceil_le, div_le_iff₀ htotal', mul_comm]
    exact_mod_cast mul_le_mul_of_nonneg_left hle hamount

/-- As long as the owners that are left have a part of the total that covers what is left of the
amount, the second loop gives out the whole amount. -/
theorem exists_splitAmount (howners : Shares owners) (hle : ∀ r ∈ owners, r.1 ≤ total)
    (hacc : Shares acc.toList) (hsum : acc.total = sent)
    (hnew : ∀ r ∈ acc, r.2 ∉ owners.map Prod.snd) (htotal : 0 < total) (hsent : sent ≤ amount)
    (hmax : amount ≤ int64Max)
    (hcover : (amount - sent) * total ≤ amount * (owners.map Prod.fst).sum) :
    ∃ receivers : OwnerAddrType, Shares receivers.toList ∧ receivers.total = amount ∧
      splitAmount amount total owners sent acc = .ok receivers := by
  have hnonneg : 0 ≤ sent := hsum ▸ hacc.sum_nonneg
  induction owners generalizing sent acc with
  | nil =>
    refine ⟨acc, hacc, ?_, rfl⟩
    rw [List.map_nil, List.sum_nil, mul_zero] at hcover
    have hdone : amount - sent ≤ 0 := by
      by_contra hpos
      exact absurd (mul_pos (not_le.mp hpos) htotal) hcover.not_gt
    omega
  | cons owner owners ih =>
    obtain ⟨tokens, address⟩ := owner
    obtain ⟨hlt, hle⟩ := List.forall_mem_cons.mp hle
    have hpos : 0 < tokens := howners.pos _ List.mem_cons_self
    have hnodup := howners.nodup
    rw [List.map_cons, List.nodup_cons] at hnodup
    have hrest : Shares owners :=
      ⟨fun r hr => howners.pos r (List.mem_cons_of_mem _ hr), hnodup.2⟩
    have hold : ∀ r ∈ acc, r.2 ≠ address ∧ r.2 ∉ owners.map Prod.snd := by
      intro r hr
      have hr' := hnew r hr
      rw [List.map_cons, List.mem_cons, not_or] at hr'
      exact hr'
    obtain ⟨piece, hpiece, hpart, hwhole⟩ := exists_piece hpos hlt (hnonneg.trans hsent)
    rw [List.map_cons, List.sum_cons, mul_add, mul_comm amount tokens] at hcover
    simp only [splitAmount, convertTo256_of_nonneg hpos.le, convertTo256_of_nonneg htotal.le,
      convertTo256_of_nonneg (hnonneg.trans hsent), ok_bind, hpiece,
      convertTo64_of_le (hwhole.trans hmax)]
    by_cases hreceive : 0 < min (amount - sent) (piece : Int)
    · rw [if_pos hreceive]
      obtain ⟨hacc', htotal'⟩ := hacc.insert hreceive fun r hr => (hold r hr).1
      refine ih hrest hle hacc' (by rw [htotal', hsum]) ?_ (by omega) ?_ (by omega)
      · intro r hr
        rcases Keyed.mem_insert.mp hr with hr | ⟨rfl, -⟩
        · exact (hold r hr).2
        · exact hnodup.1
      · rcases min_cases (amount - sent) (piece : Int) with ⟨hmin, -⟩ | ⟨hmin, -⟩
        · rw [hmin, add_sub_cancel, sub_self, zero_mul]
          exact mul_nonneg (hnonneg.trans hsent) hrest.sum_nonneg
        · rw [hmin, ← sub_sub, sub_mul]
          omega
    · rw [if_neg hreceive]
      refine ⟨acc, hacc, ?_, rfl⟩
      rcases hsent.eq_or_lt with hall | hless
      · rw [hsum, hall]
      -- something is left, so that the piece of the owner is not empty
      · have hprod : 0 < tokens * amount := mul_pos hpos (hnonneg.trans_lt hless)
        have hzero : (piece : Int) = 0 := by omega
        rw [hzero, zero_mul] at hpart
        exact absurd hprod hpart.not_gt

end Split

section Receivers

variable {l : Ledger} {sender : Address} {p : PropertyId} {amount : Int}
variable {owners : OwnerAddrType}

def Ledger.HasHolder (l : Ledger) (sender : Address) (p : PropertyId) : Prop :=
  ∃ a, a ≠ sender ∧ ∃ t ∈ circulatingTallies, 0 < l.money a p t

theorem Ledger.circulation_eq_sum (l : Ledger) (p : PropertyId) :
    l.circulation p = (l.mpTallyMap.toList.map fun e => e.2.holding p).sum := by
  simp only [circulation, supply, Keyed.sum, circulatingTallies, Tally.holding, List.map_cons,
    List.map_nil, List.sum_cons, List.sum_nil, add_zero, List.sum_map_add]

theorem Ledger.Nonneg.getMoney_circulating (hl : l.Nonneg) {e : Address × Tally}
    (he : e ∈ l.mpTallyMap) : ∀ t ∈ circulatingTallies, 0 ≤ e.2.getMoney p t := by
  intro t ht
  refine hl.getMoney ?_ he
  rintro rfl
  exact absurd ht (by decide)

theorem holdings_pos_iff (hl : l.Nonneg) :
    0 < holdings sender p l.mpTallyMap.toList ↔ l.HasHolder sender p := by
  have hnonneg : ∀ n ∈ l.mpTallyMap.toList.map
      (fun e => if e.1 = sender then 0 else e.2.holding p), 0 ≤ n := by
    intro n hn
    obtain ⟨e, he, rfl⟩ := List.mem_map.mp hn
    split_ifs
    · exact le_rfl
    · exact Tally.holding_nonneg (hl.getMoney_circulating he)
  constructor
  · intro hpos
    obtain ⟨e, he, hlt⟩ := List.exists_lt_of_sum_lt (l := l.mpTallyMap.toList)
      (fun _ => (0 : Int)) (fun e => if e.1 = sender then 0 else e.2.holding p)
      (by simpa [holdings] using hpos)
    split_ifs at hlt with hsender
    · exact absurd hlt (lt_irrefl 0)
    · obtain ⟨t, ht, hmoney⟩ := List.exists_lt_of_sum_lt (l := circulatingTallies)
        (fun _ => (0 : Int)) (fun t => e.2.getMoney p t) (by simpa [Tally.holding] using hlt)
      refine ⟨e.1, hsender, t, ht, ?_⟩
      rwa [Ledger.money, Ledger.tally, OrderedMap.get?_eq_some.mpr he, Option.getD_some]
  · rintro ⟨a, hsender, t, ht, hpos⟩
    cases htally : l.mpTallyMap.get? a with
    | none => simp [Ledger.money, Ledger.tally, htally, Tally.getMoney] at hpos
    | some x =>
      rw [Ledger.money, Ledger.tally, htally, Option.getD_some] at hpos
      have hmem : (a, x) ∈ l.mpTallyMap := OrderedMap.get?_eq_some.mp htally
      have hhold : x.getMoney p t ≤ x.holding p := by
        refine List.single_le_sum ?_ _ (List.mem_map.mpr ⟨t, ht, rfl⟩)
        intro n hn
        obtain ⟨u, hu, rfl⟩ := List.mem_map.mp hn
        exact hl.getMoney_circulating hmem u hu
      have hsum : x.holding p ≤ holdings sender p l.mpTallyMap.toList := by
        refine List.single_le_sum hnonneg _ (List.mem_map.mpr ⟨(a, x), hmem, ?_⟩)
        exact if_neg hsender
      omega

/-- In every order of the map, the first loop collects the owners with the whole of what they
hold. -/
theorem exists_owners {entries : List (Address × Tally)}
    (hentries : entries.Perm l.mpTallyMap.toList) (hl : l.Nonneg)
    (hcap : l.circulation p ≤ int64Max) (sender : Address) :
    ∃ owners : OwnerAddrType, Shares owners.toList ∧
      (0 < owners.total ↔ l.HasHolder sender p) ∧
      owners.total = holdings sender p l.mpTallyMap.toList ∧
      (∀ r, r ∈ owners ↔ Owns sender p l.mpTallyMap.toList r) ∧
      collectOwners sender p entries 0 ∅ = .ok (owners.total, owners) := by
  have hkeys : (l.mpTallyMap.toList.map Prod.fst).Nodup := by
    rw [List.nodup_iff_pairwise_ne, List.pairwise_map]
    exact l.mpTallyMap.sorted.imp fun hlt => hlt.ne
  have hzero : OwnerAddrType.total ∅ = 0 := rfl
  obtain ⟨owners, hshares, htotal, hmem, hrun⟩ := exists_collectOwners sender
    (fun e he => hl.getMoney_circulating (hentries.mem_iff.mp he))
    ((hentries.map Prod.fst).nodup_iff.mpr hkeys) Shares.empty (by simp)
    (by rwa [hzero, zero_add, (hentries.map _).sum_eq, ← l.circulation_eq_sum])
  rw [hzero, zero_add, holdings, (hentries.map _).sum_eq, ← holdings] at htotal
  refine ⟨owners, hshares, ?_, htotal, fun r => ?_, hrun⟩
  · rw [htotal, holdings_pos_iff hl]
  · simp [hmem, Owns, hentries.mem_iff]

theorem Shares.exists_receivers (h : Shares owners.toList)
    (hpos : 0 < owners.total) (hamount : 0 ≤ amount) (hmax : amount ≤ int64Max) :
    ∃ receivers : OwnerAddrType, Shares receivers.toList ∧ receivers.total = amount ∧
      splitAmount amount owners.total owners.toList.reverse 0 ∅ = .ok receivers := by
  refine exists_splitAmount h.reverse (fun r hr => h.le_total (List.mem_reverse.mp hr))
    Shares.empty rfl (by simp) hpos hamount hmax ?_
  rw [sub_zero, List.map_reverse, List.sum_reverse]
  exact le_rfl

theorem Shares.toList_eq_nil (h : Shares owners.toList)
    (hnone : ¬ 0 < owners.total) : owners.toList = [] := by
  rw [List.eq_nil_iff_forall_not_mem]
  intro r hr
  exact hnone ((h.pos r hr).trans_le (h.le_total hr))

theorem exists_stoGetReceivers (hl : l.InRange) (hcap : l.circulation p ≤ int64Max)
    (hamount : 0 ≤ amount) (hmax : amount ≤ int64Max) (hholder : l.HasHolder sender p) :
    ∃ receivers : OwnerAddrType, Shares receivers.toList ∧ receivers.total = amount ∧
      stoGetReceivers l sender p amount = .ok receivers := by
  obtain ⟨owners, hshares, hpos, -, -, hrun⟩ := exists_owners (.refl _) hl.nonneg hcap sender
  rw [stoGetReceivers, hrun, ok_bind]
  exact hshares.exists_receivers (hpos.mpr hholder) hamount hmax

theorem stoGetReceivers_of_not_hasHolder (hl : l.InRange) (hcap : l.circulation p ≤ int64Max)
    (hnone : ¬ l.HasHolder sender p) : stoGetReceivers l sender p amount = .ok ∅ := by
  obtain ⟨owners, hshares, hpos, -, -, hrun⟩ := exists_owners (.refl _) hl.nonneg hcap sender
  rw [stoGetReceivers, hrun, ok_bind]
  dsimp only
  rw [hshares.toList_eq_nil (hpos.not.mpr hnone)]
  rfl

end Receivers

end TradeLayer
