import TradeLayer.Conservation
import TradeLayer.MetaDExRests

namespace TradeLayer
open Library

namespace NodeState

/-- What the placing of an order leaves in the book: nothing that the matching rule would still
trade with the rest of the order. -/
def NoTradeLeft (s : NodeState) (rest : MetaDEx) : Prop :=
  ∀ price o, o ∈ Book.level s.metadex rest.desProperty price → ¬ MetaDEx.Executable rest o

/-- No resting order whose whole rest is too dear for an incoming order comes within its limit
with what the matching rule leaves of it. -/
def TooDearStays (s : NodeState) (pnew : MetaDEx) : Prop :=
  ∀ o, o ∈ Book.level s.metadex pnew.desProperty o.unitPrice → MetaDEx.TooDear pnew o →
    ¬ MetaDEx.Executable (pnew.afterOffers ((s.offers pnew).map Prod.snd)) o

variable {s s' m : NodeState} {env : Environment} {pnew rest : MetaDEx} {visits : List Visit}

section Leftover

variable (h : visitOffers env (s.offers pnew) pnew s = .ok (visits, rest, m))
  (hwant : 0 < pnew.amountDesired)

include h hwant

theorem tooDearStays_of_noTradeLeft (hnone : m.NoTradeLeft rest) : s.TooDearStays pnew := by
  obtain ⟨hpass, hbegins, -⟩ := passes_of_visitOffers h
  have hrest := eq_afterOffers_of_visitOffers h hwant
  have hdes : rest.desProperty = pnew.desProperty := by rw [hpass.pnew_eq]
  intro o ho hdear hexec
  rw [← hrest] at hexec
  refine hnone o.unitPrice o ?_ hexec
  rw [hdes, mem_level_of_visitOffers h (offers_sorted s pnew)]
  refine .inl ⟨ho, fun v hv hfill heq => hfill ?_⟩
  -- the order at the place of this one is this one
  have hv' := (mem_offers.mp (hbegins.subset (List.mem_map.mpr ⟨v, hv, rfl⟩))).2
  rw [priority, priority, toLex_inj, Prod.mk.injEq] at heq
  rw [heq.1] at hv'
  obtain rfl := Keyed.eq_of_key_eq hv' ho heq.2
  obtain ⟨before, after, hvisits⟩ := List.append_of_mem hv
  exact hpass.fill_eq_none_of_tooDear hvisits hwant hdear hexec

theorem noTradeLeft_of_tooDearStays (hsale : 0 ≤ pnew.amountForSale)
    (hplace : ∀ price o, o ∈ Book.level s.metadex pnew.desProperty price → o.unitPrice = price)
    (hstays : s.TooDearStays pnew) : m.NoTradeLeft rest := by
  obtain ⟨hpass, hbegins, hall⟩ := passes_of_visitOffers h
  have hrest := eq_afterOffers_of_visitOffers h hwant
  have hpnew := hpass.pnew_eq
  have hdes : rest.desProperty = pnew.desProperty := by rw [hpnew]
  have hlimit : rest.inversePrice = pnew.inversePrice := by rw [hpnew]; rfl
  intro price o ho hexec
  have hne : rest.amountRemaining ≠ 0 := fun hzero => MetaDEx.not_executable_of_zero hzero hexec
  rw [hdes, mem_level_of_visitOffers h (offers_sorted s pnew)] at ho
  rcases ho with ⟨ho, hspared⟩ | ⟨v, hv, -, hfill, hpart, rfl⟩
  · obtain rfl := hplace price o ho
    have hoffer : (o.unitPrice, o) ∈ s.offers pnew := mem_offers.mpr ⟨hlimit ▸ hexec.2.1, ho⟩
    have hvisited : visits.map (fun v => (v.pold.unitPrice, v.pold)) = s.offers pnew :=
      hbegins.eq_of_length (by rw [List.length_map, hall hne])
    rw [← hvisited] at hoffer
    obtain ⟨v, hv, hvo⟩ := List.mem_map.mp hoffer
    obtain ⟨-, rfl⟩ := Prod.mk.inj hvo
    have hfill : v.fill = none := by
      by_contra hsome
      exact hspared v hv hsome rfl
    obtain ⟨before, after, hvisits⟩ := List.append_of_mem hv
    have hsorted := (offers_sorted s pnew).sublist hbegins.sublist
    rw [hvisits, List.map_append, List.map_cons] at hsorted
    have hlater : ∀ w ∈ after, v.pold.unitPrice ≤ w.pold.unitPrice := by
      intro w hw
      have hlt := (List.pairwise_cons.mp (List.pairwise_append.mp hsorted).2.1).1 _
        (List.mem_map.mpr ⟨w, hw, rfl⟩)
      rcases Prod.Lex.lt_iff.mp hlt with hless | ⟨heq, -⟩
      · exact hless.le
      · exact heq.le
    refine hstays v.pold ho ?_ (hrest ▸ hexec)
    exact hpass.tooDear_of_executable hvisits hwant hsale hlater hfill hexec
  · obtain ⟨before, after, hvisits⟩ := List.append_of_mem hv
    apply hpass.not_executable_of_partial hvisits hfill (sub_pos.mp hpart) _ _ hexec
    · rfl
    · rfl

end Leftover

/-- The placing of an order leaves no trade behind exactly where no resting order whose whole
rest is too dear for it comes within its limit in the end. -/
theorem noTradeLeft_iff {a : Address} {block n d : Int} {p q : PropertyId} {txid idx : Nat}
    (hnew : pnew = .incoming a block p n q d txid idx) (hn : 0 < n) (hd : 0 < d) (hne : p ≠ q)
    (hplace : ∀ price o, o ∈ Book.level s.metadex q price → o.unitPrice = price)
    (htrade : s.xTrade env pnew = .ok (rest, m))
    (hadd : s.metaDExAdd env a p n block q d txid idx = .ok (0, s')) :
    s'.NoTradeLeft rest ↔ s.TooDearStays pnew := by
  subst hnew
  have hprice : 0 < (MetaDEx.incoming a block p n q d txid idx).unitPrice := by
    have hn' : (0 : ℚ) < n := by exact_mod_cast hn
    have hd' : (0 : ℚ) < d := by exact_mod_cast hd
    exact div_pos hd' hn'
  have hlevel := level_of_metaDExAdd hne htrade hprice hadd
  have hdes : rest.desProperty = q :=
    congrArg MetaDEx.desProperty (incoming_of_trades (trades_of_xTrade htrade)).1
  have hsame : s'.NoTradeLeft rest ↔ m.NoTradeLeft rest := by
    rw [NoTradeLeft, NoTradeLeft, hdes]
    simp only [hlevel]
  rw [xTrade_eq (hn.ne' : n ≠ 0)] at htrade
  obtain ⟨⟨visits, r⟩, hvisits, hr⟩ := exists_ok_of_map htrade
  cases hr
  rw [hsame]
  exact ⟨tooDearStays_of_noTradeLeft hvisits hd,
    noTradeLeft_of_tooDearStays hvisits hd hn.le hplace⟩

/-- A buyer uses up the two cheaper price levels and keeps a rest, for which the third is too
dear. -/
theorem noTradeLeft_sampleLevels : ∃ rest m s',
    sampleLevels.xTrade (.plain .main) (.incoming ['B'] 11 4 250 3 120 2 1) = .ok (rest, m) ∧
      sampleLevels.metaDExAdd (.plain .main) ['B'] 4 250 11 3 120 2 1 = .ok (0, s') ∧
      rest.amountRemaining = 40 ∧ sampleDearOrder ∈ Book.level s'.metadex 3 3 ∧
      s'.NoTradeLeft rest := by
  obtain ⟨⟨rest, m⟩, htrade, hleft⟩ := exists_ok_of_map (g := fun r => r.1.amountRemaining)
    (x := sampleLevels.xTrade (.plain .main) (.incoming ['B'] 11 4 250 3 120 2 1)) (b := 40)
    (by decide +kernel)
  obtain ⟨⟨rc, s'⟩, hadd, hrc⟩ := exists_ok_of_map
    (g := fun r => (r.1, decide (sampleDearOrder ∈ Book.level r.2.metadex 3 3)))
    (x := sampleLevels.metaDExAdd (.plain .main) ['B'] 4 250 11 3 120 2 1) (b := (0, true))
    (by decide +kernel)
  simp only [Prod.mk.injEq, decide_eq_true_eq] at hrc
  obtain ⟨rfl, hdear⟩ := hrc
  refine ⟨rest, m, s', htrade, hadd, hleft, hdear, ?_⟩
  have hplace : ∀ price o, o ∈ Book.level sampleLevels.metadex 3 price → o.unitPrice = price :=
    fun price o ho => (bookInvariant_sampleLevels.place ho).2.symm
  refine (noTradeLeft_iff rfl (by decide) (by decide) (by decide) hplace htrade hadd).mpr ?_
  have hentries : ∀ e ∈ Book.entries sampleLevels.metadex,
      MetaDEx.TooDear (.incoming ['B'] 11 4 250 3 120 2 1) e.2.2 →
        ¬ MetaDEx.Executable ((MetaDEx.incoming ['B'] 11 4 250 3 120 2 1).afterOffers
          ((sampleLevels.offers (.incoming ['B'] 11 4 250 3 120 2 1)).map Prod.snd)) e.2.2 := by
    decide +kernel
  exact fun o ho => hentries (3, o.unitPrice, o) (Book.mem_entries.mpr ho)

def sampleTraders : NodeState :=
  { NodeState.initial .main .zero with
    ledger := .ofPostings [⟨⟨['A'], 4, .balance⟩, 6⟩, ⟨⟨['B'], 3, .balance⟩, 1⟩,
      ⟨⟨['C'], 4, .balance⟩, 3⟩, ⟨⟨['D'], 3, .balance⟩, 4⟩] }

def sampleAsks : List (Int × Operation) :=
  [(100, .metaDExAdd ['A'] 4 6 3 4 1 1), (100, .metaDExAdd ['B'] 3 1 4 1 2 2),
    (101, .metaDExAdd ['C'] 4 3 3 2 3 1)]

def sampleSkipped : MetaDEx :=
  { MetaDEx.incoming ['A'] 100 4 6 3 4 1 1 with amountRemaining := 5 }

def sampleLeft : MetaDEx := { MetaDEx.incoming ['D'] 102 3 4 4 6 4 1 with amountRemaining := 2 }

/-- An order of four for six then passes over the five units that are left of the first order,
which would cost it four, buys the second order for two and goes into the book with two more, for
which it could have had three of the five units. -/
theorem tradeLeft_of_sampleAsks : ∃ s rest m s' o,
    sampleTraders.runOperations (.plain .main) sampleAsks = .ok s ∧
      s.xTrade (.plain .main) (.incoming ['D'] 102 3 4 4 6 4 1) = .ok (rest, m) ∧
      s.metaDExAdd (.plain .main) ['D'] 3 4 102 4 6 4 1 = .ok (0, s') ∧
      o ∈ Book.level s'.metadex rest.desProperty (2 / 3) ∧ MetaDEx.Executable rest o := by
  obtain ⟨s, hrun, hs⟩ := exists_ok_of_map
    (g := fun s => decide ((s.xTrade (.plain .main) (.incoming ['D'] 102 3 4 4 6 4 1)).map
        Prod.fst = .ok sampleLeft ∧
      (s.metaDExAdd (.plain .main) ['D'] 3 4 102 4 6 4 1).map
        (fun r => (r.1, (Book.level r.2.metadex 4 (2 / 3)).toList)) = .ok (0, [sampleSkipped])))
    (x := sampleTraders.runOperations (.plain .main) sampleAsks) (b := true) (by decide +kernel)
  obtain ⟨htrade, hadd⟩ := of_decide_eq_true hs
  obtain ⟨⟨rest, m⟩, htrade, rfl⟩ := exists_ok_of_map htrade
  obtain ⟨⟨rc, s'⟩, hadd, hbook⟩ := exists_ok_of_map hadd
  obtain ⟨rfl, hlevel⟩ := Prod.mk.inj hbook
  refine ⟨s, sampleLeft, m, s', sampleSkipped, hrun, htrade, hadd, ?_, by decide +kernel⟩
  rw [Keyed.mem_def]
  exact hlevel ▸ List.mem_singleton_self sampleSkipped

end NodeState

end TradeLayer
