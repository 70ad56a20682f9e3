import TradeLayer.MetaDExReady
import TradeLayer.TradeList

namespace TradeLayer
open Library

/-- A match of an incoming order with an order that rests, as the two were before it. -/
structure DexFill where
  pold : MetaDEx
  pnew : MetaDEx
  got : Int
  paid : Int
  fee : Int

namespace DexFill

def record (x : DexFill) : TradeCall :=
  .recordMatchedTrade x.pold.txid x.pnew.txid x.pold.addr x.pnew.addr x.pold.desProperty
    x.pnew.desProperty x.paid (x.got - x.fee) x.pnew.block x.fee

def soldBy (txid : Nat) (x : DexFill) : Int :=
  (if x.pnew.txid = txid then x.paid else 0) + if x.pold.txid = txid then x.got else 0

def feeOf (txid : Nat) (x : DexFill) : Int := if x.pold.txid = txid then x.fee else 0

end DexFill

def MetaDEx.newTrade (o : MetaDEx) : TradeCall :=
  .recordNewTrade o.txid o.addr o.property o.desProperty o.block (asInt32 o.idx)

namespace NodeState

def fillOf (s : NodeState) (v : Visit) : Option DexFill :=
  v.fill.map fun f => ⟨v.pold, v.pnew, f.1, f.2, (s.tradingFee v.pnew v.pold f.1).getD 0⟩

def fillsOf (s : NodeState) (env : Environment) (pnew : MetaDEx) : List DexFill :=
  match visitOffers env (s.offers pnew) pnew s with
  | .ok (visits, _) => visits.filterMap s.fillOf
  | .error _ => []

end NodeState

def metaDExIsOpen (b : MdPropertiesMap) (txid : Nat) (propertyIdForSale : PropertyId) : Bool :=
  (Book.entries b).any fun e =>
    (propertyIdForSale = 0 || propertyIdForSale = e.1) && e.2.2.txid = txid

/-- What happened on the exchange: the orders that came in, their matches, the records that were
written and the orders that were taken out of the book. -/
structure DexLog where
  orders : List MetaDEx
  fills : List DexFill
  records : List TradeCall
  removed : List Nat

namespace DexLog

def sold (log : DexLog) (txid : Nat) : Int := (log.fills.map (DexFill.soldBy txid)).sum

def fees (log : DexLog) (txid : Nat) : Int := (log.fills.map (DexFill.feeOf txid)).sum

def rest (log : DexLog) (o : MetaDEx) : MetaDEx :=
  { o with amountRemaining := o.amountForSale - log.sold o.txid }

def placed (log : DexLog) (o : MetaDEx) (fills : List DexFill) : DexLog where
  orders := log.orders ++ [o]
  fills := log.fills ++ fills
  records := log.records ++ o.newTrade :: fills.map DexFill.record
  removed := log.removed

def cancelled (log : DexLog) (b b' : MdPropertiesMap) : DexLog :=
  { log with removed := log.removed ++
      ((Book.entries b).filter fun e => !metaDExIsOpen b' e.2.2.txid e.1).map (·.2.2.txid) }

/-- An order that passed the checks of its message, with a hash and a position of its own. -/
structure Admits (log : DexLog) (o : MetaDEx) : Prop where
  storable : o.Storable
  forSale : 0 < o.amountForSale
  desired : 0 < o.amountDesired
  fresh : ∀ o' ∈ log.orders, o'.txid ≠ o.txid ∧ o'.position ≠ o.position

end DexLog

/-- The books and the logs that calls lead to, whatever happens to the rest of the node before each
of them. -/
inductive DexHistory : MdPropertiesMap → DexLog → Prop
  | empty : DexHistory ∅ ⟨[], [], [], []⟩
  | add {env : Environment} {s s' : NodeState} {log : DexLog} {a : Address} {p q : PropertyId}
      {n block d rc : Int} {txid idx : Nat} : DexHistory s.metadex log →
      log.Admits (.incoming a block p n q d txid idx) →
      s.metaDExAdd env a p n block q d txid idx = .ok (rc, s') →
      DexHistory s'.metadex (log.placed (.incoming a block p n q d txid idx)
        (s.fillsOf env (.incoming a block p n q d txid idx)))
  | cancel {env : Environment} {s s' : NodeState} {log : DexLog} {c : MetaDExCall} {rc : Int} :
      DexHistory s.metadex log → c.position = none → c.call env s = .ok (rc, s') →
      DexHistory s'.metadex (log.cancelled s.metadex s'.metadex)
  | shutdownAllPair {s s' : NodeState} {log : DexLog} {rc : Int} : DexHistory s.metadex log →
      s.metaDExShutdownAllPair = .ok (rc, s') →
      DexHistory s'.metadex (log.cancelled s.metadex s'.metadex)

namespace DexLog

variable {log : DexLog} {b : MdPropertiesMap} {o o' pold pnew pnew' : MetaDEx}
variable {s s' s₀ : NodeState} {env : Environment} {x : DexFill} {fills : List DexFill}

/-- The book follows from the log: an order rests in it with what it has not sold, unless it was
taken out. -/
structure Tracks (log : DexLog) (b : MdPropertiesMap) : Prop where
  txids : (log.orders.map MetaDEx.txid).Nodup
  positions : (log.orders.map MetaDEx.position).Nodup
  mem_level : ∀ p r o', o' ∈ Book.level b p r ↔ ∃ o ∈ log.orders, p = o.property ∧
    r = o.unitPrice ∧ o' = log.rest o ∧ o.txid ∉ log.removed ∧ log.sold o.txid < o.amountForSale
  sold_le : ∀ o ∈ log.orders, log.sold o.txid ≤ o.amountForSale
  removed_lt : ∀ o ∈ log.orders, o.txid ∈ log.removed → log.sold o.txid < o.amountForSale

def filled (log : DexLog) (fills : List DexFill) : DexLog :=
  { log with fills := log.fills ++ fills }

theorem sold_filled {txid : Nat} :
    (log.filled fills).sold txid = log.sold txid + (fills.map (DexFill.soldBy txid)).sum := by
  rw [sold, filled, List.map_append, List.sum_append, sold]

theorem filled_cons : (log.filled [x]).filled fills = log.filled (x :: fills) := by
  rw [filled, filled, filled, List.append_assoc]
  rfl

namespace Tracks

theorem eq_of_txid_eq (h : log.Tracks b) (ho : o ∈ log.orders) (ho' : o' ∈ log.orders)
    (heq : o.txid = o'.txid) : o = o' :=
  List.inj_on_of_nodup_map h.txids ho ho' heq

theorem eq_of_position_eq (h : log.Tracks b) (ho : o ∈ log.orders) (ho' : o' ∈ log.orders)
    (heq : o.position = o'.position) : o = o' :=
  List.inj_on_of_nodup_map h.positions ho ho' heq

theorem fill (h : log.Tracks s.metadex) (hfresh : ∀ o ∈ log.orders, o.txid ≠ x.pnew.txid)
    (hmem : x.pold ∈ Book.level s.metadex x.pnew.desProperty x.pold.unitPrice)
    (hle : x.got ≤ x.pold.amountRemaining)
    (hexec : s.executeTrade env x.pold.unitPrice x.pnew x.pold x.got x.paid = .ok s') :
    (log.filled [x]).Tracks s'.metadex := by
  obtain ⟨o₀, ho₀, hp, hr, hold, hin, hlt⟩ := (h.mem_level _ _ _).mp hmem
  have htxid : x.pold.txid = o₀.txid := by rw [hold]; rfl
  have hposition : x.pold.position = o₀.position := by rw [hold]; rfl
  have hremaining : x.pold.amountRemaining = o₀.amountForSale - log.sold o₀.txid := by
    rw [hold]; rfl
  have hsold : ∀ o ∈ log.orders, (log.filled [x]).sold o.txid =
      log.sold o.txid + if o = o₀ then x.got else 0 := by
    intro o ho
    have hiff : o₀.txid = o.txid ↔ o = o₀ :=
      ⟨fun heq => (h.eq_of_txid_eq ho₀ ho heq).symm, fun heq => heq ▸ rfl⟩
    rw [sold_filled]
    simp [DexFill.soldBy, (hfresh o ho).symm, htxid, hiff]
  have hother : ∀ o ∈ log.orders, o ≠ o₀ → (log.filled [x]).rest o = log.rest o := by
    intro o ho hne
    rw [rest, rest, hsold o ho, if_neg hne, add_zero]
  have hleft : (log.filled [x]).rest o₀ =
      { x.pold with amountRemaining := x.pold.amountRemaining - x.got } := by
    rw [rest, hsold o₀ ho₀, if_pos rfl, hold]
    simp only [rest, sub_sub]
  refine ⟨h.txids, h.positions, fun p r o' => ?_, fun o ho => ?_, fun o ho hremoved => ?_⟩
  · rw [NodeState.mem_level_executeTrade hexec, h.mem_level]
    constructor
    · rintro (⟨⟨o, ho, rfl, rfl, rfl, hin', hlt'⟩, hne⟩ | ⟨hpos, rfl, rfl, rfl⟩)
      · have hne' : o ≠ o₀ := by
          rintro rfl
          exact hne ⟨hp.symm, hr.symm, hposition.symm⟩
        refine ⟨o, ho, rfl, rfl, (hother o ho hne').symm, hin', ?_⟩
        rwa [hsold o ho, if_neg hne', add_zero]
      · refine ⟨o₀, ho₀, hp, hr, hleft.symm, hin, ?_⟩
        rw [hsold o₀ ho₀, if_pos rfl]
        omega
    · rintro ⟨o, ho, rfl, rfl, rfl, hin', hlt'⟩
      by_cases heq : o = o₀
      · subst heq
        rw [hsold o ho, if_pos rfl] at hlt'
        exact .inr ⟨by omega, hp.symm, hr.symm, hleft⟩
      · rw [hsold o ho, if_neg heq, add_zero] at hlt'
        rw [hother o ho heq]
        refine .inl ⟨⟨o, ho, rfl, rfl, rfl, hin', hlt'⟩, fun hplace => heq ?_⟩
        exact h.eq_of_position_eq ho ho₀ (hplace.2.2.trans hposition)
  · rw [hsold o ho]
    split_ifs with heq
    · subst heq
      omega
    · simpa using h.sold_le o ho
  · rw [hsold o ho]
    split_ifs with heq
    · subst heq
      exact absurd hremoved hin
    · simpa using h.removed_lt o ho hremoved

theorem visits {offers : List (ℚ × MetaDEx)} {visits : List Visit} (h : log.Tracks s.metadex)
    (hfresh : ∀ o ∈ log.orders, o.txid ≠ pnew.txid)
    (hmem : ∀ e ∈ offers, e.2 ∈ Book.level s.metadex pnew.desProperty e.1)
    (hsorted : offers.Pairwise fun a b => priority a < priority b)
    (hrun : NodeState.visitOffers env offers pnew s = .ok (visits, pnew', s')) :
    (log.filled (visits.filterMap s₀.fillOf)).Tracks s'.metadex := by
  induction offers generalizing log pnew s visits with
  | nil =>
    cases hrun
    simpa [filled] using h
  | cons e offers ih =>
    obtain ⟨hfirst, hsorted⟩ := List.pairwise_cons.mp hsorted
    obtain ⟨hmem₀, hmem⟩ := List.forall_mem_cons.mp hmem
    obtain ⟨⟨pmid, m⟩, hm, hloop⟩ := bind_eq_ok.mp hrun
    obtain ⟨hprice, ⟨hfill, rfl, rfl⟩ | ⟨got, paid, hfill, hexec, rfl⟩⟩ :=
      NodeState.matchOrder_eq_ok hm
    · have hnone : s₀.fillOf ⟨pmid, e.2⟩ = none := by
        rw [NodeState.fillOf, Visit.fill_eq hfill]
        rfl
      dsimp only at hloop
      split_ifs at hloop
      · cases hloop
        simpa [filled, hnone] using h
      · obtain ⟨⟨vs, r⟩, hr, hloop⟩ := bind_eq_ok.mp hloop
        cases hloop
        rw [List.filterMap_cons_none hnone]
        exact ih h hfresh hmem hsorted hr
    · have hsome : s₀.fillOf ⟨pnew, e.2⟩ = some
          ⟨e.2, pnew, got, paid, (s₀.tradingFee pnew e.2 got).getD 0⟩ := by
        rw [NodeState.fillOf, Visit.fill_eq hfill]
        rfl
      obtain ⟨-, hwithin, -⟩ := MetaDEx.fill_eq_some hfill
      rw [← hprice] at hmem₀ hexec
      have hstep := h.fill (x := ⟨e.2, pnew, got, paid, (s₀.tradingFee pnew e.2 got).getD 0⟩)
        hfresh hmem₀ (sub_nonneg.mp hwithin.2.2.1) hexec
      dsimp only at hloop
      split_ifs at hloop
      · cases hloop
        rw [List.filterMap_cons_some hsome]
        exact hstep
      · obtain ⟨⟨vs, r⟩, hr, hloop⟩ := bind_eq_ok.mp hloop
        cases hloop
        rw [List.filterMap_cons_some hsome, ← filled_cons]
        refine ih hstep ?_ (fun e' he' => ?_) hsorted hr
        · exact hfresh
        rw [NodeState.mem_level_executeTrade hexec]
        refine .inl ⟨hmem e' he', fun hplace => absurd (hfirst e' he') ?_⟩
        rw [priority, priority, hplace.2.1, hplace.2.2, hprice]
        exact lt_irrefl _

end Tracks

end DexLog

structure DexFill.Proper (orders : List MetaDEx) (taker : MetaDEx) (x : DexFill) : Prop where
  taker : x.pnew = { taker with amountRemaining := x.pnew.amountRemaining }
  maker : ∃ o ∈ orders, x.pold = { o with amountRemaining := x.pold.amountRemaining }
  pair : x.pnew.property = x.pold.desProperty ∧ x.pold.property = x.pnew.desProperty ∧
    x.pnew.property ≠ x.pnew.desProperty
  got : 0 < x.got ∧ x.got ≤ int64Max
  paid : 0 < x.paid ∧ x.paid ≤ int64Max
  fee : 0 ≤ x.fee ∧ x.fee < x.got

namespace DexLog

structure Proper (log : DexLog) : Prop where
  orders : ∀ o ∈ log.orders, o.Storable
  forSale : ∀ o ∈ log.orders, 0 < o.amountForSale
  fills : ∀ x ∈ log.fills, ∃ taker ∈ log.orders, x.Proper log.orders taker
  pairs : log.fills.Pairwise fun x y => x.pold.txid = y.pold.txid → x.pnew.txid ≠ y.pnew.txid
  records : log.records.Perm (log.orders.map MetaDEx.newTrade ++ log.fills.map DexFill.record)
  removed : ∀ txid ∈ log.removed, txid ∈ log.orders.map MetaDEx.txid

end DexLog

namespace DexFill.Proper

variable {x : DexFill} {orders orders' : List MetaDEx} {taker : MetaDEx} {txid : Nat}

theorem mono (h : x.Proper orders taker) (hsub : orders ⊆ orders') : x.Proper orders' taker :=
  { h with maker := h.maker.imp fun _ ho => ⟨hsub ho.1, ho.2⟩ }

theorem txid_taker (h : x.Proper orders taker) : x.pnew.txid = taker.txid := by
  rw [h.taker]

theorem soldBy_nonneg (h : x.Proper orders taker) : 0 ≤ x.soldBy txid := by
  have hgot := h.got
  have hpaid := h.paid
  rw [DexFill.soldBy]
  split_ifs <;> omega

theorem soldBy_eq_zero (h : x.Proper orders taker) (htaker : taker.txid ≠ txid)
    (horders : ∀ o ∈ orders, o.txid ≠ txid) : x.soldBy txid = 0 := by
  obtain ⟨o, ho, hpold⟩ := h.maker
  have hmaker : x.pold.txid ≠ txid := by
    rw [hpold]
    exact horders o ho
  rw [DexFill.soldBy, if_neg (h.txid_taker ▸ htaker), if_neg hmaker, add_zero]

end DexFill.Proper

namespace DexLog

variable {log : DexLog} {o pnew pnew' : MetaDEx} {s s' s₀ : NodeState} {env : Environment}
variable {x : DexFill} {fills : List DexFill} {txid : Nat} {offers : List (ℚ × MetaDEx)}
variable {visits : List Visit}

theorem Proper.sold_nonneg (h : log.Proper) : 0 ≤ log.sold txid := by
  apply List.sum_nonneg
  intro n hn
  obtain ⟨x, hx, rfl⟩ := List.mem_map.mp hn
  obtain ⟨taker, -, hproper⟩ := h.fills x hx
  exact hproper.soldBy_nonneg

theorem Proper.sold_eq_zero (h : log.Proper) (hfresh : ∀ o ∈ log.orders, o.txid ≠ txid) :
    log.sold txid = 0 := by
  apply List.sum_eq_zero
  intro n hn
  obtain ⟨x, hx, rfl⟩ := List.mem_map.mp hn
  obtain ⟨taker, htaker, hproper⟩ := h.fills x hx
  exact hproper.soldBy_eq_zero (hfresh taker htaker) hfresh

section Visits

variable (h : log.Tracks s.metadex) (hlog : log.Proper)
  (hmem : ∀ e ∈ offers, e.2 ∈ Book.level s.metadex pnew.desProperty e.1)
  (hrun : NodeState.visitOffers env offers pnew s = .ok (visits, pnew', s'))

include h hmem hrun

theorem maker_of_visit {v : Visit} (hv : v ∈ visits) : ∃ o ∈ log.orders, v.pold = log.rest o := by
  obtain ⟨-, hbegins, -⟩ := NodeState.passes_of_visitOffers hrun
  have hold := hmem _ (hbegins.subset (List.mem_map_of_mem hv))
  obtain ⟨o, ho, -, -, hpold, -, -⟩ := (h.mem_level _ _ _).mp hold
  exact ⟨o, ho, hpold⟩

include hlog in
theorem proper_of_visit (hmax : pnew.amountRemaining ≤ int64Max) {v : Visit} (hv : v ∈ visits)
    (hx : s₀.fillOf v = some x) : x.Proper log.orders pnew := by
  obtain ⟨hpass, -, -⟩ := NodeState.passes_of_visitOffers hrun
  obtain ⟨done, rest, hsplit⟩ := List.append_of_mem hv
  have hpnew := ((hsplit ▸ hpass).split).1
  obtain ⟨o, ho, hpold⟩ := maker_of_visit h hmem hrun hv
  rw [NodeState.fillOf, Option.map_eq_some_iff] at hx
  obtain ⟨⟨got, paid⟩, hfill, rfl⟩ := hx
  have hfill := Visit.fill_eq_some.mp hfill
  obtain ⟨hmatch, hwithin, hgot, -⟩ := MetaDEx.fill_eq_some hfill
  obtain ⟨hsale, hdesired, -, rfl⟩ := MetaDEx.amounts_of_fill hfill
  refine ⟨?_, ⟨o, ho, ?_⟩, ⟨hmatch.2.2.2.1, hmatch.2.2.2.2.1, hmatch.2.2.1⟩, ⟨hgot, ?_⟩,
    ⟨MetaDEx.cost_pos hsale hdesired hgot, ?_⟩, NodeState.tradingFee_bounds hmatch hgot⟩
  · dsimp only
    rw [hpnew]
  · dsimp only
    rw [hpold]
    rfl
  · have hremaining : v.pold.amountRemaining = o.amountForSale - log.sold o.txid := by
      rw [hpold]
      rfl
    have hsold : 0 ≤ log.sold o.txid := hlog.sold_nonneg
    have hrange := (hlog.orders o ho).amountForSale
    have hleft := hwithin.2.2.1
    dsimp only
    rw [int64Max]
    omega
  · have hremaining : v.pnew.amountRemaining =
        pnew.amountRemaining - (done.map Visit.paid).sum := by
      rw [hpnew]
    have hpaid := Passes.sum_paid_nonneg done
    have hleft := hwithin.2.2.2
    dsimp only at hleft ⊢
    omega

theorem pairs_of_visits (hsorted : offers.Pairwise fun a b => priority a < priority b) :
    (visits.filterMap s₀.fillOf).Pairwise fun x y => x.pold.txid ≠ y.pold.txid := by
  obtain ⟨-, hbegins, -⟩ := NodeState.passes_of_visitOffers hrun
  have hvisits := List.pairwise_map.mp (List.Pairwise.sublist hbegins.sublist hsorted)
  have hpold : ∀ v x, s₀.fillOf v = some x → x.pold = v.pold := by
    intro v x hx
    rw [NodeState.fillOf, Option.map_eq_some_iff] at hx
    obtain ⟨f, -, rfl⟩ := hx
    rfl
  rw [List.pairwise_filterMap]
  refine List.Pairwise.imp_of_mem (fun {v w} hv hw hlt x hx y hy htxid => ?_) hvisits
  rw [hpold v x hx, hpold w y hy] at htxid
  obtain ⟨o, ho, hov⟩ := maker_of_visit h hmem hrun hv
  obtain ⟨o', ho', how⟩ := maker_of_visit h hmem hrun hw
  rw [hov, how] at htxid
  obtain rfl : o = o' := h.eq_of_txid_eq ho ho' htxid
  rw [hov, how] at hlt
  exact lt_irrefl _ hlt

theorem sold_of_visits (hfresh : ∀ o ∈ log.orders, o.txid ≠ pnew.txid) :
    ((visits.filterMap s₀.fillOf).map (DexFill.soldBy pnew.txid)).sum =
      (visits.map Visit.paid).sum := by
  have hvisit : ∀ v ∈ visits, v.pnew.txid = pnew.txid ∧ v.pold.txid ≠ pnew.txid := by
    intro v hv
    obtain ⟨o, ho, hpold⟩ := maker_of_visit h hmem hrun hv
    obtain ⟨done, rest, hsplit⟩ := List.append_of_mem hv
    have hpass := (NodeState.passes_of_visitOffers hrun).1
    rw [hsplit] at hpass
    rw [hpass.split.1, hpold]
    exact ⟨rfl, hfresh o ho⟩
  clear hrun
  induction visits with
  | nil => rfl
  | cons v visits ih =>
    obtain ⟨⟨hnew, hold⟩, hvisit⟩ := List.forall_mem_cons.mp hvisit
    rw [List.map_cons, List.sum_cons, ← ih hvisit]
    cases hfill : v.fill with
    | none =>
      have hnone : s₀.fillOf v = none := by rw [NodeState.fillOf, hfill]; rfl
      rw [List.filterMap_cons_none hnone, Visit.paid, hfill]
      exact (zero_add _).symm
    | some f =>
      have hsome : s₀.fillOf v = some ⟨v.pold, v.pnew, f.1, f.2,
          (s₀.tradingFee v.pnew v.pold f.1).getD 0⟩ := by
        rw [NodeState.fillOf, hfill]
        rfl
      rw [List.filterMap_cons_some hsome, List.map_cons, List.sum_cons, Visit.paid, hfill,
        DexFill.soldBy, if_pos hnew, if_neg hold, add_zero]
      rfl

end Visits

namespace Proper

variable (h : log.Proper)

include h

theorem mem_records {c : TradeCall} (hc : c ∈ log.records) :
    (∃ o ∈ log.orders, c = o.newTrade) ∨ ∃ x ∈ log.fills, c = x.record := by
  have hc := h.records.mem_iff.mp hc
  simpa [eq_comm] using hc

theorem txids_lt (hx : x ∈ log.fills) : x.pold.txid < 2 ^ 256 ∧ x.pnew.txid < 2 ^ 256 := by
  obtain ⟨taker, htaker, hproper⟩ := h.fills x hx
  obtain ⟨maker, hmaker, hpold⟩ := hproper.maker
  rw [hpold, hproper.taker]
  exact ⟨(h.orders maker hmaker).txid, (h.orders taker htaker).txid⟩

theorem typed_record (hx : x ∈ log.fills) : x.record.Typed ∧ x.record.Traded := by
  have htxids := h.txids_lt hx
  obtain ⟨taker, htaker, hproper⟩ := h.fills x hx
  obtain ⟨maker, hmaker, hpold⟩ := hproper.maker
  have hbuyer := h.orders taker htaker
  have hseller := h.orders maker hmaker
  have hamounts : InInt64 x.paid ∧ InInt64 (x.got - x.fee) ∧ InInt64 x.fee := by
    have hgot := hproper.got
    have hpaid := hproper.paid
    have hfee := hproper.fee
    simp only [InInt64, int64Min]
    omega
  refine ⟨⟨?_, ?_⟩, htxids, ?_, hamounts⟩
  · rw [DexFill.record, hpold, hproper.taker]
    simpa [TradeCall.addresses] using ⟨hseller.addr, hbuyer.addr⟩
  · rw [DexFill.record, hpold, hproper.taker]
    simpa [TradeCall.heights] using hbuyer.block
  · rw [hpold, hproper.taker]
    exact ⟨hseller.desProperty, hbuyer.desProperty⟩

theorem typed_records {c : TradeCall} (hc : c ∈ log.records) : c.Typed ∧ c.Traded := by
  rcases h.mem_records hc with ⟨o, ho, rfl⟩ | ⟨x, hx, rfl⟩
  · have hstore := h.orders o ho
    have hidx : -2 ^ 31 ≤ asInt32 o.idx ∧ asInt32 o.idx < 2 ^ 31 :=
      ⟨BitVec.le_toInt _, BitVec.toInt_lt⟩
    refine ⟨⟨?_, ?_⟩, hstore.txid⟩
    · simpa [MetaDEx.newTrade, TradeCall.addresses] using hstore.addr
    · simpa [MetaDEx.newTrade, TradeCall.heights] using ⟨hstore.block, hidx⟩
  · exact h.typed_record hx

theorem nodup_keys (hnodup : (log.orders.map MetaDEx.txid).Nodup) :
    (log.records.map TradeCall.key).Nodup := by
  rw [(h.records.map TradeCall.key).nodup_iff, List.map_append, List.map_map, List.map_map,
    List.nodup_append]
  refine ⟨?_, ?_, ?_⟩
  · rw [List.nodup_map_iff_inj_on hnodup.of_map]
    intro o ho o' ho' hkey
    have htxid := (hexText_inj (h.orders o ho).txid (h.orders o' ho').txid).mp hkey
    exact List.inj_on_of_nodup_map hnodup ho ho' htxid
  · rw [List.Nodup, List.pairwise_map]
    refine h.pairs.imp_of_mem fun {x y} hx hy hpair hkey => ?_
    obtain ⟨hxold, hxnew⟩ := h.txids_lt hx
    obtain ⟨hyold, hynew⟩ := h.txids_lt hy
    have hlength : (hexText x.pold.txid).length = (hexText y.pold.txid).length := by
      rw [length_hexText hxold, length_hexText hyold]
    obtain ⟨hold, hnew⟩ := List.append_inj hkey hlength
    exact hpair ((hexText_inj hxold hyold).mp hold)
      ((hexText_inj hxnew hynew).mp (List.cons.inj hnew).2)
  · simp only [List.forall_mem_map]
    intro o ho x hx hkey
    have hlength := congrArg List.length hkey
    obtain ⟨hold, hnew⟩ := h.txids_lt hx
    have hmatch : (TradeCall.key x.record).length = 129 := by
      rw [DexFill.record, TradeCall.key, List.length_append, List.length_cons,
        length_hexText hold, length_hexText hnew]
    have hnewTrade : (TradeCall.key o.newTrade).length = 64 := length_hexText (h.orders o ho).txid
    simp only [Function.comp_apply, hmatch, hnewTrade] at hlength
    cases hlength

end Proper

end DexLog

end TradeLayer
