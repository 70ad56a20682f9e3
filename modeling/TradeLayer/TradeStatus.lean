import TradeLayer.DexTracking
import TradeLayer.MetaDExSafety

namespace TradeLayer
open Library

inductive TradeStatus
  | tradeOpen
  | tradeOpenPartFilled
  | tradeFilled
  | tradeCancelled
  | tradeCancelledPartFilled
  | tradeInvalid
deriving DecidableEq, Repr

def getValidMPTX (txs : TextDb) (txid : Nat) : Bool :=
  match txs.get? (hexText txid) with
  | none => false
  | some value => atoiInt ((splitColons value).getD 0 []) ≠ 0

def statusOfSold (txs : TextDb) (b : MdPropertiesMap) (txid : Nat) (propertyIdForSale : PropertyId)
    (amountForSale totalSold : Int) : TradeStatus :=
  if ¬ getValidMPTX txs txid then .tradeInvalid
  else if metaDExIsOpen b txid propertyIdForSale then
    if totalSold = 0 then .tradeOpen else .tradeOpenPartFilled
  else if totalSold = 0 then .tradeCancelled
  else if totalSold < amountForSale then .tradeCancelledPartFilled
  else .tradeFilled

/-- The status of an order, with the sold amount added up from the trade list if it is not given. -/
def metaDExGetStatus (trades txs : TextDb) (b : MdPropertiesMap) (txid : Nat)
    (propertyIdForSale : PropertyId) (amountForSale totalSold : Int) :
    Except RestoreError TradeStatus := do
  let sold ← if totalSold = -1 then
      (·.1) <$> getMatchingTrades trades txid propertyIdForSale
    else pure totalSold
  return statusOfSold txs b txid propertyIdForSale amountForSale sold

namespace DexLog

variable {log : DexLog} {b : MdPropertiesMap} {txs : TextDb} {o : MetaDEx} {x : DexFill}
variable {txid : Nat}

def HasFills (log : DexLog) (txid : Nat) : Prop :=
  ∃ x ∈ log.fills, x.pold.txid = txid ∨ x.pnew.txid = txid

def Rests (b : MdPropertiesMap) (txid : Nat) : Prop := ∃ e ∈ Book.entries b, e.2.2.txid = txid

/-- The status that is computed from the trade list tells what happened to an order. -/
def StatusRight (log : DexLog) (b : MdPropertiesMap) (txs : TextDb) (o : MetaDEx) : Prop :=
  ∃ status, metaDExGetStatus (TradeCall.tradeDb log.records) txs b o.txid o.property
      o.amountForSale (-1) = .ok status ∧
    (status = .tradeFilled ↔ log.sold o.txid = o.amountForSale) ∧
    (status = .tradeOpen ↔ Rests b o.txid ∧ ¬ log.HasFills o.txid) ∧
    (status = .tradeOpenPartFilled ↔ Rests b o.txid ∧ log.HasFills o.txid) ∧
    (status = .tradeCancelled ↔ o.txid ∈ log.removed ∧ ¬ log.HasFills o.txid) ∧
    (status = .tradeCancelledPartFilled ↔ o.txid ∈ log.removed ∧ log.HasFills o.txid)

theorem sold_sub_fees : log.sold txid - log.fees txid =
    (log.fills.map fun x => x.soldBy txid - x.feeOf txid).sum := by
  rw [eq_comm, eq_sub_iff_add_eq, fees, ← List.sum_map_add]
  simp only [sub_add_cancel, sold]

section Orders

variable (h : log.Tracks b) (hlog : log.Proper)

include h

theorem Tracks.rests_iff (ho : o ∈ log.orders) : Rests b o.txid ↔
    o.txid ∉ log.removed ∧ log.sold o.txid < o.amountForSale := by
  rw [← h.isOpen_iff ho, metaDExIsOpen_iff]
  constructor
  · rintro ⟨⟨p, r, o'⟩, he, htxid⟩
    have ho' := Book.mem_entries.mp he
    exact ⟨p, r, o', ho', .inr (h.eq_rest ho ho' htxid).1.symm, htxid⟩
  · rintro ⟨p, r, o', ho', -, htxid⟩
    exact ⟨(p, r, o'), Book.mem_entries.mpr ho', htxid⟩

include hlog

theorem Tracks.sides (ho : o ∈ log.orders) (hx : x ∈ log.fills) :
    (x.pnew.txid = o.txid → x.pnew.property = o.property ∧ x.pold.txid ≠ o.txid) ∧
      (x.pold.txid = o.txid → x.pold.property = o.property) := by
  obtain ⟨taker, htaker, hproper⟩ := hlog.fills x hx
  obtain ⟨maker, hmaker, hpold⟩ := hproper.maker
  have htakerEq : x.pnew.txid = o.txid → taker = o := fun heq =>
    h.eq_of_txid_eq htaker ho (hproper.txid_taker.symm.trans heq)
  have hmakerEq : x.pold.txid = o.txid → maker = o := by
    intro heq
    rw [hpold] at heq
    exact h.eq_of_txid_eq hmaker ho heq
  have hpnewProperty : x.pnew.property = taker.property := by rw [hproper.taker]
  have hpoldProperty : x.pold.property = maker.property := by rw [hpold]
  refine ⟨fun heq => ⟨?_, fun heq' => ?_⟩, fun heq => ?_⟩
  · rw [hpnewProperty, htakerEq heq]
  · -- an order would have to buy what it sells
    apply hproper.pair.2.2
    rw [← hproper.pair.2.1, hpoldProperty, hpnewProperty, htakerEq heq, hmakerEq heq']
  · rw [hpoldProperty, hmakerEq heq]

theorem Tracks.amounts_record (ho : o ∈ log.orders) (hx : x ∈ log.fills) :
    (x.record.amounts o.txid o.property).1 = x.soldBy o.txid - x.feeOf o.txid := by
  obtain ⟨taker, -, hproper⟩ := hlog.fills x hx
  obtain ⟨hsell, hrest⟩ := h.sides hlog ho hx
  have hpair := hproper.pair
  rw [DexFill.record, TradeCall.amounts, DexFill.soldBy, DexFill.feeOf]
  by_cases hnew : x.pnew.txid = o.txid
  · obtain ⟨hproperty, hold⟩ := hsell hnew
    rw [if_pos (.inr hnew), if_pos (hpair.1.symm.trans hproperty), if_pos hnew, if_neg hold,
      if_neg hold, add_zero, sub_zero]
  · by_cases hold : x.pold.txid = o.txid
    · have hproperty : x.pold.desProperty ≠ o.property := by
        rw [← hrest hold, ← hpair.1, hpair.2.1]
        exact hpair.2.2
      rw [if_pos (.inl hold), if_neg hproperty, if_neg hnew, if_pos hold, if_pos hold, zero_add]
    · rw [if_neg (not_or.mpr ⟨hold, hnew⟩), if_neg hnew, if_neg hold, if_neg hold]
      rfl

theorem Tracks.sum_records (ho : o ∈ log.orders) :
    (log.records.map fun c => (c.amounts o.txid o.property).1).sum =
      log.sold o.txid - log.fees o.txid := by
  have hzero : (log.orders.map ((fun c => (TradeCall.amounts o.txid o.property c).1) ∘
      MetaDEx.newTrade)).sum = 0 := List.sum_eq_zero (by simp [MetaDEx.newTrade, TradeCall.amounts])
  have hfills : log.fills.map ((fun c => (TradeCall.amounts o.txid o.property c).1) ∘
      DexFill.record) = log.fills.map fun x => x.soldBy o.txid - x.feeOf o.txid :=
    List.map_congr_left fun x hx => h.amounts_record hlog ho hx
  rw [(hlog.records.map _).sum_eq, List.map_append, List.sum_append, List.map_map, List.map_map,
    hzero, hfills, zero_add, sold_sub_fees]

end Orders

theorem sum_map_eq_zero_iff {fills : List DexFill} {f : DexFill → Int}
    (hf : ∀ x ∈ fills, 0 ≤ f x) : (fills.map f).sum = 0 ↔ ∀ x ∈ fills, f x = 0 := by
  constructor
  · intro hsum x hx
    exact List.all_zero_of_le_zero_le_of_sum_eq_zero (by simpa using hf) hsum
      (List.mem_map_of_mem hx)
  · intro hzero
    exact List.sum_eq_zero (by simpa using hzero)

theorem Proper.fees_spec (h : log.Proper) (txid : Nat) :
    0 ≤ log.fees txid ∧ log.fees txid ≤ log.sold txid ∧
    (log.sold txid - log.fees txid = 0 ↔ ¬ log.HasFills txid) ∧
    (log.fees txid = 0 ↔ ∀ x ∈ log.fills, x.pold.txid = txid → x.fee = 0) := by
  have hfill : ∀ x ∈ log.fills, 0 ≤ x.feeOf txid ∧ 0 ≤ x.soldBy txid - x.feeOf txid ∧
      (x.soldBy txid - x.feeOf txid = 0 ↔ ¬ (x.pold.txid = txid ∨ x.pnew.txid = txid)) ∧
      (x.feeOf txid = 0 ↔ (x.pold.txid = txid → x.fee = 0)) := by
    intro x hx
    obtain ⟨taker, -, hproper⟩ := h.fills x hx
    have hgot := hproper.got
    have hpaid := hproper.paid
    have hfee := hproper.fee
    rw [DexFill.soldBy, DexFill.feeOf]
    split_ifs <;> simp_all <;> omega
  have hfees : 0 ≤ log.fees txid :=
    List.sum_nonneg (by simpa using fun x hx => (hfill x hx).1)
  have hsold : 0 ≤ log.sold txid - log.fees txid := by
    rw [sold_sub_fees]
    exact List.sum_nonneg (by simpa using fun x hx => sub_nonneg.mp (hfill x hx).2.1)
  refine ⟨hfees, sub_nonneg.mp hsold, ?_, ?_⟩
  · rw [sold_sub_fees, sum_map_eq_zero_iff fun x hx => (hfill x hx).2.1, HasFills]
    push Not
    exact forall₂_congr fun x hx => ((hfill x hx).2.2.1).trans not_or
  · rw [fees, sum_map_eq_zero_iff fun x hx => (hfill x hx).1]
    exact forall₂_congr fun x hx => (hfill x hx).2.2.2

theorem getStatus_eq (h : log.Tracks b) (hlog : log.Proper) (ho : o ∈ log.orders) :
    metaDExGetStatus (TradeCall.tradeDb log.records) txs b o.txid o.property o.amountForSale (-1) =
      .ok (statusOfSold txs b o.txid o.property o.amountForSale
        (log.sold o.txid - log.fees o.txid)) := by
  obtain ⟨received, hread⟩ := TradeCall.getMatchingTrades_tradeDb o.property
    (hlog.orders o ho).txid (fun c hc => (hlog.typed_records hc).1)
    (fun c hc => (hlog.typed_records hc).2) (hlog.nodup_keys h.txids)
  rw [metaDExGetStatus, if_pos rfl, hread, h.sum_records hlog ho]
  rfl

end DexLog

/-- After any history the status of a valid order is reported rightly if and only if the order,
where it was executed completely, paid no fee in the matches in which it was the resting one. -/
theorem DexHistory.statusRight_iff {b : MdPropertiesMap} {log : DexLog} (h : DexHistory b log)
    (txs : TextDb) {o : MetaDEx} (ho : o ∈ log.orders) (hvalid : getValidMPTX txs o.txid = true) :
    log.StatusRight b txs o ↔ (log.sold o.txid = o.amountForSale →
      ∀ x ∈ log.fills, x.pold.txid = o.txid → x.fee = 0) := by
  obtain ⟨htracks, hlog⟩ := h.tracks
  obtain ⟨hfees, hle, hnet, hnone⟩ := hlog.fees_spec o.txid
  have hopen := htracks.isOpen_iff ho
  have hrests := htracks.rests_iff ho
  have hsold := htracks.sold_le o ho
  have hpos := hlog.forSale o ho
  have hremoved := htracks.removed_lt o ho
  have hfills : log.HasFills o.txid ↔ log.sold o.txid - log.fees o.txid ≠ 0 := by
    rw [ne_eq, hnet, not_not]
  rw [← hnone, DexLog.StatusRight, DexLog.getStatus_eq htracks hlog ho]
  simp only [Except.ok.injEq, exists_eq_left', hfills, not_not, hrests, statusOfSold, hvalid, hopen,
    not_true_eq_false, if_false, ne_eq]
  by_cases hin : o.txid ∈ log.removed
  · have hlt := hremoved hin
    have hbelow : log.sold o.txid - log.fees o.txid < o.amountForSale := by omega
    simp only [hin, hlt.ne, hbelow, not_true_eq_false, false_and, if_false, if_true, true_and,
      false_imp_iff, iff_true]
    split_ifs with hzero <;> simp [hzero]
  · by_cases hlt : log.sold o.txid < o.amountForSale
    · simp only [hin, hlt, hlt.ne, not_false_eq_true, and_self, if_true, true_and, false_and,
        false_imp_iff, iff_true]
      split_ifs with hzero <;> simp [hzero]
    · -- everything is sold, and what is recorded of it falls short by the fees
      have heq : log.sold o.txid = o.amountForSale := le_antisymm hsold (not_lt.mp hlt)
      have hzero : log.sold o.txid - log.fees o.txid ≠ 0 := by
        intro hzero
        have hnever := hnet.mp hzero
        have hfree := hnone.mpr fun x hx hold => absurd ⟨x, hx, .inl hold⟩ hnever
        omega
      rw [heq] at hzero
      by_cases hfree : log.fees o.txid = 0
      · simp [hin, heq, hfree, hpos.ne']
      · have hbelow : o.amountForSale - log.fees o.txid < o.amountForSale := by omega
        simp [hin, heq, hfree, hzero, hbelow]

def NodeState.sampleExchange (n : Int) : NodeState :=
  { NodeState.initial .test .zero with
    ledger := .ofPostings [⟨⟨TradeCall.sampleTraders.1, 4, .balance⟩, n⟩,
      ⟨⟨TradeCall.sampleTraders.2, 5, .balance⟩, n⟩, ⟨⟨['H'], 1, .balance⟩, 10⟩] }

def DexLog.sampleTrades (n : Int) : Except Abort (MdPropertiesMap × DexLog) := do
  let first := MetaDEx.incoming TradeCall.sampleTraders.1 100 4 n 5 n 1 1
  let second := MetaDEx.incoming TradeCall.sampleTraders.2 101 5 n 4 n 2 1
  let s := NodeState.sampleExchange n
  let (_, m) ← s.metaDExAdd (.plain .test) TradeCall.sampleTraders.1 4 n 100 5 n 1 1
  let (_, s') ← m.metaDExAdd (.plain .test) TradeCall.sampleTraders.2 5 n 101 4 n 2 1
  return (s'.metadex, (DexLog.placed ⟨[], [], [], []⟩ first (s.fillsOf (.plain .test) first)).placed
    second (m.fillsOf (.plain .test) second))

theorem DexLog.storable_incoming {a : Address} {block n d : Int} {p q : PropertyId} {txid idx : Nat}
    (ha : EncodedAddress a) (hblock : -2 ^ 31 ≤ block ∧ block < 2 ^ 31) (hn : 0 < n ∧ n < 2 ^ 63)
    (hd : 0 < d ∧ d < 2 ^ 63) (hp : p < 2 ^ 32 ∧ q < 2 ^ 32) (hidx : idx < 2 ^ 32)
    (htxid : txid < 2 ^ 256) : (MetaDEx.incoming a block p n q d txid idx).Storable := by
  refine ⟨ha, hblock, ⟨?_, hn.2⟩, hp.1, ⟨?_, hd.2⟩, hp.2, hidx, htxid, ⟨?_, hn.2⟩⟩ <;>
    simp only [MetaDEx.incoming] <;> omega

theorem DexHistory.of_sampleTrades {n : Int} {b : MdPropertiesMap} {log : DexLog}
    (hn : 0 < n ∧ n < 2 ^ 63) (h : DexLog.sampleTrades n = .ok (b, log)) : DexHistory b log := by
  obtain ⟨⟨rc, m⟩, hm, h⟩ := bind_eq_ok.mp h
  obtain ⟨⟨rc', s'⟩, hs', h⟩ := bind_eq_ok.mp h
  cases h
  have haddress : EncodedAddress TradeCall.sampleTraders.1 ∧
      EncodedAddress TradeCall.sampleTraders.2 :=
    ⟨⟨by decide, List.all_eq_true.mp (by decide)⟩, ⟨by decide, List.all_eq_true.mp (by decide)⟩⟩
  refine .add (.add .empty ?_ hm) ?_ hs'
  · exact ⟨DexLog.storable_incoming haddress.1 (by decide) hn hn (by decide) (by decide)
      (by decide), hn.1, hn.1, by simp⟩
  · refine ⟨DexLog.storable_incoming haddress.2 (by decide) hn hn (by decide) (by decide)
      (by decide), hn.1, hn.1, fun o ho => ?_⟩
    obtain rfl := List.mem_singleton.mp ho
    exact ⟨(by decide : 1 ≠ 2), (by decide : toLex ((100 : Int), 1) ≠ toLex (101, 1))⟩

def DexLog.sampleList : TextDb := (∅ : TextDb).set (hexText 1) "1:100:25:4000".toList

/-- An offer of too little for a fee is reported as filled. -/
theorem DexHistory.statusRight_of_sampleTrades : ∃ b log, DexHistory b log ∧
    DexLog.sampleTrades 1000 = .ok (b, log) ∧ log.sold 1 = 1000 ∧
    log.StatusRight b DexLog.sampleList
      (.incoming TradeCall.sampleTraders.1 100 4 1000 5 1000 1 1) := by
  obtain ⟨⟨b, log⟩, hrun, hlog⟩ := exists_ok_of_map
    (g := fun r : MdPropertiesMap × DexLog => (r.2.sold 1, r.2.orders.head?,
      r.2.fills.map DexFill.fee))
    (x := DexLog.sampleTrades 1000)
    (b := (1000, some (.incoming TradeCall.sampleTraders.1 100 4 1000 5 1000 1 1), [0]))
    (by decide +kernel)
  simp only [Prod.mk.injEq] at hlog
  obtain ⟨hsold, hfirst, hfees⟩ := hlog
  have h := DexHistory.of_sampleTrades (by decide) hrun
  refine ⟨b, log, h, hrun, hsold, ?_⟩
  refine (DexHistory.statusRight_iff h DexLog.sampleList (List.mem_of_head? hfirst)
    (by decide +kernel)).mpr fun _ x hx _ => ?_
  have hx := List.mem_map_of_mem (f := DexFill.fee) hx
  rw [hfees] at hx
  exact List.mem_singleton.mp hx

/-- A larger one that was bought as well is reported as cancelled. -/
theorem DexHistory.not_statusRight_of_sampleTrades : ∃ b log, DexHistory b log ∧
    DexLog.sampleTrades 4000 = .ok (b, log) ∧ log.sold 1 = 4000 ∧ log.removed = [] ∧
    metaDExGetStatus (TradeCall.tradeDb log.records) DexLog.sampleList b 1 4 4000 (-1) =
      .ok .tradeCancelledPartFilled ∧
    ¬ log.StatusRight b DexLog.sampleList
      (.incoming TradeCall.sampleTraders.1 100 4 4000 5 4000 1 1) := by
  obtain ⟨⟨b, log⟩, hrun, hlog⟩ := exists_ok_of_map
    (g := fun r : MdPropertiesMap × DexLog => (r.2.sold 1, r.2.removed,
      metaDExGetStatus (TradeCall.tradeDb r.2.records) DexLog.sampleList r.1 1 4 4000 (-1)))
    (x := DexLog.sampleTrades 4000) (b := (4000, [], .ok .tradeCancelledPartFilled))
    (by decide +kernel)
  simp only [Prod.mk.injEq] at hlog
  obtain ⟨hsold, hremoved, hget⟩ := hlog
  refine ⟨b, log, .of_sampleTrades (by decide) hrun, hrun, hsold, hremoved, hget, ?_⟩
  rintro ⟨status, hstatus, hfilled, -⟩
  cases hget.symm.trans hstatus
  cases hfilled.mpr hsold

end TradeLayer
