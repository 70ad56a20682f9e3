import TradeLayer.Clearing

namespace TradeLayer
open Library

/-- The text of an address: it has a letter and is not the name of a status. -/
structure IsAddress (a : Address) : Prop where
  letter : ∃ ch ∈ a, ch.isAlpha = true
  status : ∀ st : PositionStatus, a ≠ st.text

/-- A row with two addresses, a price in digits and counters that are not negative. -/
structure TradeRow.Proper (r : TradeRow) : Prop where
  address0 : IsAddress r.addrs0
  address1 : IsAddress r.addrs1
  price : ∀ ch ∈ r.matchedPrice, ch.isAlpha = false
  counter0 : 0 ≤ r.nlives0 ∧ r.nlives0 ≤ int64Max
  counter1 : 0 ≤ r.nlives1 ∧ r.nlives1 ≤ int64Max

def amountAt (edges : List Edge) (i : Nat) : Int :=
  ((edges.filter fun e => e.edgeRow = (i : Int)).map Edge.amountTrd).sum

def TradeRow.reduce (a : Address) (amount : Int) (r : TradeRow) : TradeRow :=
  if a = r.addrs0 then { r with nlives0 := r.nlives0 - amount }
  else if a = r.addrs1 then { r with nlives1 := r.nlives1 - amount }
  else r

section Texts

variable {a : Address} {r : TradeRow}

theorem isAlpha_of_mem_integerText {k : Int} {ch : Char} (h : ch ∈ integerText k) :
    ch.isAlpha = false := by
  have hdigit : ∀ ch ∈ Nat.toDigits 10 k.natAbs, ch.isAlpha = false := by
    intro ch hch
    have hd := isDigit_of_mem_toDigits hch
    delta Char.isAlpha Char.isUpper Char.isLower
    simp only [Char.isDigit, ge_iff_le, Bool.and_eq_true, decide_eq_true_eq, Bool.or_eq_false_iff,
      Bool.and_eq_false_iff, decide_eq_false_iff_not,
      UInt32.le_iff_toNat_le] at hd ⊢
    simp at hd ⊢
    omega
  rw [integerText] at h
  split_ifs at h
  · rcases List.mem_cons.mp h with rfl | h
    · decide
    · exact hdigit ch h
  · exact hdigit ch h

theorem mem_cells_iff (ha : IsAddress a) (hr : r.Proper) :
    a ∈ r.cells ↔ a = r.addrs0 ∨ a = r.addrs1 := by
  obtain ⟨⟨ch, hch, hletter⟩, hstatus⟩ := ha
  have hnumber : ∀ k, a ≠ integerText k := by
    rintro k rfl
    rw [isAlpha_of_mem_integerText hch] at hletter
    exact Bool.false_ne_true hletter
  have hprice : a ≠ r.matchedPrice := by
    rintro rfl
    rw [hr.price ch hch] at hletter
    exact Bool.false_ne_true hletter
  simp [TradeRow.cells, hnumber, hprice, hstatus]

end Texts

theorem wrap64_wrap64_add (x y : Int) : wrap64 (wrap64 x + y) = wrap64 (x + y) :=
  Int.bmod_add_bmod

theorem wrap64_sub_wrap64 {x y : Int} (hlo : -int64Max ≤ x - y) (hhi : x - y ≤ int64Max) :
    wrap64 (x - wrap64 y) = x - y := by
  rw [int64Max] at hlo hhi
  simp only [wrap64, Int.bmod]
  omega

namespace TradeRow

variable {a : Address} {r : TradeRow} {x : Int}

def counter (r : TradeRow) (a : Address) : Int :=
  if a = r.addrs0 then r.nlives0 else r.nlives1

theorem nlivesTrk_byaddrs : (getStatusAmountsByaddrs r a).nlivesTrk = r.counter a := by
  rw [getStatusAmountsByaddrs, counter]
  split_ifs <;> rfl

theorem reduce_zero : r.reduce a 0 = r := by
  simp [reduce]

theorem updatingLasttwocols_eq_reduce (ha : a = r.addrs0 ∨ a = r.addrs1) :
    updatingLasttwocols a x r = r.reduce a (r.counter a - x) := by
  rw [updatingLasttwocols, reduce, counter]
  split_ifs with h₀ h₁
  · simp
  · simp
  · tauto

theorem Proper.counter (hr : r.Proper) : 0 ≤ r.counter a ∧ r.counter a ≤ int64Max := by
  rw [TradeRow.counter]
  split_ifs
  · exact hr.counter0
  · exact hr.counter1

theorem Proper.updatingLasttwocols (hr : r.Proper) (hx : 0 ≤ x) (hle : x ≤ r.counter a) :
    (updatingLasttwocols a x r).Proper := by
  have hmax := hle.trans hr.counter.2
  rw [TradeLayer.updatingLasttwocols]
  split_ifs
  · exact ⟨hr.address0, hr.address1, hr.price, ⟨hx, hmax⟩, hr.counter1⟩
  · exact ⟨hr.address0, hr.address1, hr.price, hr.counter0, ⟨hx, hmax⟩⟩

end TradeRow

section Edges

variable {e : Edge} {edges : List Edge} {i : Nat}

theorem amountAt_eq_zero (h : ∀ e ∈ edges, (i : Int) < e.edgeRow) : amountAt edges i = 0 := by
  have hnone : edges.filter (fun e => e.edgeRow = (i : Int)) = [] := by
    rw [List.filter_eq_nil_iff]
    intro e he
    have := h e he
    simp only [decide_eq_true_eq]
    omega
  rw [amountAt, hnone]
  rfl

theorem amountAt_cons : amountAt (e :: edges) i =
    (if e.edgeRow = (i : Int) then e.amountTrd else 0) + amountAt edges i := by
  by_cases h : e.edgeRow = (i : Int)
  · simp [amountAt, h]
  · simp [amountAt, h]

end Edges

namespace ClearingCall

variable {c : ClearingCall} {i k : Nat} {row : TradeRow} {rows : List TradeRow} {S d : Int}
variable {out : ClearedRows}

/-- What the loop over the rows from the `i`-th on makes of them when the events netted before
traded `S`. -/
structure Clears (c : ClearingCall) (i : Nat) (rows : List TradeRow) (S : Int)
    (out : ClearedRows) : Prop where
  sum : (out.edges.map Edge.amountTrd).sum +
    (if out.countingNetted = 0 then c.openedContracts else max out.dAmounts 0) =
      c.openedContracts - S
  later : ∀ e ∈ out.edges, (i : Int) ≤ e.edgeRow
  order : out.edges.Pairwise fun e e' => e.edgeRow < e'.edgeRow
  table : out.rows = rows.mapIdx fun j row => row.reduce c.pos.addrsTrk (amountAt out.edges (i + j))
  proper : ∀ row ∈ out.rows, row.Proper

theorem Clears.mapIdx_later (h : c.Clears (i + 1) rows S out) {edges : List Edge}
    (hedges : ∀ j, i < j → amountAt edges j = amountAt out.edges j) :
    out.rows = rows.mapIdx fun j row =>
      row.reduce c.pos.addrsTrk (amountAt edges (i + (j + 1))) := by
  rw [h.table]
  congr 1
  funext j row
  rw [hedges _ (by omega), Nat.add_assoc, Nat.add_comm 1 j]

theorem Clears.amountAt_first (h : c.Clears (i + 1) rows S out) : amountAt out.edges i = 0 := by
  apply amountAt_eq_zero
  intro e he
  have hle := h.later e he
  omega

theorem Clears.skip (h : c.Clears (i + 1) rows S out) (hrow : row.Proper) :
    c.Clears i (row :: rows) S { out with rows := row :: out.rows } where
  sum := h.sum
  later e he := by
    have hle := h.later e he
    omega
  order := h.order
  table := by
    rw [List.mapIdx_cons, Nat.add_zero, h.amountAt_first, TradeRow.reduce_zero,
      ← h.mapIdx_later fun _ _ => rfl]
  proper := List.forall_mem_cons.mpr ⟨hrow, h.proper⟩

theorem Clears.net {e : Edge} {row' : TradeRow} (h : c.Clears (i + 1) rows (S + e.amountTrd) out)
    (he : e.edgeRow = i) (hrow : row' = row.reduce c.pos.addrsTrk e.amountTrd)
    (hproper : row'.Proper) :
    c.Clears i (row :: rows) S
      { out with rows := row' :: out.rows, edges := e :: out.edges } where
  sum := by
    have hsum := h.sum
    dsimp only
    rw [List.map_cons, List.sum_cons, add_assoc, hsum]
    omega
  later := by
    rw [List.forall_mem_cons]
    refine ⟨he.ge, ?_⟩
    intro e' he'
    have hle := h.later e' he'
    omega
  order := by
    rw [List.pairwise_cons]
    refine ⟨?_, h.order⟩
    intro e' he'
    have hle := h.later e' he'
    omega
  table := by
    have hfirst : amountAt (e :: out.edges) i = e.amountTrd := by
      rw [amountAt_cons, if_pos he, h.amountAt_first, add_zero]
    have hlater : ∀ j, i < j → amountAt (e :: out.edges) j = amountAt out.edges j := by
      intro j hj
      rw [amountAt_cons, if_neg (by omega), zero_add]
    rw [List.mapIdx_cons, Nat.add_zero, hfirst, ← hrow, ← h.mapIdx_later hlater]
  proper := List.forall_mem_cons.mpr ⟨hproper, h.proper⟩

theorem Clears.stop (hrows : ∀ row ∈ rows, row.Proper) (hd : d ≤ 0) :
    c.Clears i rows c.openedContracts ⟨rows, [], k + 1, d⟩ where
  sum := by
    rw [if_neg (Nat.succ_ne_zero k), max_eq_right hd, sub_self]
    rfl
  later := by simp
  order := .nil
  table := by
    simp only [amountAt, List.filter_nil, List.map_nil, List.sum_nil, TradeRow.reduce_zero]
    apply List.ext_getElem?
    simp
  proper := hrows

theorem Clears.last {e : Edge} {row' : TradeRow} (hrows : ∀ row ∈ rows, row.Proper) (hd : d ≤ 0)
    (he : e.edgeRow = i) (hrow : row' = row.reduce c.pos.addrsTrk e.amountTrd)
    (hproper : row'.Proper) (hsum : S + e.amountTrd = c.openedContracts) :
    c.Clears i (row :: rows) S ⟨row' :: rows, [e], k + 1, d⟩ := by
  have hstop : c.Clears (i + 1) rows (S + e.amountTrd) ⟨rows, [], k + 1, d⟩ := by
    rw [hsum]
    exact .stop hrows hd
  exact hstop.net he hrow hproper

theorem clears_clearRows (ha : IsAddress c.pos.addrsTrk) (hn : 0 ≤ c.openedContracts)
    (hmax : c.openedContracts ≤ int64Max) (hrows : ∀ row ∈ rows, row.Proper)
    (hstart : k = 0 ∧ S = 0 ∨ 0 < k ∧ (0 ≤ S ∧ S < c.openedContracts) ∧ d = c.openedContracts - S) :
    c.Clears i rows S (c.clearRows i rows k (wrap64 S) d) := by
  induction rows generalizing i k S d with
  | nil =>
    rw [clearRows_nil]
    refine ⟨?_, by simp, by simp, rfl, by simp⟩
    rcases hstart with ⟨rfl, rfl⟩ | ⟨hk, ⟨hS, hlt⟩, rfl⟩
    · simp
    · simp only [List.map_nil, List.sum_nil, zero_add, if_neg hk.ne']
      omega
  | cons row rows ih =>
    obtain ⟨hrow, hrows⟩ := List.forall_mem_cons.mp hrows
    by_cases hnet : c.Nets row
    · have hmem := hnet.1
      have hne := hnet.2.2
      rw [mem_cells_iff ha hrow] at hmem
      rw [TradeRow.nlivesTrk_byaddrs] at hne
      obtain ⟨hcounter, hle⟩ := hrow.counter (a := c.pos.addrsTrk)
      have hd : wrap64 (c.openedContracts - wrap64 (S + row.counter c.pos.addrsTrk)) =
          c.openedContracts - (S + row.counter c.pos.addrsTrk) := by
        apply wrap64_sub_wrap64 <;> omega
      rw [clearRows_of_nets hnet TradeRow.nlivesTrk_byaddrs (wrap64_wrap64_add _ _) hd]
      split_ifs with hpos hneg
      · have hnext := ih (i := i + 1) (S := S + row.counter c.pos.addrsTrk) hrows
          (.inr ⟨Nat.succ_pos k, ⟨by omega, by omega⟩, rfl⟩)
        apply Clears.net (e := c.nettedEdge i row (row.counter c.pos.addrsTrk)) hnext rfl
        · rw [TradeRow.updatingLasttwocols_eq_reduce hmem, sub_zero]
          rfl
        · exact hrow.updatingLasttwocols (le_refl 0) hcounter
      · apply Clears.last hrows hneg.le rfl
        · rw [TradeRow.updatingLasttwocols_eq_reduce hmem]
          rfl
        · rw [abs_of_neg hneg]
          apply hrow.updatingLasttwocols <;> omega
        · rw [abs_of_neg hneg]
          dsimp only [nettedEdge, buildingEdge]
          omega
      · apply Clears.last hrows (not_lt.mp hpos) rfl
        · rw [TradeRow.updatingLasttwocols_eq_reduce hmem, sub_zero]
          rfl
        · exact hrow.updatingLasttwocols (le_refl 0) hcounter
        · dsimp only [nettedEdge, buildingEdge]
          omega
    · rw [clearRows_of_not_nets hnet]
      exact (ih hrows hstart).skip hrow

def appended (c : ClearingCall) : List Edge :=
  c.clearingOperatorFifo.2.drop c.pathMain.length

/-- What is opened is traded in the appended edges or stored as lives in the first edge of the
path; each later row is reduced by the edge built from it, if there is one, and nothing else in the
table changes. -/
structure Balanced (c : ClearingCall) : Prop where
  sum : (c.appended.map Edge.amountTrd).sum + c.stored.getD 0 = c.openedContracts
  path : c.clearingOperatorFifo.2 = c.pathMain.modifyHead (fun e =>
    (c.stored.map fun lives => c.storeLives lives e).getD e) ++ c.appended
  later : ∀ e ∈ c.appended, (c.indexInit : Int) < e.edgeRow
  order : c.appended.Pairwise fun e e' => e.edgeRow < e'.edgeRow
  table : c.clearingOperatorFifo.1 = c.mFile.mapIdx fun j row =>
    row.reduce c.pos.addrsTrk (amountAt c.appended j)
  nonneg : ∀ row ∈ c.clearingOperatorFifo.1, 0 ≤ row.nlives0 ∧ 0 ≤ row.nlives1

theorem clearingOperatorFifo_path (hpath : c.pathMain ≠ []) :
    c.clearingOperatorFifo.2 = c.pathMain.modifyHead (fun e =>
      (c.stored.map fun lives => c.storeLives lives e).getD e) ++ c.cleared.edges := by
  obtain ⟨e, path, hcons⟩ := List.exists_cons_of_ne_nil hpath
  rw [clearingOperatorFifo]
  dsimp only
  cases c.stored with
  | some lives => simp [hcons]
  | none => simp [hcons]

theorem appended_eq (hpath : c.pathMain ≠ []) : c.appended = c.cleared.edges := by
  rw [appended, clearingOperatorFifo_path hpath]
  exact List.drop_left' (by simp)

theorem Clears.table_eq {out : ClearedRows} (hi : c.indexInit < c.mFile.length)
    (h : c.Clears (c.indexInit + 1) (c.mFile.drop (c.indexInit + 1)) 0 out) :
    c.mFile.take (c.indexInit + 1) ++ out.rows = c.mFile.mapIdx fun j row =>
      row.reduce c.pos.addrsTrk (amountAt out.edges j) := by
  have hlen : (c.mFile.take (c.indexInit + 1)).length = c.indexInit + 1 := by
    rw [List.length_take]
    omega
  have hsplit : c.mFile = c.mFile.take (c.indexInit + 1) ++ c.mFile.drop (c.indexInit + 1) :=
    (List.take_append_drop _ _).symm
  have hfirst : (c.mFile.take (c.indexInit + 1)).mapIdx (fun j row =>
      row.reduce c.pos.addrsTrk (amountAt out.edges j)) = c.mFile.take (c.indexInit + 1) := by
    apply List.ext_getElem?
    intro j
    rw [List.getElem?_mapIdx]
    by_cases hj : j < c.indexInit + 1
    · have hzero : amountAt out.edges j = 0 := by
        apply amountAt_eq_zero
        intro e he
        have hle := h.later e he
        omega
      simp [hzero, TradeRow.reduce_zero]
    · rw [List.getElem?_eq_none (by omega)]
      rfl
  rw [h.table]
  conv_rhs => rw [hsplit, List.mapIdx_append, hfirst, hlen]
  congr 2
  funext j row
  rw [Nat.add_comm]

theorem balanced_of_proper (hpath : c.pathMain ≠ []) (hi : c.indexInit < c.mFile.length)
    (ha : IsAddress c.pos.addrsTrk) (hn : 0 ≤ c.openedContracts)
    (hmax : c.openedContracts ≤ int64Max) (hrows : ∀ row ∈ c.mFile, row.Proper) :
    c.Balanced ∧ ∀ row ∈ c.clearingOperatorFifo.1, row.Proper := by
  have hclears : c.Clears (c.indexInit + 1) (c.mFile.drop (c.indexInit + 1)) 0 c.cleared :=
    clears_clearRows ha hn hmax (fun row hrow => hrows row (List.mem_of_mem_drop hrow))
      (.inl ⟨rfl, rfl⟩)
  have hproper : ∀ row ∈ c.clearingOperatorFifo.1, row.Proper := by
    rw [clearingOperatorFifo, List.forall_mem_append]
    exact ⟨fun row hrow => hrows row (List.mem_of_mem_take hrow), hclears.proper⟩
  have happended := appended_eq hpath
  have hsum := hclears.sum
  rw [sub_zero] at hsum
  constructor
  · constructor
    · rw [happended, ← hsum, stored]
      split_ifs with hnone hpos
      · rfl
      · rw [max_eq_left hpos.le]
        rfl
      · rw [max_eq_right (not_lt.mp hpos)]
        rfl
    · rw [happended]
      exact clearingOperatorFifo_path hpath
    · intro e he
      rw [happended] at he
      have hle := hclears.later e he
      omega
    · rw [happended]
      exact hclears.order
    · rw [happended]
      exact hclears.table_eq hi
    · intro row hrow
      exact ⟨(hproper row hrow).counter0.1, (hproper row hrow).counter1.1⟩
  · exact hproper

end ClearingCall

namespace Settlement

structure Good (s : Settlement) : Prop where
  proper : ∀ row ∈ s.mFile, row.Proper
  balanced : ∀ c ∈ s.calls, 0 ≤ c.openedContracts ∧ c.Balanced

variable {s : Settlement} {i : Nat} {vdata : TradeRow} {q : Side} {path : List Edge}

theorem open_of_proper (hv : vdata.Proper) : IsAddress (getStatusAmountsOpenIncr vdata q).addrsTrk ∧
    0 ≤ (getStatusAmountsOpenIncr vdata q).nlivesTrk ∧
    (getStatusAmountsOpenIncr vdata q).nlivesTrk ≤ int64Max := by
  rw [getStatusAmountsOpenIncr]
  split_ifs
  · exact ⟨hv.address0, hv.counter0⟩
  · exact ⟨hv.address1, hv.counter1⟩

theorem Good.track (h : s.Good) (hv : vdata.Proper) (hi : i < s.mFile.length) (hpath : path ≠ []) :
    (s.track i vdata q path).1.Good ∧
      (s.track i vdata q path).1.mFile.length = s.mFile.length ∧
      (s.track i vdata q path).2 ≠ [] := by
  rw [Settlement.track]
  dsimp only
  split_ifs
  · obtain ⟨ha, hn, hmax⟩ := open_of_proper (q := q) hv
    obtain ⟨hbalanced, hproper⟩ := ClearingCall.balanced_of_proper
      (c := ⟨s.mFile, i, getStatusAmountsOpenIncr vdata q, q, path, s.pathNumber,
        (getStatusAmountsOpenIncr vdata q).nlivesTrk⟩) hpath hi ha hn hmax h.proper
    refine ⟨⟨hproper, ?_⟩, ?_, ?_⟩
    · rw [List.forall_mem_append, List.forall_mem_singleton]
      exact ⟨h.balanced, hn, hbalanced⟩
    · dsimp only
      rw [hbalanced.table, List.length_mapIdx]
    · dsimp only
      rw [hbalanced.path]
      simp [hpath]
  · exact ⟨h, rfl, hpath⟩

theorem Good.step (h : s.Good) (i : Nat) : (s.step i).Good := by
  rw [Settlement.step]
  split
  · exact h
  · rename_i vdata hvdata
    obtain ⟨hi, -⟩ := List.getElem?_eq_some_iff.mp hvdata
    have hv := h.proper vdata (List.mem_of_getElem? hvdata)
    dsimp only
    split_ifs
    · have hnext : Good { s with pathNumber := s.pathNumber + 1 } := ⟨h.proper, h.balanced⟩
      obtain ⟨hlong, hlen, hpath⟩ := hnext.track (q := .long) hv hi (List.cons_ne_nil _ [])
      obtain ⟨hshort, -, -⟩ := hlong.track (q := .short) hv (by rw [hlen]; exact hi) hpath
      exact ⟨hshort.proper, hshort.balanced⟩
    · exact h

theorem Good.steps (h : s.Good) (is : List Nat) : (is.foldl Settlement.step s).Good := by
  induction is generalizing s with
  | nil => exact h
  | cons i is ih => exact ih (h.step i)

end Settlement

/-- Every call that the settlement of a table makes is balanced. -/
theorem balanced_of_settlement {database : List TradeRow}
    (h : ∀ row ∈ database, (addingNewtwocols row).Proper) :
    ∀ c ∈ (settlementAlgorithmFifo database).calls, 0 ≤ c.openedContracts ∧ c.Balanced := by
  have hstart : Settlement.Good ⟨[], database.map addingNewtwocols, [], 0⟩ :=
    ⟨List.forall_mem_map.mpr h, by simp⟩
  exact (hstart.steps _).balanced

def sampleTrades : List TradeRow :=
  [⟨['a'], .openLongPosition, 5, ['b'], .openShortPosition, 5, 5, ['7'], 0, 0⟩,
    ⟨['c'], .openLongPosition, 3, ['a'], .longPosNettedPartly, 2, 3, ['8'], 0, 0⟩,
    ⟨['a'], .longPosNetted, 0, ['c'], .longPosIncreased, 7, 4, ['9'], 0, 0⟩]

theorem isAddress_singleton {ch : Char} (h : ch ∈ ['a', 'b', 'c']) : IsAddress [ch] := by
  constructor
  · refine ⟨ch, List.mem_singleton_self ch, ?_⟩
    fin_cases h <;> rfl
  · intro st
    cases st <;> fin_cases h <;> decide

theorem proper_sampleTrades : ∀ row ∈ sampleTrades, (addingNewtwocols row).Proper := by
  have hprice : ∀ digit ∈ ['7', '8', '9'], ∀ ch ∈ [digit], ch.isAlpha = false := by
    intro digit hdigit ch hch
    obtain rfl := List.mem_singleton.mp hch
    fin_cases hdigit <;> rfl
  rw [sampleTrades, List.forall_mem_cons, List.forall_mem_cons, List.forall_mem_singleton]
  refine ⟨?_, ?_, ?_⟩
  · exact ⟨isAddress_singleton (by simp), isAddress_singleton (by simp), hprice '7' (by simp),
      by decide, by decide⟩
  · exact ⟨isAddress_singleton (by simp), isAddress_singleton (by simp), hprice '8' (by simp),
      by decide, by decide⟩
  · exact ⟨isAddress_singleton (by simp), isAddress_singleton (by simp), hprice '9' (by simp),
      by decide, by decide⟩

theorem balanced_of_sampleTrades :
    ((settlementAlgorithmFifo sampleTrades).calls.map fun c =>
        (c.indexInit, c.openedContracts, c.appended.map Edge.amountTrd, c.stored)) =
      [(0, 5, [3, 2], none), (0, 5, [], some 5), (1, 3, [], some 3), (2, 4, [], some 4)] ∧
      ∀ c ∈ (settlementAlgorithmFifo sampleTrades).calls, 0 ≤ c.openedContracts ∧ c.Balanced :=
  ⟨by decide +kernel, balanced_of_settlement proper_sampleTrades⟩

end TradeLayer
