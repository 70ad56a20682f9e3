import TradeLayer.SpInfo

namespace TradeLayer
open Library

namespace SPInfo

/-- The identifier of a new property, which is zero outside the two ecosystems. -/
def takeSPID (db : SPInfo) (ecosystem : Nat) : PropertyId × SPInfo :=
  if ecosystem = tlPropertyMsc then
    (db.nextSpid, { db with nextSpid := (db.nextSpid + 1) % 2 ^ 32 })
  else if ecosystem = tlPropertyTmsc then
    (db.nextTestSpid, { db with nextTestSpid := (db.nextTestSpid + 1) % 2 ^ 32 })
  else (0, db)

def putSP (db : SPInfo) (ecosystem : Nat) (info : SPEntry) : PropertyId × SPInfo :=
  let (propertyId, db) := db.takeSPID ecosystem
  -- a record or an index entry that is there already is reported and overwritten
  (propertyId, { db with
    entries := db.entries.set propertyId info,
    txIndex := db.txIndex.set info.txid propertyId })

/-- The writes that are committed together when a block is taken back. -/
inductive BatchOp
  | deleteEntry (propertyId : PropertyId)
  | deleteIndex (txid : Nat)
  | putEntry (propertyId : PropertyId) (info : SPEntry)
  | deleteReplaced (blockHash : Nat) (propertyId : PropertyId)

def commit (db : SPInfo) : BatchOp → SPInfo
  | .deleteEntry p => { db with entries := db.entries.erase p }
  | .deleteIndex txid => { db with txIndex := db.txIndex.erase txid }
  | .putEntry p info => { db with entries := db.entries.set p info }
  | .deleteReplaced blockHash p =>
    { db with replaced := db.replaced.erase (toLex (blockHash, p)) }

/-- The loop of `popBlock` over the records: the number of those that remain and the writes, or
the error that there is no record to go back to. -/
def popLoop (db : SPInfo) (blockHash : Nat) :
    List (PropertyId × SPEntry) → Int → List BatchOp → Except Int (Int × List BatchOp)
  | [], remainingSPs, commitBatch => .ok (remainingSPs, commitBatch)
  | (p, info) :: rest, remainingSPs, commitBatch =>
    if info.updateBlock = blockHash then
      if info.updateBlock = info.creationBlock then
        popLoop db blockHash rest remainingSPs
          (commitBatch ++ [.deleteEntry p, .deleteIndex info.txid])
      else
        match db.replaced.get? (toLex (info.updateBlock, p)) with
        | some previous =>
          popLoop db blockHash rest (remainingSPs + 1)
            (commitBatch ++ [.putEntry p previous, .deleteReplaced info.updateBlock p])
        | none => .error (-3)
    else popLoop db blockHash rest (remainingSPs + 1) commitBatch

def popBlock (db : SPInfo) (blockHash : Nat) : Int × SPInfo :=
  match db.popLoop blockHash db.entries.toList 0 [] with
  | .error rc => (rc, db)
  | .ok (remainingSPs, commitBatch) => (remainingSPs, commitBatch.foldl commit db)

variable {db d : SPInfo} {h txid : Nat} {p : PropertyId} {info : SPEntry}
variable {x : PropertyId × SPEntry} {L : List (PropertyId × SPEntry)}

/-- The record was replaced in the block and there is nothing to go back to. -/
def Stuck (db : SPInfo) (h : Nat) (x : PropertyId × SPEntry) : Prop :=
  x.2.updateBlock = h ∧ x.2.creationBlock ≠ h ∧ db.replaced.get? (toLex (h, x.1)) = none

def entryOps (db : SPInfo) (h : Nat) (x : PropertyId × SPEntry) : List BatchOp :=
  if x.2.updateBlock = h then
    if x.2.creationBlock = h then [.deleteEntry x.1, .deleteIndex x.2.txid]
    else
      match db.replaced.get? (toLex (h, x.1)) with
      | some previous => [.putEntry x.1 previous, .deleteReplaced h x.1]
      | none => []
  else []

theorem popLoop_cases (db : SPInfo) (h : Nat) (L : List (PropertyId × SPEntry)) (n : Int)
    (batch : List BatchOp) :
    (∃ x ∈ L, db.Stuck h x) ∧ db.popLoop h L n batch = .error (-3) ∨
      (∀ x ∈ L, ¬ db.Stuck h x) ∧ ∃ n', n ≤ n' ∧
        db.popLoop h L n batch = .ok (n', batch ++ L.flatMap (db.entryOps h)) := by
  induction L generalizing n batch with
  | nil => exact .inr ⟨by simp, n, le_refl n, by simp [popLoop]⟩
  | cons x L ih =>
    -- a record that is not stuck hands the loop on with its own writes
    have hstep : ∀ m, n ≤ m → ¬ db.Stuck h x → db.popLoop h (x :: L) n batch =
          db.popLoop h L m (batch ++ db.entryOps h x) →
        (∃ y ∈ x :: L, db.Stuck h y) ∧ db.popLoop h (x :: L) n batch = .error (-3) ∨
          (∀ y ∈ x :: L, ¬ db.Stuck h y) ∧ ∃ n', n ≤ n' ∧ db.popLoop h (x :: L) n batch =
            .ok (n', batch ++ (x :: L).flatMap (db.entryOps h)) := by
      intro m hm hx heq
      rw [heq]
      rcases ih m (batch ++ db.entryOps h x) with ⟨⟨y, hy, hs⟩, he⟩ | ⟨hL, n', hn', he⟩
      · exact .inl ⟨⟨y, List.mem_cons_of_mem _ hy, hs⟩, he⟩
      · refine .inr ⟨List.forall_mem_cons.mpr ⟨hx, hL⟩, n', hm.trans hn', ?_⟩
        rw [he, List.flatMap_cons, List.append_assoc]
    obtain ⟨p, info⟩ := x
    by_cases hu : info.updateBlock = h
    · by_cases hc : info.creationBlock = h
      · apply hstep n (le_refl n) fun hs => hs.2.1 hc
        rw [popLoop, if_pos hu, if_pos (hu.trans hc.symm), entryOps, if_pos hu, if_pos hc]
      · have hne : info.updateBlock ≠ info.creationBlock := fun heq => hc (heq.symm.trans hu)
        cases hr : db.replaced.get? (toLex (h, p)) with
        | none =>
          refine .inl ⟨⟨(p, info), List.mem_cons_self, hu, hc, hr⟩, ?_⟩
          rw [popLoop, if_pos hu, if_neg hne, hu, hr]
        | some previous =>
          apply hstep (n + 1) (by omega)
          · intro hs
            rw [hs.2.2] at hr
            cases hr
          · rw [popLoop, if_pos hu, if_neg hne, hu, hr, entryOps, if_pos hu, if_neg hc, hr]
    · apply hstep (n + 1) (by omega) fun hs => hu hs.1
      rw [popLoop, if_neg hu, entryOps, if_neg hu, List.append_nil]

section Batch

theorem entries_of_entryOps (hx : x.1 ≠ p) :
    ((db.entryOps h x).foldl commit d).entries.get? p = d.entries.get? p := by
  rw [entryOps]
  split_ifs
  · simp [commit, OrderedMap.get?_erase, hx.symm]
  · split
    · simp [commit, OrderedMap.get?_set, hx.symm]
    · rfl
  · rfl

theorem entries_of_flatMap (hL : ∀ x ∈ L, x.1 ≠ p) :
    ((L.flatMap (db.entryOps h)).foldl commit d).entries.get? p = d.entries.get? p := by
  induction L generalizing d with
  | nil => rfl
  | cons x L ih =>
    obtain ⟨hx, hL⟩ := List.forall_mem_cons.mp hL
    rw [List.flatMap_cons, List.foldl_append, ih hL, entries_of_entryOps hx]

def popped (db : SPInfo) (h : Nat) (p : PropertyId) (info : SPEntry) : Option SPEntry :=
  if info.updateBlock = h then
    if info.creationBlock = h then none else db.replaced.get? (toLex (h, p))
  else some info

theorem entries_of_mem (hL : L.Pairwise fun x y => x.1 < y.1) (hx : (p, info) ∈ L)
    (hstuck : ¬ db.Stuck h (p, info)) (hd : d.entries.get? p = some info) :
    ((L.flatMap (db.entryOps h)).foldl commit d).entries.get? p = db.popped h p info := by
  induction L generalizing d with
  | nil => cases hx
  | cons y L ih =>
    obtain ⟨hy, hL⟩ := List.pairwise_cons.mp hL
    rw [List.flatMap_cons, List.foldl_append]
    rcases List.mem_cons.mp hx with rfl | hx
    · rw [entries_of_flatMap fun z hz => (hy z hz).ne']
      rw [entryOps, popped]
      split_ifs with hu hc
      · simp [commit, OrderedMap.get?_erase]
      · split
        case h_1 previous hr => simp [commit, OrderedMap.get?_set, hr]
        case h_2 hr => exact absurd ⟨hu, hc, hr⟩ hstuck
      · exact hd
    · have hne : y.1 ≠ p := (hy _ hx).ne
      exact ih hL hx (by rw [entries_of_entryOps hne]; exact hd)

def Uncreates (h txid : Nat) (x : PropertyId × SPEntry) : Prop :=
  x.2.updateBlock = h ∧ x.2.creationBlock = h ∧ x.2.txid = txid

theorem txIndex_of_entryOps (hx : ¬ Uncreates h txid x) :
    ((db.entryOps h x).foldl commit d).txIndex.get? txid = d.txIndex.get? txid := by
  rw [entryOps]
  split_ifs with hu hc
  · have hne : txid ≠ x.2.txid := fun heq => hx ⟨hu, hc, heq.symm⟩
    simp [commit, OrderedMap.get?_erase, hne]
  · split <;> rfl
  · rfl

theorem txIndex_of_flatMap (hL : ∀ x ∈ L, ¬ Uncreates h txid x) :
    ((L.flatMap (db.entryOps h)).foldl commit d).txIndex.get? txid = d.txIndex.get? txid := by
  induction L generalizing d with
  | nil => rfl
  | cons x L ih =>
    obtain ⟨hx, hL⟩ := List.forall_mem_cons.mp hL
    rw [List.flatMap_cons, List.foldl_append, ih hL, txIndex_of_entryOps hx]

theorem txIndex_none_of_entryOps (hd : d.txIndex.get? txid = none) :
    ((db.entryOps h x).foldl commit d).txIndex.get? txid = none := by
  by_cases hx : Uncreates h txid x
  · rw [entryOps, if_pos hx.1, if_pos hx.2.1]
    simp [commit, OrderedMap.get?_erase, hx.2.2]
  · rw [txIndex_of_entryOps hx, hd]

theorem txIndex_none_of_flatMap (hd : d.txIndex.get? txid = none ∨ ∃ x ∈ L, Uncreates h txid x) :
    ((L.flatMap (db.entryOps h)).foldl commit d).txIndex.get? txid = none := by
  induction L generalizing d with
  | nil => simpa using hd
  | cons y L ih =>
    rw [List.flatMap_cons, List.foldl_append]
    apply ih
    rcases hd with hd | ⟨x, hx, hun⟩
    · exact .inl (txIndex_none_of_entryOps hd)
    · rcases List.mem_cons.mp hx with rfl | hx
      · left
        rw [entryOps, if_pos hun.1, if_pos hun.2.1]
        simp [commit, OrderedMap.get?_erase, hun.2.2]
      · exact .inr ⟨x, hx, hun⟩

end Batch

/-- Everything that taking back a block can do: it fails at a record that is stuck, or it undoes
every record that the block wrote. -/
theorem popBlock_cases (db : SPInfo) (h : Nat) :
    (∃ x ∈ db.entries, db.Stuck h x) ∧ (db.popBlock h).1 < 0 ∨
      (∀ x ∈ db.entries, ¬ db.Stuck h x) ∧ 0 ≤ (db.popBlock h).1 ∧
        (∀ p, (db.popBlock h).2.entries.get? p = (db.entries.get? p).bind (db.popped h p)) ∧
        ∀ txid, ((∃ x ∈ db.entries, Uncreates h txid x) ∧
            (db.popBlock h).2.txIndex.get? txid = none) ∨
          (∀ x ∈ db.entries, ¬ Uncreates h txid x) ∧
            (db.popBlock h).2.txIndex.get? txid = db.txIndex.get? txid := by
  rcases db.popLoop_cases h db.entries.toList 0 [] with ⟨hstuck, he⟩ | ⟨hfree, n, hn, he⟩
  · refine .inl ⟨hstuck, ?_⟩
    rw [popBlock, he]
    exact neg_neg_of_pos (by decide)
  · have hpop : db.popBlock h =
        (n, (db.entries.toList.flatMap (db.entryOps h)).foldl commit db) := by
      rw [popBlock, he]
      rfl
    rw [hpop]
    refine .inr ⟨hfree, hn, ?_, ?_⟩
    · intro p
      cases hp : db.entries.get? p with
      | none =>
        have hnone : ∀ x ∈ db.entries.toList, x.1 ≠ p := by
          intro x hx heq
          have hget := OrderedMap.get?_eq_some.mpr (show (x.1, x.2) ∈ db.entries from hx)
          rw [heq, hp] at hget
          cases hget
        exact (entries_of_flatMap hnone).trans hp
      | some info =>
        have hmem := OrderedMap.get?_eq_some.mp hp
        exact entries_of_mem db.entries.sorted hmem (hfree _ hmem) hp
    · intro txid
      by_cases hun : ∃ x ∈ db.entries, Uncreates h txid x
      · exact .inl ⟨hun, txIndex_none_of_flatMap (.inr hun)⟩
      · push Not at hun
        exact .inr ⟨hun, txIndex_of_flatMap hun⟩

end SPInfo

end TradeLayer
