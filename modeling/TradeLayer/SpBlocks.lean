import TradeLayer.SpRollback

namespace TradeLayer
open Library

namespace SPInfo

inductive Call
  | put (ecosystem : Nat) (info : SPEntry)
  | update (propertyId : PropertyId) (info : SPEntry)

/-- The records that a block writes carry its hash, and those of new properties carry it as the
hash of the block that created them. -/
def Call.Stamped (h : Nat) : Call → Prop
  | .put _ info => info.updateBlock = h ∧ info.creationBlock = h
  | .update _ info => info.updateBlock = h

def call (db : SPInfo) : Call → SPInfo
  | .put ecosystem info => (db.putSP ecosystem info).2
  | .update propertyId info => (db.updateSP propertyId info).2

structure Write where
  property : PropertyId
  info : SPEntry
  creates : Bool

/-- The records that calls write, under the identifiers that the database gives out. -/
def writes : SPInfo → List Call → List Write
  | _, [] => []
  | db, .put ecosystem info :: calls =>
    ⟨(db.takeSPID ecosystem).1, info, true⟩ :: writes (db.call (.put ecosystem info)) calls
  | db, .update propertyId info :: calls =>
    if propertyId = tlPropertyMsc ∨ propertyId = tlPropertyTmsc then writes db calls
    else ⟨propertyId, info, false⟩ :: writes (db.call (.update propertyId info)) calls

def touches (ws : List Write) (p : PropertyId) : List Write := ws.filter fun w => w.property = p

def createdBy (ws : List Write) (txid : Nat) : List Write :=
  ws.filter fun w => w.creates && w.info.txid = txid

variable {db : SPInfo} {h txid : Nat} {p : PropertyId} {info old : SPEntry} {ws : List Write}
variable {calls : List Call} {st : Option SPEntry × Option SPEntry}

def Write.Stamped (h : Nat) (w : Write) : Prop :=
  w.info.updateBlock = h ∧ (w.creates = true → w.info.creationBlock = h)

theorem stamped_of_mem_writes (hcalls : ∀ c ∈ calls, c.Stamped h) :
    ∀ w ∈ db.writes calls, w.Stamped h := by
  induction calls generalizing db with
  | nil => simp [writes]
  | cons c calls ih =>
    obtain ⟨hc, htail⟩ := List.forall_mem_cons.mp hcalls
    have hrest : ∀ db : SPInfo, ∀ w ∈ db.writes calls, w.Stamped h := fun _ => ih htail
    cases c with
    | put ecosystem info =>
      exact List.forall_mem_cons.mpr ⟨⟨hc.1, fun _ => hc.2⟩, hrest _⟩
    | update propertyId info =>
      rw [writes]
      split_ifs
      · exact hrest _
      · exact List.forall_mem_cons.mpr ⟨⟨hc, nofun⟩, hrest _⟩

/-- The current record under an identifier and the one kept for going back, after a write. -/
def Write.step (st : Option SPEntry × Option SPEntry) (w : Write) :
    Option SPEntry × Option SPEntry :=
  (some w.info, if w.creates then st.2 else st.1.or st.2)

theorem foldl_call_trace (hcalls : ∀ c ∈ calls, c.Stamped h) :
    ((calls.foldl call db).entries.get? p,
        (calls.foldl call db).replaced.get? (toLex (h, p))) =
      (touches (db.writes calls) p).foldl Write.step
        (db.entries.get? p, db.replaced.get? (toLex (h, p))) := by
  induction calls generalizing db with
  | nil => rfl
  | cons c calls ih =>
    obtain ⟨hc, hcalls⟩ := List.forall_mem_cons.mp hcalls
    rw [List.foldl_cons, ih hcalls]
    cases c with
    | put ecosystem info =>
      have hentries : (db.call (.put ecosystem info)).entries =
          db.entries.set (db.takeSPID ecosystem).1 info := by
        simp only [call, putSP, takeSPID]
        split_ifs <;> rfl
      have hreplaced : (db.call (.put ecosystem info)).replaced = db.replaced := by
        simp only [call, putSP, takeSPID]
        split_ifs <;> rfl
      rw [writes, touches, touches, List.filter_cons, hentries, hreplaced, OrderedMap.get?_set]
      by_cases hp : p = (db.takeSPID ecosystem).1
      · simp [hp, Write.step]
      · simp [hp, Ne.symm hp]
    | update propertyId info =>
      by_cases hbase : propertyId = tlPropertyMsc ∨ propertyId = tlPropertyTmsc
      · rw [writes, if_pos hbase, call, updateSP, if_pos hbase]
      · rw [writes, if_neg hbase, touches, touches, List.filter_cons]
        have hu : info.updateBlock = h := hc
        by_cases hp : p = propertyId
        · subst hp
          simp only [call, updateSP, if_neg hbase, decide_true, if_true, List.foldl_cons,
            Write.step, OrderedMap.get?_set, hu]
          cases db.entries.get? p with
          | none => simp
          | some old => simp [OrderedMap.get?_set]
        · have hkey : toLex (h, p) ≠ toLex (h, propertyId) := by simpa using hp
          simp only [call, updateSP, if_neg hbase, OrderedMap.get?_set, hu, hp, if_false,
            Ne.symm hp, decide_false, Bool.false_eq_true]
          cases db.entries.get? propertyId with
          | none => rfl
          | some old => simp [OrderedMap.get?_set, hkey]

theorem foldl_call_txIndex : (calls.foldl call db).txIndex.get? txid =
    ((createdBy (db.writes calls) txid).getLast?.map Write.property).or (db.txIndex.get? txid) := by
  induction calls generalizing db with
  | nil => rfl
  | cons c calls ih =>
    rw [List.foldl_cons, ih]
    cases c with
    | put ecosystem info =>
      have hindex : (db.call (.put ecosystem info)).txIndex =
          db.txIndex.set info.txid (db.takeSPID ecosystem).1 := by
        simp only [call, putSP, takeSPID]
        split_ifs <;> rfl
      rw [writes, createdBy, createdBy, List.filter_cons, hindex, OrderedMap.get?_set]
      by_cases ht : txid = info.txid
      · rw [if_pos ht, if_pos (by simp [ht]), List.getLast?_cons]
        cases ((writes _ calls).filter _).getLast? <;> rfl
      · simp [ht, Ne.symm ht]
    | update propertyId info =>
      by_cases hbase : propertyId = tlPropertyMsc ∨ propertyId = tlPropertyTmsc
      · rw [writes, if_pos hbase, call, updateSP, if_pos hbase]
      · rw [writes, if_neg hbase, createdBy, createdBy, List.filter_cons]
        simp [call, updateSP, if_neg hbase]

section Trace

def OfBlock (h : Nat) (st : Option SPEntry × Option SPEntry) : Prop :=
  (∀ e, st.1 = some e → e.updateBlock = h) ∧ ∀ e, st.2 = some e → e.updateBlock = h

theorem OfBlock.step {w : Write} (hst : OfBlock h st) (hw : w.Stamped h) :
    OfBlock h (Write.step st w) := by
  constructor
  · intro e he
    cases he
    exact hw.1
  · intro e he
    simp only [Write.step] at he
    split_ifs at he
    · exact hst.2 e he
    · rcases Option.or_eq_some_iff.mp he with he | ⟨-, he⟩
      · exact hst.1 e he
      · exact hst.2 e he

theorem OfBlock.foldl (hst : OfBlock h st) (hws : ∀ w ∈ ws, w.Stamped h) :
    OfBlock h (ws.foldl Write.step st) := by
  induction ws generalizing st with
  | nil => exact hst
  | cons w ws ih =>
    obtain ⟨hw, hws⟩ := List.forall_mem_cons.mp hws
    exact ih (hst.step hw) hws

theorem foldl_step_fst : (ws.foldl Write.step st).1 = (ws.getLast?.map Write.info).or st.1 := by
  induction ws generalizing st with
  | nil => rfl
  | cons w ws ih =>
    rw [List.foldl_cons, ih, List.getLast?_cons]
    cases ws.getLast? <;> rfl

theorem foldl_step_snd_iff (hold : old.updateBlock ≠ h) (hinfo : info.updateBlock = h)
    (hws : ∀ w ∈ ws, w.Stamped h) :
    (ws.foldl Write.step (some info, some old)).2 = some old ↔ ∀ w ∈ ws, w.creates = true := by
  induction ws generalizing info with
  | nil => simp
  | cons w ws ih =>
    obtain ⟨hw, hws⟩ := List.forall_mem_cons.mp hws
    rw [List.foldl_cons, List.forall_mem_cons]
    cases hcreates : w.creates with
    | true =>
      simp only [Write.step, hcreates, if_true, true_and]
      exact ih hw.1 hws
    | false =>
      simp only [Write.step, hcreates, Bool.false_eq_true, if_false, Option.some_or, false_and,
        iff_false]
      have hblock : OfBlock h (some w.info, some info) := by
        constructor
        · rintro e ⟨⟩
          exact hw.1
        · rintro e ⟨⟩
          exact hinfo
      intro heq
      exact hold ((hblock.foldl hws).2 old heq)

/-- The old record of a property is the one kept for going back, and the block does not count as
the one that created the property, just when it was updated once. -/
theorem foldl_step_keeps_iff (hold : old.updateBlock ≠ h) (hws : ∀ w ∈ ws, w.Stamped h)
    {w : Write} (hlast : ws.getLast? = some w) :
    ((ws.foldl Write.step (some old, none)).2 = some old ∧ w.info.creationBlock ≠ h) ↔
      ws = [w] ∧ w.creates = false ∧ w.info.creationBlock ≠ h := by
  cases ws with
  | nil => cases hlast
  | cons v ws =>
    obtain ⟨hv, hws⟩ := List.forall_mem_cons.mp hws
    constructor
    · rintro ⟨hkept, hcreation⟩
      have hupdate : v.creates = false := by
        rw [← Bool.not_eq_true]
        intro hcreates
        have hblock : OfBlock h (some v.info, none) := ⟨by rintro e ⟨⟩; exact hv.1, nofun⟩
        simp only [List.foldl_cons, Write.step, hcreates, if_true] at hkept
        exact hold ((hblock.foldl hws).2 old hkept)
      simp only [List.foldl_cons, Write.step, hupdate, Bool.false_eq_true, if_false,
        Option.some_or] at hkept
      have hputs := (foldl_step_snd_iff hold hv.1 hws).mp hkept
      -- a new property at the end would make the block the one that created it
      have hnil : ws = [] := by
        by_contra hne
        have hmem : w ∈ ws := by
          rw [List.getLast?_cons, Option.some.injEq] at hlast
          rw [← hlast, List.getLast?_eq_some_getLast hne, Option.getD_some]
          exact List.getLast_mem hne
        exact hcreation ((hws w hmem).2 (hputs w hmem))
      subst hnil
      cases hlast
      exact ⟨rfl, hupdate, hcreation⟩
    · rintro ⟨heq, hupdate, hcreation⟩
      rw [heq]
      refine ⟨?_, hcreation⟩
      simp [Write.step, hupdate]

end Trace

structure Fresh (db : SPInfo) (h : Nat) : Prop where
  entries : ∀ p e, db.entries.get? p = some e → e.updateBlock ≠ h
  replaced : ∀ p, db.replaced.get? (toLex (h, p)) = none

def Restores (db db' : SPInfo) (h : Nat) : Prop :=
  0 ≤ (db'.popBlock h).1 ∧
    (∀ p, (db'.popBlock h).2.entries.get? p = db.entries.get? p) ∧
    ∀ txid, (db'.popBlock h).2.txIndex.get? txid = db.txIndex.get? txid

/-- The transaction of the last record of a property that the block brought in. -/
def NewTxid (db : SPInfo) (ws : List Write) (txid : Nat) : Prop :=
  ∃ p w, db.entries.get? p = none ∧ (touches ws p).getLast? = some w ∧ w.info.txid = txid

/-- A property of the database is updated at most once, and not as if the block had created it.
The last record of any other property names the block as the one that created it. The
transactions of new properties were not in the index before, and the index gets no others. -/
structure Restorable (db : SPInfo) (h : Nat) (ws : List Write) : Prop where
  updated : ∀ p old, db.entries.get? p = some old →
    touches ws p = [] ∨ ∃ info, touches ws p = [⟨p, info, false⟩] ∧ info.creationBlock ≠ h
  created : ∀ p, db.entries.get? p = none →
    ∀ w, (touches ws p).getLast? = some w → w.info.creationBlock = h
  indexed : ∀ txid, db.NewTxid ws txid → db.txIndex.get? txid = none
  unindexed : ∀ txid, ¬ db.NewTxid ws txid →
    ∀ w, (createdBy ws txid).getLast? = some w → db.txIndex.get? txid = some w.property

theorem entries_foldl_call (hcalls : ∀ c ∈ calls, c.Stamped h) :
    (calls.foldl call db).entries.get? p =
      ((touches (db.writes calls) p).getLast?.map Write.info).or (db.entries.get? p) := by
  have htrace : (calls.foldl call db).entries.get? p =
      ((touches (db.writes calls) p).foldl Write.step
        (db.entries.get? p, db.replaced.get? (toLex (h, p)))).1 :=
    congrArg Prod.fst (foldl_call_trace hcalls)
  exact htrace.trans foldl_step_fst

theorem replaced_foldl_call (hfresh : db.Fresh h) (hcalls : ∀ c ∈ calls, c.Stamped h) :
    (calls.foldl call db).replaced.get? (toLex (h, p)) =
      ((touches (db.writes calls) p).foldl Write.step (db.entries.get? p, none)).2 := by
  have htrace : (calls.foldl call db).replaced.get? (toLex (h, p)) =
      ((touches (db.writes calls) p).foldl Write.step
        (db.entries.get? p, db.replaced.get? (toLex (h, p)))).2 :=
    congrArg Prod.snd (foldl_call_trace hcalls)
  rwa [hfresh.replaced] at htrace

theorem of_mem_touches {w : Write} (hw : w ∈ touches ws p) : w ∈ ws ∧ w.property = p := by
  simpa [touches] using hw

theorem popped_foldl_call_iff (hfresh : db.Fresh h) (hcalls : ∀ c ∈ calls, c.Stamped h) :
    (∀ e, (calls.foldl call db).entries.get? p = some e →
          ¬ (calls.foldl call db).Stuck h (p, e)) ∧
        ((calls.foldl call db).entries.get? p).bind ((calls.foldl call db).popped h p) =
          db.entries.get? p ↔
      (∀ old, db.entries.get? p = some old → touches (db.writes calls) p = [] ∨
          ∃ info, touches (db.writes calls) p = [⟨p, info, false⟩] ∧ info.creationBlock ≠ h) ∧
        (db.entries.get? p = none → ∀ w, (touches (db.writes calls) p).getLast? = some w →
          w.info.creationBlock = h) := by
  have hstamped : ∀ w ∈ touches (db.writes calls) p, w.Stamped h :=
    fun w hw => stamped_of_mem_writes hcalls w (of_mem_touches hw).1
  have hpopped : (calls.foldl call db).popped h p = fun info =>
      if info.updateBlock = h then
        if info.creationBlock = h then none
        else ((touches (db.writes calls) p).foldl Write.step (db.entries.get? p, none)).2
      else some info := by
    funext info
    rw [popped, replaced_foldl_call hfresh hcalls]
  simp only [Stuck, hpopped, replaced_foldl_call hfresh hcalls, entries_foldl_call hcalls]
  cases hlast : (touches (db.writes calls) p).getLast? with
  | none =>
    -- nothing was written under the identifier
    have hnil := List.getLast?_eq_none_iff.mp hlast
    apply iff_of_true
    · constructor
      · intro e he hstuck
        exact hfresh.entries p e he hstuck.1
      · cases he : db.entries.get? p with
        | none => rfl
        | some e => simp [hfresh.entries p e he]
    · refine ⟨fun _ _ => .inl hnil, ?_⟩
      intro _ w hw
      cases hw
  | some w =>
    have hmem : w ∈ touches (db.writes calls) p := List.mem_of_getLast? hlast
    have hupdate := (hstamped w hmem).1
    simp only [Option.map_some, Option.some_or, Option.bind_some, hupdate, if_true, true_and,
      Option.some.injEq, forall_eq']
    cases hold : db.entries.get? p with
    | none =>
      by_cases hc : w.info.creationBlock = h
      · simp [hc]
      · simp [hc]
    | some old =>
      have hkeeps := foldl_step_keeps_iff (hfresh.entries p old hold) hstamped hlast
      have hiff : (touches (db.writes calls) p = [] ∨ ∃ info,
            touches (db.writes calls) p = [⟨p, info, false⟩] ∧ info.creationBlock ≠ h) ↔
          touches (db.writes calls) p = [w] ∧ w.creates = false ∧ w.info.creationBlock ≠ h := by
        constructor
        · rintro (hnil | ⟨info, heq, hc⟩)
          · rw [hnil] at hlast
            cases hlast
          · rw [heq] at hlast
            cases hlast
            exact ⟨heq, rfl, hc⟩
        · rintro ⟨heq, hcreates, hc⟩
          refine .inr ⟨w.info, ?_, hc⟩
          rw [heq, ← hcreates, ← (of_mem_touches hmem).2]
      simp only [Option.some.injEq, forall_eq', reduceCtorEq, false_implies, and_true]
      rw [hiff, ← hkeeps]
      by_cases hc : w.info.creationBlock = h
      · simp [hc]
      · simp only [hc, ne_eq, not_false_eq_true, true_and, if_false, and_true,
          and_iff_right_iff_imp]
        intro heq hnone
        rw [hnone] at heq
        cases heq

theorem uncreates_iff_newTxid (hfresh : db.Fresh h) (hcalls : ∀ c ∈ calls, c.Stamped h)
    (hupdated : ∀ p old, db.entries.get? p = some old → touches (db.writes calls) p = [] ∨
      ∃ info, touches (db.writes calls) p = [⟨p, info, false⟩] ∧ info.creationBlock ≠ h)
    (hcreated : ∀ p, db.entries.get? p = none →
      ∀ w, (touches (db.writes calls) p).getLast? = some w → w.info.creationBlock = h) :
    (∃ x ∈ (calls.foldl call db).entries, Uncreates h txid x) ↔
      db.NewTxid (db.writes calls) txid := by
  constructor
  · rintro ⟨⟨p, e⟩, hmem, hu, hc, ht⟩
    have hget := OrderedMap.get?_eq_some.mpr hmem
    rw [entries_foldl_call hcalls] at hget
    cases hlast : (touches (db.writes calls) p).getLast? with
    | none =>
      rw [hlast] at hget
      exact absurd hu (hfresh.entries p e hget)
    | some w =>
      rw [hlast] at hget
      cases hget
      refine ⟨p, w, ?_, hlast, ht⟩
      cases hold : db.entries.get? p with
      | none => rfl
      | some old =>
        rcases hupdated p old hold with hnil | ⟨info, heq, hne⟩
        · rw [hnil] at hlast
          cases hlast
        · rw [heq] at hlast
          cases hlast
          exact absurd hc hne
  · rintro ⟨p, w, hnone, hlast, ht⟩
    have hmem : w ∈ touches (db.writes calls) p := List.mem_of_getLast? hlast
    have hstamped := stamped_of_mem_writes hcalls w (of_mem_touches hmem).1
    refine ⟨(p, w.info), ?_, hstamped.1, hcreated p hnone w hlast, ht⟩
    apply OrderedMap.get?_eq_some.mp
    rw [entries_foldl_call hcalls, hlast]
    rfl

/-- Going back over a block restores the records and the index just when the block updated no
property of the database twice, and wrote the records of its new properties as such. -/
theorem popBlock_restores_iff (hfresh : db.Fresh h) (hcalls : ∀ c ∈ calls, c.Stamped h) :
    db.Restores (calls.foldl call db) h ↔ db.Restorable h (db.writes calls) := by
  constructor
  · rintro ⟨hrc, hentries, hindex⟩
    rcases (calls.foldl call db).popBlock_cases h with ⟨-, hneg⟩ | ⟨hfree, -, hpopped, htx⟩
    · exact absurd hrc (not_le.mpr hneg)
    have hiff : ∀ p, _ := fun p => (popped_foldl_call_iff (p := p) hfresh hcalls).mp
      ⟨fun e he => hfree (p, e) (OrderedMap.get?_eq_some.mp he),
        (hpopped p).symm.trans (hentries p)⟩
    have hnew : ∀ txid, (∃ x ∈ (calls.foldl call db).entries, Uncreates h txid x) ↔
        db.NewTxid (db.writes calls) txid := fun _ =>
      uncreates_iff_newTxid hfresh hcalls (fun p => (hiff p).1) fun p => (hiff p).2
    refine ⟨fun p => (hiff p).1, fun p => (hiff p).2, ?_, ?_⟩
    · intro txid ht
      rcases htx txid with ⟨-, hnone⟩ | ⟨hnot, -⟩
      · rw [← hindex txid, hnone]
      · obtain ⟨x, hx, hun⟩ := (hnew txid).mpr ht
        exact absurd hun (hnot x hx)
    · intro txid ht w hlast
      rcases htx txid with ⟨hun, -⟩ | ⟨-, hsame⟩
      · exact absurd ((hnew txid).mp hun) ht
      · rw [← hindex txid, hsame, foldl_call_txIndex, hlast]
        rfl
  · intro hr
    have hiff : ∀ p, _ := fun p => (popped_foldl_call_iff (p := p) hfresh hcalls).mpr
      ⟨hr.updated p, hr.created p⟩
    have hnew : ∀ txid, (∃ x ∈ (calls.foldl call db).entries, Uncreates h txid x) ↔
        db.NewTxid (db.writes calls) txid := fun _ =>
      uncreates_iff_newTxid hfresh hcalls hr.updated hr.created
    rcases (calls.foldl call db).popBlock_cases h with ⟨⟨x, hx, hs⟩, -⟩ | ⟨-, hrc, hpopped, htx⟩
    · exact absurd hs ((hiff x.1).1 x.2 (OrderedMap.get?_eq_some.mpr hx))
    refine ⟨hrc, fun p => (hpopped p).trans (hiff p).2, ?_⟩
    intro txid
    rcases htx txid with ⟨hun, hnone⟩ | ⟨hnot, hsame⟩
    · rw [hnone, hr.indexed txid ((hnew txid).mp hun)]
    · have ht : ¬ db.NewTxid (db.writes calls) txid := by
        intro hn
        obtain ⟨x, hx, hun⟩ := (hnew txid).mpr hn
        exact hnot x hx hun
      rw [hsame, foldl_call_txIndex]
      cases hlast : (createdBy (db.writes calls) txid).getLast? with
      | none => rfl
      | some w =>
        rw [hr.unindexed txid ht w hlast]
        rfl

def sampleRecord (numTokens : Int) : SPEntry :=
  { SPEntry.zero with manual := true, numTokens, updateBlock := 7 }

theorem fresh_oneManaged {issuer : Address} : (oneManaged issuer).Fresh 7 := by
  constructor
  · intro p e he
    rw [oneManaged, OrderedMap.get?_set] at he
    split_ifs at he
    · cases he
      exact nofun
    · cases he
  · intro p
    rfl

/-- Two grants of a property in one block: going back leaves the first of them in place. -/
theorem first_grant_of_popBlock :
    (oneManaged ['i']).Fresh 7 ∧
      (∀ c ∈ [Call.update 3 (sampleRecord 1), .update 3 (sampleRecord 2)], c.Stamped 7) ∧
      ¬ (oneManaged ['i']).Restores ([Call.update 3 (sampleRecord 1),
        .update 3 (sampleRecord 2)].foldl call (oneManaged ['i'])) 7 := by
  refine ⟨fresh_oneManaged, ?_, ?_⟩
  · intro c hc
    simp only [List.mem_cons, List.not_mem_nil, or_false] at hc
    rcases hc with rfl | rfl <;> rfl
  · intro hr
    have hrecord := congrArg (Option.map SPEntry.numTokens) (hr.2.1 3)
    revert hrecord
    decide +kernel

theorem popBlock_restores_sampleRecord :
    (oneManaged ['i']).Restores
      ([Call.update 3 (sampleRecord 1)].foldl call (oneManaged ['i'])) 7 := by
  have hstamped : ∀ c ∈ [Call.update 3 (sampleRecord 1)], c.Stamped 7 :=
    List.forall_mem_singleton.mpr rfl
  apply (popBlock_restores_iff fresh_oneManaged hstamped).mpr
  have hwrites : (oneManaged ['i']).writes [Call.update 3 (sampleRecord 1)] =
    [⟨3, sampleRecord 1, false⟩] := rfl
  have hother : ∀ p, (oneManaged ['i']).entries.get? p = none →
      touches [⟨3, sampleRecord 1, false⟩] p = [] := by
    intro p hp
    have hne : 3 ≠ p := by
      rintro rfl
      cases hp
    simp [touches, hne]
  rw [hwrites]
  constructor
  · intro p old hp
    by_cases h3 : 3 = p
    · subst h3
      exact .inr ⟨sampleRecord 1, rfl, nofun⟩
    · exact .inl (by simp [touches, h3])
  · intro p hp w hw
    rw [hother p hp] at hw
    cases hw
  · rintro txid ⟨p, w, hp, hw, -⟩
    rw [hother p hp] at hw
    cases hw
  · intro txid _ w hw
    cases hw

end SPInfo

end TradeLayer
