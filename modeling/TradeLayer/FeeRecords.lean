import TradeLayer.FeeCache

namespace TradeLayer
open Library

namespace CacheHistory

variable {h h' h'' : CacheHistory} {block amount : Int} {debug : Bool} {e x : Int × Int}

theorem mem_write : e ∈ h.write block amount ↔ e = (block, amount) ∨ e ∈ h ∧ e.1 ≠ block := by
  have hnone : (h.filter fun e => e.1 ≠ block).find? (toLex (block, amount)) = none := by
    rw [Keyed.find?_eq_none]
    intro x hx hkey
    obtain ⟨-, hne⟩ := Keyed.mem_filter.mp hx
    rw [toLex.injective hkey] at hne
    simp at hne
  rw [write, Keyed.mem_insert, hnone, Keyed.mem_filter, decide_eq_true_eq, or_comm]
  simp

theorem fst_le_of_getLast? (hx : h.toList.getLast? = some x) (he : e ∈ h) : e.1 ≤ x.1 := by
  rcases Prod.Lex.le_iff.mp ((getLast?_eq_some.mp hx).2 e he) with hlt | ⟨heq, -⟩
  · exact hlt.le
  · exact heq.le

theorem fst_le_of_head? (hx : h.toList.head? = some x) (he : e ∈ h) : x.1 ≤ e.1 := by
  have hsorted := h.sorted
  rw [Keyed.mem_def] at he
  obtain ⟨rest, hrest⟩ := List.head?_eq_some_iff.mp hx
  rw [hrest] at he hsorted
  rcases List.mem_cons.mp he with rfl | he
  · exact le_rfl
  · rcases Prod.Lex.lt_iff.mp (List.rel_of_pairwise_cons hsorted he) with hlt | ⟨heq, -⟩
    · exact hlt.le
    · exact heq.le

/-- Where an entry is young enough to stay, pruning removes the matured entries, and these only
while fees are being debugged. -/
theorem mem_prune (hx : x ∈ h) (hyoung : block - maxStateHistory ≤ x.1) :
    e ∈ h.prune debug block ↔ e ∈ h ∧ (debug = true → block - maxStateHistory ≤ e.1) := by
  have hne : h.toList ≠ [] := List.ne_nil_of_mem hx
  obtain ⟨first, hfirst⟩ := Option.ne_none_iff_exists'.mp (mt List.head?_eq_none_iff.mp hne)
  obtain ⟨last, hlast⟩ := Option.ne_none_iff_exists'.mp (mt List.getLast?_eq_none_iff.mp hne)
  have hkept : x ∈ h.filter fun e => !(decide (e.1 < block - maxStateHistory) && debug) := by
    rw [Keyed.mem_filter]
    exact ⟨hx, by simp [hyoung.not_gt]⟩
  simp only [prune, hfirst, hlast]
  split_ifs with hmature hnil
  · refine (and_iff_left_of_imp fun he _ => ?_).symm
    exact hmature.trans (fst_le_of_head? hfirst he)
  · rw [Keyed.mem_def, hnil] at hkept
    cases hkept
  · rw [Keyed.mem_filter]
    cases debug <;> simp

/-- What a call for a block leaves of a record: an entry of its own and, of the entries of other
blocks, those that pruning does not reach. -/
def Recorded (debug : Bool) (block : Int) (h h' : CacheHistory) : Prop :=
  ∃ amount, ∀ e, e ∈ h' ↔ e = (block, amount) ∨
    e ∈ h ∧ e.1 ≠ block ∧ (debug = true → block - maxStateHistory ≤ e.1)

theorem recorded_prune_write :
    Recorded debug block h ((h.write block amount).prune debug block) := by
  refine ⟨amount, fun e => ?_⟩
  have hself : (block, amount) ∈ h.write block amount := mem_write.mpr (.inl rfl)
  have hyoung : block - maxStateHistory ≤ block := by
    rw [maxStateHistory]
    omega
  rw [mem_prune hself hyoung, mem_write, or_and_right, and_assoc]
  refine or_congr_left (and_iff_left_of_imp ?_)
  rintro rfl -
  exact hyoung

theorem Recorded.trans (hr : Recorded debug block h h') (hr' : Recorded debug block h' h'') :
    Recorded debug block h h'' := by
  obtain ⟨n, hn⟩ := hr
  obtain ⟨m, hm⟩ := hr'
  refine ⟨m, fun e => ?_⟩
  rw [hm, hn]
  refine or_congr_right ⟨?_, ?_⟩
  · rintro ⟨rfl | he, hne, -⟩
    · exact absurd rfl hne
    · exact he
  · rintro ⟨he, hne, hyoung⟩
    exact ⟨.inr ⟨he, hne, hyoung⟩, hne, hyoung⟩

theorem lastAmount_eq_iff (keep : Int → Prop) (hkeep : ∀ m n, m ≤ n → keep m → keep n)
    (hmem : ∀ e, e ∈ h' ↔ e ∈ h ∧ keep e.1) :
    h'.lastAmount = h.lastAmount ↔ h.lastAmount = 0 ∨ ∃ e ∈ h, keep e.1 := by
  by_cases hsome : ∃ e ∈ h, keep e.1
  · refine iff_of_true ?_ (.inr hsome)
    obtain ⟨e, he, hk⟩ := hsome
    obtain ⟨last, hlast⟩ := Option.ne_none_iff_exists'.mp
      (mt List.getLast?_eq_none_iff.mp (List.ne_nil_of_mem he))
    obtain ⟨hin, hmax⟩ := getLast?_eq_some.mp hlast
    have hlast' : h'.toList.getLast? = some last := by
      rw [getLast?_eq_some]
      refine ⟨(hmem last).mpr ⟨hin, hkeep _ _ (fst_le_of_getLast? hlast he) hk⟩, fun x hx => ?_⟩
      exact hmax x ((hmem x).mp hx).1
    rw [lastAmount, lastAmount, hlast, hlast']
  · have hempty : h' = ∅ := by
      refine Keyed.ext_mem fun e => iff_of_false (fun he => hsome ?_) Keyed.not_mem_empty
      exact ⟨e, (hmem e).mp he⟩
    rw [or_iff_left hsome, hempty]
    exact eq_comm

end CacheHistory

namespace SPInfo

def feeProperties (db : SPInfo) : List PropertyId :=
  List.range' 1 (db.peekNextSPID 1 - 1) ++
    List.range' testEcoProperty1 (db.peekNextSPID 2 - testEcoProperty1)

end SPInfo

namespace FeeCache

variable {c : FeeCache} {p q : PropertyId} {block : Int} {ps : List PropertyId} {e : Int × Int}

def rollBackProperty (block : Int) (c : FeeCache) (propertyId : PropertyId) : FeeCache :=
  match (c.getCacheHistory propertyId).toList.getLast? with
  | none => c
  | some mostRecentItem =>
    if mostRecentItem.1 < block then c
    -- when nothing is left the empty text is stored, which reads as no entries
    else c.put propertyId ((c.getCacheHistory propertyId).filter fun e => e.1 < block)

def rollBackCache (c : FeeCache) (db : SPInfo) (block : Int) : FeeCache :=
  db.feeProperties.foldl (rollBackProperty block) c

theorem mem_rollBackProperty : e ∈ (c.rollBackProperty block p).getCacheHistory q ↔
    e ∈ c.getCacheHistory q ∧ (q = p → e.1 < block) := by
  unfold rollBackProperty
  split
  case h_1 hnone =>
    refine (and_iff_left_of_imp fun he hq => ?_).symm
    rw [List.getLast?_eq_none_iff] at hnone
    rw [hq, Keyed.mem_def, hnone] at he
    cases he
  case h_2 last hlast =>
    split_ifs with hbefore
    · refine (and_iff_left_of_imp fun he hq => ?_).symm
      rw [hq] at he
      exact (CacheHistory.fst_le_of_getLast? hlast he).trans_lt hbefore
    · simp only [getCacheHistory, put, OrderedMap.get?_set]
      split_ifs with hq
      · subst hq
        simp
      · simp [hq]

theorem mem_foldl_rollBackProperty :
    e ∈ (ps.foldl (rollBackProperty block) c).getCacheHistory q ↔
      e ∈ c.getCacheHistory q ∧ (q ∈ ps → e.1 < block) := by
  induction ps generalizing c with
  | nil => simp
  | cons p ps ih =>
    rw [List.foldl_cons, ih, mem_rollBackProperty, and_assoc, List.mem_cons, or_imp]

theorem mem_rollBackCache {db : SPInfo} (hq : q ∈ db.feeProperties) :
    e ∈ (c.rollBackCache db block).getCacheHistory q ↔
      e ∈ c.getCacheHistory q ∧ e.1 < block := by
  rw [rollBackCache, mem_foldl_rollBackProperty]
  exact and_congr_right fun _ => forall_prop_of_true hq

end FeeCache

inductive FeeCall
  | addFee (propertyId : PropertyId) (block amount : Int)
  | clearCache (propertyId : PropertyId) (block : Int)

namespace FeeCall

def propertyId : FeeCall → PropertyId
  | addFee p _ _ => p
  | clearCache p _ => p

def block : FeeCall → Int
  | addFee _ b _ => b
  | clearCache _ b => b

/-- Some call for a property comes late enough in a list to be at most as old as pruning allows
when the calls of another list are made. -/
def Survives (before after : List FeeCall) (p : PropertyId) : Prop :=
  ∃ earlier ∈ before, earlier.propertyId = p ∧
    ∀ call ∈ after, call.propertyId = p → call.block - maxStateHistory ≤ earlier.block

end FeeCall

namespace NodeState

variable {s s' m : NodeState} {env : Environment} {p q : PropertyId} {block amount : Int}
variable {call : FeeCall}

def feeHistory (s : NodeState) (p : PropertyId) : CacheHistory :=
  s.feeCache.getCacheHistory p

def makeFeeCall (env : Environment) (s : NodeState) : FeeCall → Except Abort NodeState
  | .addFee p block amount => s.addFee env p block amount
  | .clearCache p block => .ok (s.clearCache env p block)

def feeCalls (env : Environment) (s : NodeState) (calls : List FeeCall) : Except Abort NodeState :=
  calls.foldlM (makeFeeCall env) s

def rollBackCache (s : NodeState) (block : Int) : NodeState :=
  { s with feeCache := s.feeCache.rollBackCache s.spInfo block }

/-- A call writes the record of its property and leaves the other records and the properties
alone. -/
structure Entered (env : Environment) (p : PropertyId) (block : Int) (s s' : NodeState) : Prop where
  recorded : CacheHistory.Recorded env.mscDebugFees block (s.feeHistory p) (s'.feeHistory p)
  other : ∀ q, q ≠ p → s'.feeHistory q = s.feeHistory q
  spInfo : s'.spInfo = s.spInfo

theorem Entered.trans (h : Entered env p block s m) (h' : Entered env p block m s') :
    Entered env p block s s' where
  recorded := h.recorded.trans h'.recorded
  other q hq := (h'.other q hq).trans (h.other q hq)
  spInfo := h'.spInfo.trans h.spInfo

theorem Entered.upTo (h : Entered env p block s s') (hupto : s.feeCache.UpTo block) :
    s'.feeCache.UpTo block := by
  intro q
  by_cases hq : q = p
  · subst hq
    obtain ⟨amount, hmem⟩ := h.recorded
    intro e he
    rcases (hmem e).mp he with rfl | ⟨he, -⟩
    · exact le_rfl
    · exact hupto q e he
  · have hsame : s'.feeCache.getCacheHistory q = s.feeCache.getCacheHistory q := h.other q hq
    rw [hsame]
    exact hupto q

theorem entered_putCachedAmount : Entered env p block s (s.putCachedAmount env p block amount) where
  recorded := by
    rw [feeHistory, feeHistory, putCachedAmount, FeeCache.getCacheHistory_putAmount, if_pos rfl]
    exact CacheHistory.recorded_prune_write
  other q hq := by
    rw [feeHistory, putCachedAmount, FeeCache.getCacheHistory_putAmount, if_neg hq, feeHistory]
  spInfo := rfl

theorem entered_of_evalCache (h : s.evalCache env p block = .ok s') :
    s' = s ∨ Entered env p block s s' := by
  unfold evalCache at h
  split_ifs at h
  · obtain ⟨receivers, m, -, -, hm, rfl⟩ := distributeCache_cases h
    refine .inr ?_
    have hledger : Entered env p block m (m.clearCache env p block) := entered_putCachedAmount
    rw [hm.1] at hledger ⊢
    exact ⟨hledger.recorded, hledger.other, hledger.spInfo⟩
  · exact .inl (Except.ok.inj h).symm

theorem entered_of_makeFeeCall (h : s.makeFeeCall env call = .ok s') :
    Entered env call.propertyId call.block s s' := by
  cases call with
  | addFee p block amount =>
    obtain ⟨n, -, h⟩ := bind_eq_ok.mp h
    rcases entered_of_evalCache h with rfl | heval
    · exact entered_putCachedAmount
    · exact entered_putCachedAmount.trans heval
  | clearCache p block =>
    cases h
    exact entered_putCachedAmount

end NodeState

end TradeLayer
