import Mathlib.Data.List.TakeWhile
import TradeLayer.PersistedBalances

namespace TradeLayer
open Library

namespace Tally

variable {t : Tally} {p q : PropertyId} {ty : TallyType} {a : Address} {e : Address × Tally}

/-- What the file has of a tally: four of its types, unless there is a property zero. -/
def saved (t : Tally) (p : PropertyId) (ty : TallyType) : Int :=
  if t.get? 0 = none ∧ ty ∈ savedTypes then t.getMoney p ty else 0

theorem nodup_keys (t : Tally) : (t.toList.map Prod.fst).Nodup := by
  rw [List.Nodup, List.pairwise_map]
  exact t.sorted.imp fun h => h.ne

theorem mem_keys : p ∈ t.toList.map Prod.fst ↔ t.get? p ≠ none := by
  rw [Option.ne_none_iff_exists', List.mem_map]
  constructor
  · rintro ⟨e, he, rfl⟩
    exact ⟨e.2, OrderedMap.get?_eq_some.mpr he⟩
  · rintro ⟨r, hr⟩
    exact ⟨(p, r), OrderedMap.get?_eq_some.mp hr, rfl⟩

theorem walked_of_none (h : t.get? 0 = none) : t.walked = t.toList.map Prod.fst := by
  apply List.takeWhile_eq_self_iff.mpr
  intro p hp
  rw [decide_eq_true_iff]
  rintro rfl
  exact mem_keys.mp hp h

theorem walked_of_ne_none (h : t.get? 0 ≠ none) : t.walked = [] := by
  have hmem := mem_keys.mpr h
  have hsorted : (t.toList.map Prod.fst).Pairwise (· < ·) := List.pairwise_map.mpr t.sorted
  rw [walked]
  cases hkeys : t.toList.map Prod.fst with
  | nil => rfl
  | cons q keys =>
    rw [hkeys] at hmem hsorted
    have hq : q = 0 := by
      cases hmem with
      | head => rfl
      | tail _ hmem => exact absurd ((List.pairwise_cons.mp hsorted).1 0 hmem) (Nat.not_lt_zero q)
    rw [hq, List.takeWhile_cons_of_neg (by decide)]

theorem nodup_savedProperties (t : Tally) : t.savedProperties.Nodup :=
  ((nodup_keys t).sublist (List.takeWhile_sublist _)).filter _

theorem net_savedPostings : Posting.net (· = ⟨a, p, ty⟩) (savedPostings e.1 e.2 q) =
    if e.1 = a ∧ q = p ∧ ty ∈ savedTypes then e.2.getMoney q ty else 0 := by
  simp only [savedPostings, savedTypes, List.map_cons, List.map_nil, Posting.net_cons,
    Posting.net_nil, Account.mk.injEq]
  by_cases hkeys : e.1 = a ∧ q = p
  · cases ty <;> simp [hkeys]
  · cases ty <;> simp [hkeys]

theorem saved_of_mem (h : p ∈ t.savedProperties) :
    t.saved p ty = if ty ∈ savedTypes then t.getMoney p ty else 0 := by
  have hnone : t.get? 0 = none := by
    by_contra hzero
    rw [savedProperties, walked_of_ne_none hzero] at h
    cases h
  rw [saved]
  simp only [hnone, true_and]

theorem saved_of_not_mem (h : p ∉ t.savedProperties) : t.saved p ty = 0 := by
  rw [saved]
  split_ifs with hsaved
  · obtain ⟨hnone, hty⟩ := hsaved
    by_contra hmoney
    apply h
    apply List.mem_filter.mpr
    refine ⟨?_, List.any_eq_true.mpr ⟨ty, hty, decide_eq_true hmoney⟩⟩
    rw [walked_of_none hnone, mem_keys]
    intro hkey
    rw [getMoney, hkey] at hmoney
    simp at hmoney
  · rfl

theorem net_allPostings :
    Posting.net (· = ⟨a, p, ty⟩) (allPostings e) = if e.1 = a then e.2.saved p ty else 0 := by
  by_cases hp : p ∈ e.2.savedProperties
  · have hnet : Posting.net (· = ⟨a, p, ty⟩) (allPostings e) =
        Posting.net (· = ⟨a, p, ty⟩) (savedPostings e.1 e.2 p) := by
      apply Posting.net_flatMap_of_mem (nodup_savedProperties e.2) hp
      intro q _ hq
      rw [net_savedPostings, if_neg fun h => hq h.2.1]
    rw [hnet, net_savedPostings, saved_of_mem hp]
    by_cases ha : e.1 = a
    · simp [ha]
    · simp [ha]
  · rw [saved_of_not_mem hp, ite_self]
    apply Posting.net_flatMap_eq_zero
    intro q hq
    rw [net_savedPostings, if_neg]
    rintro ⟨-, rfl, -⟩
    exact hp hq

end Tally

namespace Ledger

variable {l l₀ : Ledger} {hash : List Char → List Char} {tallies : List (Address × Tally)}
variable {a : Address} {p : PropertyId} {t : TallyType} {verifyHash : Bool}
variable {e : Address × Tally}

/-- Balances that the file has room for, of addresses that do not interfere with its form. -/
structure Writable (l : Ledger) : Prop where
  inRange : l.InRange
  ids : ∀ e ∈ l.mpTallyMap, ∀ p, e.2.get? p ≠ none → p < 2 ^ 32
  addresses : ∀ e ∈ l.mpTallyMap, LineAddress e.1

/-- Writing and loading the balances gives back all of them but the pending ones. -/
def SurvivesRestart (l l₀ : Ledger) (hash : List Char → List Char) (verifyHash : Bool)
    (tallies : List (Address × Tally)) : Prop :=
  ∃ l', l₀.restoreInMemoryState hash verifyHash (stateFile hash (writeMscBalances tallies)) =
      .ok (0, l') ∧
    ∀ a p t, t ≠ .pending → l'.money a p t = l.money a p t

theorem money_of_mem (he : e ∈ l.mpTallyMap) : l.money e.1 p t = e.2.getMoney p t := by
  rw [money, tally, OrderedMap.get?_eq_some.mpr he, Option.getD_some]

theorem net_tallies (hperm : tallies.Perm l.mpTallyMap.toList) :
    Posting.net (· = ⟨a, p, t⟩) (tallies.flatMap Tally.allPostings) = (l.tally a).saved p t := by
  have hmem : ∀ {e}, e ∈ tallies ↔ e ∈ l.mpTallyMap := hperm.mem_iff
  cases htally : l.mpTallyMap.get? a with
  | none =>
    have hempty : l.tally a = ∅ := by rw [tally, htally, Option.getD_none]
    have hzero : Tally.saved ∅ p t = 0 := by simp [Tally.saved, Tally.getMoney]
    rw [hempty, hzero]
    apply Posting.net_flatMap_eq_zero
    intro e he
    rw [Tally.net_allPostings, if_neg]
    rintro rfl
    rw [OrderedMap.get?_eq_some.mpr (hmem.mp he)] at htally
    cases htally
  | some x =>
    have hin : (a, x) ∈ tallies := hmem.mpr (OrderedMap.get?_eq_some.mp htally)
    have hnodup : tallies.Nodup := hperm.nodup_iff.mpr (Keyed.nodup _)
    have hnet : Posting.net (· = ⟨a, p, t⟩) (tallies.flatMap Tally.allPostings) =
        Posting.net (· = ⟨a, p, t⟩) (Tally.allPostings (a, x)) := by
      apply Posting.net_flatMap_of_mem hnodup hin
      intro e he hne
      rw [Tally.net_allPostings, if_neg]
      intro ha
      exact hne (Keyed.eq_of_key_eq (hmem.mp he) (hmem.mp hin) ha)
    rw [hnet, Tally.net_allPostings, if_pos rfl, tally, htally, Option.getD_some]

theorem restoreLines_hash {hashed fileHash text : List Char} (h : '\r' ∉ text) :
    restoreLines ['!' :: text] hashed fileHash l = .ok (0, hashed, text, l) := by
  have hfeed : ('!' :: text).filter (· ≠ '\r') = '!' :: text := by
    rw [List.filter_eq_self]
    intro c hc
    rw [decide_eq_true_iff]
    rintro rfl
    cases hc with
    | tail _ hc => exact h hc
  rw [restoreLines, if_neg (by simp)]
  dsimp only
  rw [hfeed, if_pos List.head?_cons]
  rfl

theorem restoreInMemoryState_eq (l₀ : Ledger) (verifyHash : Bool) (hl : l.Writable)
    (hperm : tallies.Perm l.mpTallyMap.toList) (hhash : ∀ text, '\r' ∉ hash text) :
    ∃ l', l₀.restoreInMemoryState hash verifyHash (stateFile hash (writeMscBalances tallies)) =
        .ok (0, l') ∧
      ∀ a p t, l'.money a p t = (l.tally a).saved p t := by
  have hmem : ∀ {e}, e ∈ tallies ↔ e ∈ l.mpTallyMap := hperm.mem_iff
  have hwritable : ∀ e ∈ tallies, e.2.Writable := by
    intro e he
    constructor
    · intro p hp
      apply hl.ids e (hmem.mp he) p
      rw [← Tally.mem_keys]
      exact (List.takeWhile_sublist _).subset (List.mem_of_mem_filter hp)
    · intro p ty hty
      rw [← money_of_mem (hmem.mp he)]
      apply hl.inRange
      rintro rfl
      exact absurd hty (by decide)
  have hempty : ∀ a p t, ({ l₀ with mpTallyMap := ∅ } : Ledger).money a p t = 0 := by
    intro a p t
    simp [money, tally, Tally.getMoney]
  have hsaved : ∀ a p t, (l.tally a).saved p t ≤ int64Max := by
    intro a p t
    rw [Tally.saved]
    split_ifs with hin
    · apply (hl.inRange a p t _).2
      rintro rfl
      exact absurd hin.2 (by decide)
    · decide
  have hamounts : ∀ x ∈ tallies.flatMap Tally.allPostings,
      0 ≤ x.amount ∧ x.account.ttype ∈ Tally.savedTypes := by
    intro x hx
    obtain ⟨e, he, hx⟩ := List.mem_flatMap.mp hx
    obtain ⟨p, -, hx⟩ := List.mem_flatMap.mp hx
    obtain ⟨ty, hty, rfl⟩ := List.mem_map.mp hx
    exact ⟨((hwritable e he).amounts p ty hty).1, hty⟩
  obtain ⟨l', hl', hmoney⟩ := restoreTallies_eq (l := { l₀ with mpTallyMap := ∅ }) hamounts
    (fun a p t => (hempty a p t).ge)
    (fun a p t => by rw [hempty, net_tallies hperm, zero_add]; exact hsaved a p t)
  refine ⟨l', ?_, ?_⟩
  · rw [restoreInMemoryState, stateFile,
      restoreLines_writeMscBalances hwritable fun e he => hl.addresses e (hmem.mp he), hl', ok_bind,
      restoreLines_hash (hhash _), ok_bind]
    dsimp only
    rw [List.nil_append, if_neg (by simp)]
    rfl
  · intro a p t
    rw [hmoney, hempty, zero_add, net_tallies hperm]

/-- The balances survive a restart just when nothing but the four types of the file is in use, and
nothing by addresses that have a record of property zero. -/
theorem survivesRestart_iff (hl : l.Writable) (hperm : tallies.Perm l.mpTallyMap.toList)
    (hhash : ∀ text, '\r' ∉ hash text) :
    l.SurvivesRestart l₀ hash verifyHash tallies ↔
      ∀ a p t, t ≠ .pending → l.money a p t ≠ 0 →
        t ∈ Tally.savedTypes ∧ (l.tally a).get? 0 = none := by
  obtain ⟨l', hl', hmoney⟩ := restoreInMemoryState_eq l₀ verifyHash hl hperm hhash
  constructor
  · rintro ⟨l'', hl'', hsame⟩ a p t ht hne
    rw [hl'] at hl''
    cases hl''
    rw [← hsame a p t ht, hmoney, Tally.saved] at hne
    by_contra hlost
    exact hne (if_neg fun h => hlost h.symm)
  · intro hall
    refine ⟨l', hl', ?_⟩
    intro a p t ht
    rw [hmoney, Tally.saved]
    split_ifs with hin
    · rfl
    · by_contra hne
      exact hin (hall a p t ht (Ne.symm hne)).symm

def sampleHash (text : List Char) : List Char := Nat.toDigits 10 text.length

def sampleSaved : Ledger := .ofPostings [⟨⟨['a'], 3, .balance⟩, 120⟩]

theorem tally_sampleSaved (a : Address) : sampleSaved.tally a = if a = ['a'] then
    OrderedMap.set ∅ 3 (Function.update (fun _ => 0) .balance 120) else ∅ := by
  simp only [sampleSaved, ofPostings, List.foldl_cons, List.foldl_nil, tally, setTally,
    OrderedMap.get?_set]
  split_ifs
  · rfl
  · rfl

theorem mem_sampleSaved (he : e ∈ sampleSaved.mpTallyMap) :
    e = (['a'], OrderedMap.set ∅ 3 (Function.update (fun _ => 0) .balance 120)) :=
  List.mem_singleton.mp he

theorem writable_sampleSaved : sampleSaved.Writable where
  inRange := inRange_ofPostings
  ids := by
    intro e he p hp
    rw [mem_sampleSaved he, OrderedMap.get?_set] at hp
    split_ifs at hp with hthree
    · rw [hthree]
      decide
    · exact absurd rfl hp
  addresses := by
    intro e he
    rw [mem_sampleSaved he]
    exact ⟨by decide, by decide, by decide, by decide⟩

theorem survivesRestart_of_sampleSaved :
    writeMscBalances sampleSaved.mpTallyMap.toList =
        [['a', '=', '3', ':', '1', '2', '0', ',', '0', ',', '0', ',', '0', ';']] ∧
      sampleSaved.SurvivesRestart sampleSaved sampleHash true sampleSaved.mpTallyMap.toList := by
  refine ⟨by decide +kernel, (survivesRestart_iff writable_sampleSaved (.refl _) ?_).mpr ?_⟩
  · intro text hfeed
    exact absurd (isDigit_of_mem_toDigits hfeed) (by decide)
  · intro a p t _ hne
    constructor
    · by_contra hty
      apply hne
      apply money_ofPostings
      intro x hx
      rw [List.mem_singleton.mp hx]
      rintro rfl
      exact hty (by decide)
    · rw [tally_sampleSaved]
      split_ifs
      · rfl
      · rfl

def sampleMargined : Ledger :=
  .ofPostings [⟨⟨['a'], 3, .balance⟩, 100⟩, ⟨⟨['a'], 3, .contractdexMargin⟩, 20⟩]

theorem not_survivesRestart_of_sampleMargined :
    ∃ l', sampleMargined.restoreInMemoryState sampleHash true
        (stateFile sampleHash (writeMscBalances sampleMargined.mpTallyMap.toList)) = .ok (0, l') ∧
      l'.money ['a'] 3 .balance = 100 ∧ l'.money ['a'] 3 .contractdexMargin = 0 ∧
      ¬ sampleMargined.SurvivesRestart sampleMargined sampleHash true
        sampleMargined.mpTallyMap.toList := by
  obtain ⟨⟨rc, l'⟩, hl', hmoney⟩ := exists_ok_of_map
    (g := fun r => (r.1, r.2.money ['a'] 3 .balance, r.2.money ['a'] 3 .contractdexMargin))
    (x := sampleMargined.restoreInMemoryState sampleHash true
      (stateFile sampleHash (writeMscBalances sampleMargined.mpTallyMap.toList)))
    (b := (0, 100, 0)) (by decide +kernel)
  simp only [Prod.mk.injEq] at hmoney
  obtain ⟨rfl, hbalance, hmargin⟩ := hmoney
  refine ⟨l', hl', hbalance, hmargin, ?_⟩
  rintro ⟨l'', hl'', hsame⟩
  rw [hl'] at hl''
  cases hl''
  have hlost := hsame ['a'] 3 .contractdexMargin (by decide)
  rw [hmargin] at hlost
  exact absurd hlost (by decide +kernel)

end Ledger

end TradeLayer
