import TradeLayer.ContractDex
import TradeLayer.SpRollback

namespace TradeLayer
open Library

abbrev SumUpnls := OrderedMap Address Int

/-- The unrealised profits of the addresses in each contract, as floating point numbers. -/
abbrev AddrsUpnlc (δ : Type) := OrderedMap PropertyId (OrderedMap Address δ)

namespace SumUpnls

variable {sums r : SumUpnls} {a : Address} {e : Address × Int} {es : List (Address × Int)}

def add (sums : SumUpnls) (e : Address × Int) : Except Abort SumUpnls := do
  let sum ← checked64 ((sums.get? e.1).getD 0 + e.2)
  return sums.set e.1 sum

def total (es : List (Address × Int)) (a : Address) : Int :=
  (es.map fun e => if e.1 = a then e.2 else 0).sum

@[simp] theorem total_nil : total [] a = 0 := rfl

@[simp] theorem total_cons : total (e :: es) a = (if e.1 = a then e.2 else 0) + total es a := by
  simp [total]

theorem add_eq_ok : sums.add e = .ok r ↔
    InInt64 ((sums.get? e.1).getD 0 + e.2) ∧ r = sums.set e.1 ((sums.get? e.1).getD 0 + e.2) := by
  rw [add, bind_eq_ok]
  constructor
  · rintro ⟨sum, hsum, h⟩
    obtain ⟨rfl, hin⟩ := checked64_eq_ok.mp hsum
    cases h
    exact ⟨hin, rfl⟩
  · rintro ⟨hin, rfl⟩
    exact ⟨_, checked64_eq_ok.mpr ⟨rfl, hin⟩, rfl⟩

def Fits (sums : SumUpnls) (es : List (Address × Int)) : Prop :=
  ∀ done e rest, es = done ++ e :: rest →
    InInt64 ((sums.get? e.1).getD 0 + total done e.1 + e.2)

/-- A map that holds the sums of profits on top of others, and no more. -/
def Holds (r sums : SumUpnls) (es : List (Address × Int)) : Prop :=
  ∀ a, (a ∈ es.map Prod.fst → r.get? a = some ((sums.get? a).getD 0 + total es a)) ∧
    (a ∉ es.map Prod.fst → r.get? a = sums.get? a)

theorem fits_cons : sums.Fits (e :: es) ↔ InInt64 ((sums.get? e.1).getD 0 + e.2) ∧
    Fits (sums.set e.1 ((sums.get? e.1).getD 0 + e.2)) es := by
  rw [Fits, forall_split_cons]
  simp only [total_nil, add_zero, total_cons, Fits, OrderedMap.get?_set]
  refine and_congr_right fun _ => forall₃_congr fun done e' rest => imp_congr_right fun _ => ?_
  by_cases he : e.1 = e'.1
  · rw [if_pos he, if_pos he.symm, he, Option.getD_some, add_assoc _ e.2]
  · rw [if_neg he, if_neg (Ne.symm he), zero_add]

theorem total_append {es' : List (Address × Int)} :
    total (es ++ es') a = total es a + total es' a := by
  simp [total]

theorem total_eq_zero (h : a ∉ es.map Prod.fst) : total es a = 0 := by
  apply List.sum_eq_zero
  intro x hx
  obtain ⟨e, he, rfl⟩ := List.mem_map.mp hx
  rw [if_neg]
  rintro rfl
  exact h (List.mem_map_of_mem he)

theorem Holds.getD (h : r.Holds ∅ es) : (r.get? a).getD 0 = total es a := by
  by_cases hmem : a ∈ es.map Prod.fst
  · rw [(h a).1 hmem]
    simp
  · rw [(h a).2 hmem, total_eq_zero hmem]
    rfl

theorem holds_cons : r.Holds sums (e :: es) ↔
    r.Holds (sums.set e.1 ((sums.get? e.1).getD 0 + e.2)) es := by
  refine forall_congr' fun a => ?_
  simp only [List.map_cons, List.mem_cons, total_cons, OrderedMap.get?_set]
  by_cases ha : a = e.1
  · subst ha
    simp only [true_or, if_true, Option.getD_some, add_assoc]
    by_cases hmem : e.1 ∈ es.map Prod.fst
    · simp [hmem]
    · simp [hmem, total_eq_zero hmem]
  · rw [if_neg (Ne.symm ha), zero_add]
    simp only [ha, false_or, if_false]

theorem foldlM_add : es.foldlM add sums = .ok r ↔ sums.Fits es ∧ r.Holds sums es := by
  induction es generalizing sums with
  | nil =>
    have hfits : sums.Fits [] := by
      intro done e rest h
      simp at h
    have hholds : r.Holds sums [] ↔ r = sums := by
      constructor
      · intro h
        exact OrderedMap.ext_get? fun a => by simpa using h a
      · rintro rfl a
        simp
    rw [hholds, List.foldlM_nil, pure_eq_ok, Except.ok.injEq, and_iff_right hfits, eq_comm]
  | cons e es ih =>
    rw [List.foldlM_cons, bind_eq_ok, fits_cons, holds_cons, and_assoc]
    constructor
    · rintro ⟨m, hm, h⟩
      obtain ⟨hin, rfl⟩ := add_eq_ok.mp hm
      exact ⟨hin, ih.mp h⟩
    · rintro ⟨hin, h⟩
      exact ⟨_, add_eq_ok.mpr ⟨hin, rfl⟩, ih.mpr h⟩

theorem exists_foldlM_add (h : sums.Fits es) : ∃ r, es.foldlM add sums = .ok r := by
  induction es generalizing sums with
  | nil => exact ⟨sums, rfl⟩
  | cons e es ih =>
    obtain ⟨hin, hrest⟩ := fits_cons.mp h
    obtain ⟨r, hr⟩ := ih hrest
    exact ⟨r, by rw [List.foldlM_cons, add_eq_ok.mpr ⟨hin, rfl⟩, ok_bind, hr]⟩

end SumUpnls

section Update

variable {δ : Type}

/-- Adds a profit that is first converted to an integer, which is undefined for those that are too
large. -/
def addConverted (convert : δ → Option Int) (sums : SumUpnls) (e : Address × δ) :
    Except Abort SumUpnls :=
  match convert e.2 with
  | none => .error .undefined
  | some upnl => sums.add (e.1, upnl)

def addContract (convert : δ → Option Int) (db : SPInfo) (addrsUpnlc : AddrsUpnlc δ)
    (sums : SumUpnls) (contractId : PropertyId) : Except Abort SumUpnls :=
  match db.getSP contractId with
  | none => .ok sums
  | some sp =>
    if sp.propType ≠ allPropertyTypeContract then .ok sums
    else
      match addrsUpnlc.get? contractId with
      -- what lies behind the end of the map is copied
      | none => .error .undefined
      | some upnls => upnls.toList.foldlM (addConverted convert) sums

def updateSumUpnls (convert : δ → Option Int) (db : SPInfo) (addrsUpnlc : AddrsUpnlc δ) :
    Except Abort SumUpnls :=
  (List.range' 1 (db.peekNextSPID 1 - 1)).foldlM (addContract convert db addrsUpnlc) ∅

def isNative (db : SPInfo) (c : PropertyId) : Bool :=
  (db.getSP c).any fun sp => sp.propType = allPropertyTypeContract

def nativeContracts (db : SPInfo) : List PropertyId :=
  (List.range' 1 (db.peekNextSPID 1 - 1)).filter (isNative db)

def testContracts (db : SPInfo) : List PropertyId :=
  (List.range' testEcoProperty1 (db.peekNextSPID 2 - testEcoProperty1)).filter (isNative db)

def contractUpnls (convert : δ → Option Int) (addrsUpnlc : AddrsUpnlc δ) (contractId : PropertyId) :
    Option (List (Address × Int)) :=
  (addrsUpnlc.get? contractId).bind fun upnls =>
    upnls.toList.mapM fun e => (convert e.2).map (e.1, ·)

variable {convert : δ → Option Int} {db : SPInfo} {addrsUpnlc : AddrsUpnlc δ}
variable {sums r : SumUpnls} {c : PropertyId} {cs : List PropertyId}

theorem mapM_cons_eq_some {α β : Type} {f : α → Option β} {x : α} {xs : List α} {ys : List β} :
    (x :: xs).mapM f = some ys ↔ ∃ y zs, f x = some y ∧ xs.mapM f = some zs ∧ ys = y :: zs := by
  rw [List.mapM_cons]
  cases f x <;> cases xs.mapM f <;> simp [eq_comm]

theorem foldlM_addConverted {es : List (Address × δ)} :
    es.foldlM (addConverted convert) sums = .ok r ↔
      ∃ xs, es.mapM (fun e => (convert e.2).map (e.1, ·)) = some xs ∧
        xs.foldlM SumUpnls.add sums = .ok r := by
  induction es generalizing sums with
  | nil => simp
  | cons e es ih =>
    simp only [List.foldlM_cons, bind_eq_ok, ih, mapM_cons_eq_some]
    constructor
    · rintro ⟨m, hm, xs, hxs, hr⟩
      cases hconvert : convert e.2 with
      | none => simp [addConverted, hconvert] at hm
      | some upnl =>
        simp only [addConverted, hconvert] at hm
        refine ⟨(e.1, upnl) :: xs, ⟨(e.1, upnl), xs, rfl, hxs, rfl⟩, ?_⟩
        rw [List.foldlM_cons, hm, ok_bind, hr]
    · rintro ⟨_, ⟨y, xs, hy, hxs, rfl⟩, hr⟩
      obtain ⟨upnl, hconvert, rfl⟩ := Option.map_eq_some_iff.mp hy
      rw [List.foldlM_cons, bind_eq_ok] at hr
      obtain ⟨m, hm, hr⟩ := hr
      exact ⟨m, by rw [addConverted, hconvert]; exact hm, xs, hxs, hr⟩

theorem addContract_of_native (hc : isNative db c = true) :
    addContract convert db addrsUpnlc sums c = .ok r ↔
      ∃ xs, contractUpnls convert addrsUpnlc c = some xs ∧
        xs.foldlM SumUpnls.add sums = .ok r := by
  obtain ⟨sp, hsp, htype⟩ : ∃ sp, db.getSP c = some sp ∧ sp.propType = allPropertyTypeContract := by
    simpa [isNative, Option.any_eq_true] using hc
  rw [addContract, hsp]
  dsimp only
  rw [if_neg (not_not.mpr htype), contractUpnls]
  cases addrsUpnlc.get? c with
  | none => simp
  | some upnls => exact foldlM_addConverted

theorem addContract_of_not_native (hc : isNative db c = false) :
    addContract convert db addrsUpnlc sums c = .ok sums := by
  rw [isNative] at hc
  rw [addContract]
  cases hsp : db.getSP c with
  | none => rfl
  | some sp =>
    rw [hsp] at hc
    exact if_pos (by simpa using hc)

theorem foldlM_addContract : cs.foldlM (addContract convert db addrsUpnlc) sums = .ok r ↔
    ∃ xss, (cs.filter (isNative db)).mapM (contractUpnls convert addrsUpnlc) = some xss ∧
      xss.flatten.foldlM SumUpnls.add sums = .ok r := by
  induction cs generalizing sums with
  | nil => simp
  | cons c cs ih =>
    rw [List.foldlM_cons, bind_eq_ok]
    simp only [ih]
    cases hc : isNative db c with
    | true =>
      rw [List.filter_cons_of_pos hc]
      simp only [mapM_cons_eq_some, addContract_of_native hc]
      constructor
      · rintro ⟨m, ⟨xs, hxs, hm⟩, xss, hxss, hr⟩
        refine ⟨xs :: xss, ⟨xs, xss, hxs, hxss, rfl⟩, ?_⟩
        rw [List.flatten_cons, List.foldlM_append, hm, ok_bind, hr]
      · rintro ⟨_, ⟨xs, xss, hxs, hxss, rfl⟩, hr⟩
        rw [List.flatten_cons, List.foldlM_append, bind_eq_ok] at hr
        obtain ⟨m, hm, hr⟩ := hr
        exact ⟨m, ⟨xs, hxs, hm⟩, xss, hxss, hr⟩
    | false =>
      rw [List.filter_cons_of_neg (by simp [hc]), addContract_of_not_native hc]
      simp

def knownUpnls (convert : δ → Option Int) (addrsUpnlc : AddrsUpnlc δ) (contractId : PropertyId) :
    List (Address × Int) :=
  (((addrsUpnlc.get? contractId).getD ∅).toList).filterMap fun e => (convert e.2).map (e.1, ·)

theorem filterMap_of_mapM {α β : Type} {f : α → Option β} {xs : List α} {ys : List β}
    (h : xs.mapM f = some ys) : xs.filterMap f = ys := by
  induction xs generalizing ys with
  | nil => simpa [eq_comm] using h
  | cons x xs ih =>
    obtain ⟨y, zs, hy, hzs, rfl⟩ := mapM_cons_eq_some.mp h
    rw [List.filterMap_cons_some hy, ih hzs]

theorem flatMap_knownUpnls {xss : List (List (Address × Int))}
    (h : cs.mapM (contractUpnls convert addrsUpnlc) = some xss) :
    cs.flatMap (knownUpnls convert addrsUpnlc) = xss.flatten := by
  induction cs generalizing xss with
  | nil =>
    cases h
    rfl
  | cons c cs ih =>
    obtain ⟨xs, yss, hxs, hyss, rfl⟩ := mapM_cons_eq_some.mp h
    obtain ⟨upnls, hupnls, hmap⟩ := Option.bind_eq_some_iff.mp hxs
    rw [List.flatMap_cons, ih hyss, List.flatten_cons, knownUpnls, hupnls, Option.getD_some,
      filterMap_of_mapM hmap]

def SumsNative (convert : δ → Option Int) (db : SPInfo) (addrsUpnlc : AddrsUpnlc δ)
    (sums : SumUpnls) : Prop :=
  ∀ a, (sums.get? a).getD 0 = SumUpnls.total
    ((nativeContracts db ++ testContracts db).flatMap (knownUpnls convert addrsUpnlc)) a

/-- The sums are formed if and only if every native contract of the main ecosystem has a map of
profits, all of these can be converted, no sum on the way leaves the 64-bit range, and those of
the test ecosystem come to nothing. -/
theorem updateSumUpnls_iff :
    (∃ sums, updateSumUpnls convert db addrsUpnlc = .ok sums ∧
        SumsNative convert db addrsUpnlc sums) ↔
      (∃ xss, (nativeContracts db).mapM (contractUpnls convert addrsUpnlc) = some xss ∧
        SumUpnls.Fits ∅ xss.flatten) ∧
      ∀ a, SumUpnls.total ((testContracts db).flatMap (knownUpnls convert addrsUpnlc)) a = 0 := by
  have hsplit : ∀ {xss sums}, (nativeContracts db).mapM (contractUpnls convert addrsUpnlc) =
      some xss → sums.Holds ∅ xss.flatten → (SumsNative convert db addrsUpnlc sums ↔
        ∀ a, SumUpnls.total
          ((testContracts db).flatMap (knownUpnls convert addrsUpnlc)) a = 0) := by
    intro xss sums hxss hholds
    refine forall_congr' fun a => ?_
    rw [List.flatMap_append, flatMap_knownUpnls hxss, SumUpnls.total_append, hholds.getD]
    omega
  constructor
  · rintro ⟨sums, hsums, hnative⟩
    obtain ⟨xss, hxss, hr⟩ := foldlM_addContract.mp hsums
    obtain ⟨hfits, hholds⟩ := SumUpnls.foldlM_add.mp hr
    exact ⟨⟨xss, hxss, hfits⟩, (hsplit hxss hholds).mp hnative⟩
  · rintro ⟨⟨xss, hxss, hfits⟩, htest⟩
    obtain ⟨sums, hsums⟩ := SumUpnls.exists_foldlM_add hfits
    have hholds := (SumUpnls.foldlM_add.mp hsums).2
    exact ⟨sums, foldlM_addContract.mpr ⟨xss, hxss, hsums⟩, (hsplit hxss hholds).mpr htest⟩

def sampleNative : SPInfo :=
  ((NodeState.initial .test .zero).spInfo.putSP 1
    { SPEntry.zero with propType := allPropertyTypeContract }).2

/-- Before it is traded the contract has no map of profits. -/
theorem updateSumUpnls_sampleNative :
    updateSumUpnls some sampleNative ∅ = .error .undefined ∧ nativeContracts sampleNative = [3] :=
  ⟨eq_error_of_failure (by decide +kernel), by decide +kernel⟩

end Update

end TradeLayer
