import TradeLayer.Persistence

namespace TradeLayer
open Library

def Separates (sep : Char) : Prop :=
  sep.isDigit = false ∧ sep ≠ '-'

instance (sep : Char) : Decidable (Separates sep) := inferInstanceAs (Decidable (_ ∧ _))

section Numbers

variable {sep : Char} {k : Int} {n : Nat} {text : List Char}

theorem Separates.toDigits (hsep : Separates sep) :
    ∀ c ∈ Nat.toDigits 10 n, decide (c = sep) = false := by
  intro c hc
  rw [decide_eq_false_iff_not]
  rintro rfl
  exact absurd (isDigit_of_mem_toDigits hc) (by rw [hsep.1]; exact Bool.false_ne_true)

theorem Separates.integerText (hsep : Separates sep) :
    ∀ c ∈ integerText k, decide (c = sep) = false := by
  intro c hc
  rw [Library.integerText] at hc
  split_ifs at hc
  · cases hc with
    | head => exact decide_eq_false hsep.2.symm
    | tail _ hc => exact hsep.toDigits c hc
  · exact hsep.toDigits c hc

theorem integerText_ne_nil : integerText k ≠ [] := by
  rw [integerText]
  split_ifs
  · exact List.cons_ne_nil _ _
  · exact Nat.toDigits_ne_nil

theorem head_of_token {token : List Char} (htoken : ∀ c ∈ token, decide (c = sep) = false)
    (hne : token ≠ []) : (token ++ text).head?.any (fun c => decide (c = sep)) = false := by
  cases token with
  | nil => exact absurd rfl hne
  | cons c token => exact htoken c List.mem_cons_self

end Numbers

namespace Tally

variable {t : Tally} {p : PropertyId} {sep : Char} {ps : List PropertyId}

theorem balanceData_split : splitAny (· = ',') (t.balanceData p) =
    [integerText (t.getMoney p .balance), integerText (t.getMoney p .sellOfferReserve),
      integerText (t.getMoney p .acceptReserve), integerText (t.getMoney p .metadexReserve)] := by
  have hsep : Separates ',' := by decide
  rw [balanceData, splitAny_append_cons hsep.integerText rfl
      (head_of_token hsep.integerText integerText_ne_nil),
    splitAny_append_cons hsep.integerText rfl
      (head_of_token hsep.integerText integerText_ne_nil),
    splitAny_append_cons hsep.integerText rfl
      (by rw [← List.append_nil (integerText _)]; exact head_of_token hsep.integerText
            integerText_ne_nil),
    splitAny_of_forall hsep.integerText]

theorem forall_balanceData (hsep : Separates sep) (hcomma : sep ≠ ',') :
    ∀ c ∈ t.balanceData p, decide (c = sep) = false := by
  intro c hc
  simp only [balanceData, List.mem_append, List.mem_cons] at hc
  rcases hc with hc | rfl | hc | rfl | hc | rfl | hc
  all_goals first
    | exact hsep.integerText c hc
    | exact decide_eq_false hcomma.symm

theorem propertyData_split :
    splitAny (· = ':') (t.propertyData p) = [Nat.toDigits 10 p, t.balanceData p] := by
  have hsep : Separates ':' := by decide
  rw [propertyData, splitAny_append_cons hsep.toDigits rfl,
    splitAny_of_forall (forall_balanceData hsep (by decide))]
  exact head_of_token hsep.integerText integerText_ne_nil

theorem forall_propertyData (hsep : Separates sep) (hcomma : sep ≠ ',') (hcolon : sep ≠ ':') :
    ∀ c ∈ t.propertyData p, decide (c = sep) = false := by
  intro c hc
  simp only [propertyData, List.mem_append, List.mem_cons] at hc
  rcases hc with hc | rfl | hc
  · exact hsep.toDigits c hc
  · exact decide_eq_false hcolon.symm
  · exact forall_balanceData hsep hcomma c hc

theorem propertyData_ne_nil : t.propertyData p ≠ [] :=
  List.append_ne_nil_of_left_ne_nil Nat.toDigits_ne_nil _

theorem propertiesData_split :
    splitAny (· = ';') (t.propertiesData ps) = ps.map t.propertyData ++ [[]] := by
  have hsep : Separates ';' := by decide
  have htoken : ∀ p, ∀ c ∈ t.propertyData p, decide (c = ';') = false :=
    fun p => forall_propertyData hsep (by decide) (by decide)
  induction ps with
  | nil => rfl
  | cons p ps ih =>
    rw [propertiesData, List.flatMap_cons, List.append_assoc, List.singleton_append,
      splitAny_append_cons (htoken p) rfl, List.map_cons, List.cons_append]
    · exact congrArg _ ih
    · cases ps with
      | nil => rfl
      | cons q ps =>
        rw [List.flatMap_cons, List.append_assoc]
        exact head_of_token (htoken q) propertyData_ne_nil

theorem forall_propertiesData (hsep : Separates sep) (hcomma : sep ≠ ',') (hcolon : sep ≠ ':')
    (hsemicolon : sep ≠ ';') : ∀ c ∈ t.propertiesData ps, decide (c = sep) = false := by
  intro c hc
  obtain ⟨p, -, hc⟩ := List.mem_flatMap.mp hc
  rcases List.mem_append.mp hc with hc | hc
  · exact forall_propertyData hsep hcomma hcolon c hc
  · rw [List.mem_singleton.mp hc]
    exact decide_eq_false hsemicolon.symm

def savedPostings (a : Address) (t : Tally) (p : PropertyId) : List (Posting Account) :=
  savedTypes.map fun ty => ⟨⟨a, p, ty⟩, t.getMoney p ty⟩

def allPostings (e : Address × Tally) : List (Posting Account) :=
  e.2.savedProperties.flatMap (savedPostings e.1 e.2)

end Tally

structure Tally.Writable (t : Tally) : Prop where
  ids : ∀ p ∈ t.savedProperties, p < 2 ^ 32
  amounts : ∀ p, ∀ ty ∈ Tally.savedTypes, 0 ≤ t.getMoney p ty ∧ t.getMoney p ty ≤ int64Max

/-- An address that does not interfere with the form of a line. -/
structure LineAddress (a : Address) : Prop where
  equals : '=' ∉ a
  feed : '\r' ∉ a
  comment : a.head? ≠ some '#'
  hash : a.head? ≠ some '!'

namespace Ledger

variable {l l' : Ledger} {t : Tally} {p : PropertyId} {a : Address} {ps : List PropertyId}
variable {tallies : List (Address × Tally)}

section Parsing

theorem lexicalCastInt64_integerText {n : Int} (h : 0 ≤ n ∧ n ≤ int64Max) :
    lexicalCastInt64 (integerText n) = .ok n := by
  have hmax : int64Max < 2 ^ (64 - 1) := by decide
  rw [lexicalCastInt64, readSigned_integerText (by omega) (by omega)]

theorem inputProperty_propertyData (ht : t.Writable) (hp : p ∈ t.savedProperties) :
    l.inputProperty a (t.propertyData p) =
      ((Tally.savedPostings a t p).foldlM restoreTally l >>= fun l => .ok (some l)) := by
  have hid : lexicalCastUInt32 (Nat.toDigits 10 p) = .ok p := by
    rw [lexicalCastUInt32, readUnsigned_toDigits (ht.ids p hp)]
  have hamount : ∀ ty ∈ Tally.savedTypes,
      lexicalCastInt64 (integerText (t.getMoney p ty)) = .ok (t.getMoney p ty) :=
    fun ty hty => lexicalCastInt64_integerText (ht.amounts p ty hty)
  rw [inputProperty, Tally.propertyData_split]
  dsimp only
  rw [Tally.balanceData_split]
  dsimp only
  rw [hid, ok_bind, hamount _ (by decide), ok_bind, hamount _ (by decide), ok_bind,
    hamount _ (by decide), ok_bind, hamount _ (by decide), ok_bind]
  simp only [Tally.savedPostings, Tally.savedTypes, List.map_cons, List.map_nil,
    List.foldlM_cons, List.foldlM_nil, bind_assoc, pure_eq_ok, ok_bind]

theorem inputProperties_eq (ht : t.Writable) (hps : ∀ p ∈ ps, p ∈ t.savedProperties) :
    inputProperties a (ps.map t.propertyData ++ [[]]) l =
      ((ps.flatMap (Tally.savedPostings a t)).foldlM restoreTally l >>= fun l => .ok (0, l)) := by
  induction ps generalizing l with
  | nil => rfl
  | cons p ps ih =>
    obtain ⟨hp, hps⟩ := List.forall_mem_cons.mp hps
    rw [List.map_cons, List.cons_append, inputProperties, if_neg Tally.propertyData_ne_nil,
      inputProperty_propertyData ht hp, bind_assoc, List.flatMap_cons, List.foldlM_append,
      bind_assoc]
    congr 1
    funext l
    exact ih hps

def lineText (e : Address × Tally) : List Char :=
  e.1 ++ '=' :: e.2.propertiesData e.2.savedProperties

theorem lineText_split (ha : LineAddress a) :
    splitAny (· = '=') (lineText (a, t)) = [a, t.propertiesData t.savedProperties] := by
  have hsep : Separates '=' := by decide
  have hdata : ∀ c ∈ t.propertiesData t.savedProperties, decide (c = '=') = false :=
    Tally.forall_propertiesData hsep (by decide) (by decide) (by decide)
  rw [lineText, splitAny_append_cons _ rfl, splitAny_of_forall hdata]
  · cases hps : t.propertiesData t.savedProperties with
    | nil => rfl
    | cons c text =>
      rw [hps] at hdata
      exact hdata c List.mem_cons_self
  · intro c hc
    rw [decide_eq_false_iff_not]
    rintro rfl
    exact ha.equals hc

theorem inputMscBalancesString_eq (ht : t.Writable) (ha : LineAddress a) :
    l.inputMscBalancesString (lineText (a, t)) =
      ((Tally.allPostings (a, t)).foldlM restoreTally l >>= fun l => .ok (0, l)) := by
  rw [inputMscBalancesString, lineText_split ha]
  dsimp only
  rw [Tally.propertiesData_split]
  exact inputProperties_eq ht fun _ hp => hp

theorem lineText_plain (ha : LineAddress a) : lineText (a, t) ≠ [] ∧
    (lineText (a, t)).head? ≠ some '#' ∧ (lineText (a, t)).head? ≠ some '!' ∧
    (lineText (a, t)).filter (· ≠ '\r') = lineText (a, t) := by
  have hsep : Separates '\r' := by decide
  refine ⟨by simp [lineText], ?_, ?_, ?_⟩
  · cases a with
    | nil => simp [lineText]
    | cons c a => exact ha.comment
  · cases a with
    | nil => simp [lineText]
    | cons c a => exact ha.hash
  · rw [List.filter_eq_self]
    intro c hc
    rw [decide_eq_true_iff]
    rintro rfl
    rcases List.mem_append.mp hc with hc | hc
    · exact ha.feed hc
    · cases hc with
      | tail _ hc =>
        have hdata := Tally.forall_propertiesData hsep (by decide) (by decide) (by decide) _ hc
        exact of_decide_eq_false hdata rfl

theorem restoreLines_writeMscBalances {hashed fileHash : List Char} {rest : List (List Char)}
    (hwritable : ∀ e ∈ tallies, e.2.Writable) (haddress : ∀ e ∈ tallies, LineAddress e.1) :
    restoreLines (writeMscBalances tallies ++ rest) hashed fileHash l =
      ((tallies.flatMap Tally.allPostings).foldlM restoreTally l >>= fun l =>
        restoreLines rest (hashed ++ (writeMscBalances tallies).flatten) fileHash l) := by
  induction tallies generalizing hashed l with
  | nil => simp [writeMscBalances]
  | cons e tallies ih =>
    obtain ⟨a, t⟩ := e
    obtain ⟨ht, hwritable⟩ := List.forall_mem_cons.mp hwritable
    obtain ⟨ha, haddress⟩ := List.forall_mem_cons.mp haddress
    by_cases hnone : t.savedProperties = []
    · have hline : writeMscBalances ((a, t) :: tallies) = writeMscBalances tallies :=
        List.filterMap_cons_none (if_pos hnone)
      have hpostings : Tally.allPostings (a, t) = [] := by
        rw [Tally.allPostings, hnone, List.flatMap_nil]
      rw [hline, List.flatMap_cons, hpostings, List.nil_append]
      exact ih hwritable haddress
    · have hline : writeMscBalances ((a, t) :: tallies) =
          lineText (a, t) :: writeMscBalances tallies :=
        List.filterMap_cons_some (if_neg hnone)
      obtain ⟨hne, hcomment, hhash, hfeed⟩ := lineText_plain (t := t) ha
      rw [hline, List.cons_append, restoreLines, if_neg (not_or.mpr ⟨hne, hcomment⟩)]
      dsimp only
      rw [hfeed, if_neg hhash, inputMscBalancesString_eq ht ha, bind_assoc, List.flatMap_cons,
        List.foldlM_append, bind_assoc]
      congr 1
      funext l
      rw [ok_bind]
      dsimp only
      rw [if_neg (lt_irrefl _), ih hwritable haddress, List.flatten_cons, List.append_assoc]

end Parsing

section Restoring

variable {x : Posting Account} {xs : List (Posting Account)}

theorem restoreTally_eq (hx : 0 ≤ x.amount ∧ x.account.ttype ∈ Tally.savedTypes)
    (hl : 0 ≤ l.money x.account.owner x.account.property x.account.ttype)
    (hfit : l.money x.account.owner x.account.property x.account.ttype + x.amount ≤ int64Max) :
    ∃ l', l.restoreTally x = .ok l' ∧ ∀ a p t, l'.money a p t =
      l.money a p t + if x.account = ⟨a, p, t⟩ then x.amount else 0 := by
  by_cases hzero : x.amount = 0
  · refine ⟨l, if_neg (not_not.mpr hzero), ?_⟩
    intro a p t
    rw [hzero, ite_self, add_zero]
  · have haccepts : l.Accepts x.account.owner x.account.property x.amount x.account.ttype := by
      have hmin : int64Min ≤ 0 := by decide
      have hin : InInt64 (l.money x.account.owner x.account.property x.account.ttype) :=
        ⟨hmin.trans hl, by omega⟩
      have hsum := add_nonneg hl hx.1
      refine ⟨?_, hzero, (isOverflow_eq_false hin).mpr ⟨hmin.trans hsum, hfit⟩, .inr hsum⟩
      intro hcount
      rw [hcount] at hx
      exact absurd hx.2 (by decide)
    rcases l.updateTallyMap_cases x.account.owner x.account.property x.amount x.account.ttype with
      ⟨⟨-, hneg, -⟩, -⟩ | ⟨-, l', ⟨hrefused, -⟩ | ⟨-, hl', hposted⟩⟩
    · omega
    · exact absurd haccepts hrefused
    · refine ⟨l', ?_, ?_⟩
      · rw [restoreTally, if_pos hzero, hl']
      · intro a p t
        rw [hposted.money_eq, Posting.net_cons, Posting.net_nil, add_zero]

theorem restoreTallies_eq (hxs : ∀ x ∈ xs, 0 ≤ x.amount ∧ x.account.ttype ∈ Tally.savedTypes)
    (hl : ∀ a p t, 0 ≤ l.money a p t)
    (hfit : ∀ a p t, l.money a p t + Posting.net (· = ⟨a, p, t⟩) xs ≤ int64Max) :
    ∃ l', xs.foldlM restoreTally l = .ok l' ∧ ∀ a p t, l'.money a p t =
      l.money a p t + Posting.net (· = ⟨a, p, t⟩) xs := by
  induction xs generalizing l with
  | nil => exact ⟨l, rfl, fun a p t => (add_zero _).symm⟩
  | cons x xs ih =>
    obtain ⟨hx, hxs⟩ := List.forall_mem_cons.mp hxs
    have hrest : ∀ a p t, 0 ≤ Posting.net (· = (⟨a, p, t⟩ : Account)) xs := fun a p t =>
      Posting.net_nonneg fun y hy _ => (hxs y hy).1
    obtain ⟨m, hm, hmoney⟩ := restoreTally_eq hx (hl _ _ _) (by
      have hx' := hfit x.account.owner x.account.property x.account.ttype
      have hnonneg := hrest x.account.owner x.account.property x.account.ttype
      rw [Posting.net_cons, if_pos rfl] at hx'
      omega)
    have hadd : ∀ a p t, m.money a p t + Posting.net (· = ⟨a, p, t⟩) xs =
        l.money a p t + Posting.net (· = ⟨a, p, t⟩) (x :: xs) := by
      intro a p t
      rw [hmoney, Posting.net_cons, add_assoc]
    obtain ⟨l', hl', hmoney'⟩ := ih hxs
      (by
        intro a p t
        rw [hmoney]
        have h := hl a p t
        split_ifs <;> omega)
      (by
        intro a p t
        rw [hadd]
        exact hfit a p t)
    refine ⟨l', ?_, ?_⟩
    · rw [List.foldlM_cons, hm, ok_bind]
      exact hl'
    · intro a p t
      rw [hmoney', hadd]

end Restoring

end Ledger

end TradeLayer
