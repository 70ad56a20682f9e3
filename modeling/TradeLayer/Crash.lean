import TradeLayer.ContractPostings

namespace TradeLayer
open Library

/-- The ways to stop other than behaviour that the language leaves undefined. -/
def Abort.IsCrash : Abort → Prop
  | .undefined => False
  | _ => True

/-- A computation that fails no assertion, overruns no range and divides by no zero. -/
abbrev CrashFree {α : Type} (x : Except Abort α) : Prop := Avoids Abort.IsCrash x

theorem not_crashFree_error {α : Type} {e : Abort} (h : e.IsCrash) :
    ¬ CrashFree (.error e : Except Abort α) :=
  fun hx => hx e rfl h

section Arithmetic

variable {x : Int}

theorem crashFree_checked64 : CrashFree (checked64 x) :=
  .ite (fun _ => .ok) fun _ => .error not_false

end Arithmetic

namespace Ledger

variable {l l' : Ledger} {x y : Posting Account} {ps qs done : List (Posting Account)}
variable {n : Int}

def amountAt (l : Ledger) (k : Account) : Int := l.money k.owner k.property k.ttype

structure Fits (l : Ledger) (done : List (Posting Account)) (x : Posting Account) : Prop where
  amount_ne_zero : x.amount ≠ 0
  unfrozen : ¬ l.DebitsFrozen x.account.owner x.account.property x.amount x.account.ttype
  nonneg : 0 ≤ l.amountAt x.account + Posting.net (· = x.account) done + x.amount
  le_max : l.amountAt x.account + Posting.net (· = x.account) done + x.amount ≤ int64Max

def Covers (l : Ledger) (ps : List (Posting Account)) : Prop :=
  ∀ done x rest, ps = done ++ x :: rest → l.Fits done x

def Plain (ps : List (Posting Account)) : Prop :=
  ∀ x ∈ ps, x.account.ttype ≠ .pending ∧ x.account.ttype ≠ .tallyTypeCount

theorem plain_transfer {k k' : Account} (hk : k.ttype ≠ .pending ∧ k.ttype ≠ .tallyTypeCount)
    (hk' : k'.ttype ≠ .pending ∧ k'.ttype ≠ .tallyTypeCount) : Plain (Posting.transfer k k' n) := by
  intro x hx
  simp only [Posting.transfer, List.mem_cons, List.not_mem_nil, or_false] at hx
  rcases hx with rfl | rfl
  · exact hk
  · exact hk'

theorem covers_nil : l.Covers [] := by
  intro done x rest h
  simp at h

theorem fits_cons (h : l.Posted [x] l') :
    l.Fits (x :: done) y ↔ l'.Fits done y := by
  have hmoney : l'.amountAt y.account + Posting.net (· = y.account) done + y.amount =
      l.amountAt y.account + Posting.net (· = y.account) (x :: done) + y.amount := by
    rw [amountAt, h.money_eq]
    simp only [Posting.net_cons, Posting.net_nil, amountAt]
    ring
  constructor
  · intro hf
    refine ⟨hf.amount_ne_zero, ?_, hmoney ▸ hf.nonneg, hmoney ▸ hf.le_max⟩
    rw [DebitsFrozen, h.freeze_eq]
    exact hf.unfrozen
  · intro hf
    refine ⟨hf.amount_ne_zero, ?_, hmoney ▸ hf.nonneg, hmoney ▸ hf.le_max⟩
    have hd := hf.unfrozen
    rwa [DebitsFrozen, h.freeze_eq] at hd

theorem covers_cons (h : l.Posted [x] l') : l.Covers (x :: ps) ↔ l.Fits [] x ∧ l'.Covers ps := by
  rw [Covers, forall_split_cons]
  simp only [fits_cons h, Covers]

theorem accepts_iff (hl : l.InRange) (hp : x.account.ttype ≠ .pending)
    (hc : x.account.ttype ≠ .tallyTypeCount) :
    l.Accepts x.account.owner x.account.property x.amount x.account.ttype ↔
      x.amount ≠ 0 ∧ 0 ≤ l.amountAt x.account + x.amount ∧
        l.amountAt x.account + x.amount ≤ int64Max := by
  have hin : InInt64 (l.amountAt x.account) := hl.inInt64 hp
  have hfits := isOverflow_eq_false (b := x.amount) hin
  constructor
  · rintro ⟨-, hne, hof, hn | hn⟩
    · exact absurd hn hp
    · exact ⟨hne, hn, (hfits.mp hof).2⟩
  · rintro ⟨hne, hn, hle⟩
    refine ⟨hc, hne, hfits.mpr ⟨le_trans (by decide) hn, hle⟩, .inr hn⟩

theorem fits_nil_iff (hl : l.InRange) (hp : x.account.ttype ≠ .pending)
    (hc : x.account.ttype ≠ .tallyTypeCount) : l.Fits [] x ↔
      l.Accepts x.account.owner x.account.property x.amount x.account.ttype ∧
        ¬ l.DebitsFrozen x.account.owner x.account.property x.amount x.account.ttype := by
  rw [accepts_iff hl hp hc]
  constructor
  · intro hf
    have hn := hf.nonneg
    have hm := hf.le_max
    rw [Posting.net_nil, add_zero] at hn hm
    exact ⟨⟨hf.amount_ne_zero, hn, hm⟩, hf.unfrozen⟩
  · rintro ⟨⟨hne, hn, hm⟩, hd⟩
    refine ⟨hne, hd, ?_, ?_⟩
    · rwa [Posting.net_nil, add_zero]
    · rwa [Posting.net_nil, add_zero]

theorem Fits.after (hother : ∀ y ∈ ps, y.account ≠ x.account) (h : l.Fits done x) :
    l.Fits (ps ++ done) x := by
  have hnet : Posting.net (· = x.account) (ps ++ done) = Posting.net (· = x.account) done := by
    rw [Posting.net_append, Posting.net_eq_zero hother, zero_add]
  refine ⟨h.amount_ne_zero, h.unfrozen, ?_, ?_⟩
  · rw [hnet]
    exact h.nonneg
  · rw [hnet]
    exact h.le_max

theorem fits_of_reserve (ht : x.account.ttype ≠ .balance) (hn : x.amount ≠ 0)
    (hnonneg : 0 ≤ l.amountAt x.account + x.amount)
    (hmax : l.amountAt x.account + x.amount ≤ int64Max) : l.Fits [] x := by
  refine ⟨hn, fun hd => ht hd.1, ?_, ?_⟩
  · rwa [Posting.net_nil, add_zero]
  · rwa [Posting.net_nil, add_zero]

theorem covers_pair (h : l.Fits [] x) (h' : l.Fits [x] y) : l.Covers [x, y] := by
  intro done z rest heq
  match done with
  | [] =>
    cases heq
    exact h
  | [w] =>
    cases heq
    exact h'
  | w :: w' :: done => simp at heq

theorem covers_of_distinct (hd : ps.Pairwise fun x y => x.account ≠ y.account)
    (h : ∀ x ∈ ps, l.Fits [] x) : l.Covers ps := by
  rintro done x rest rfl
  have hbefore := (List.pairwise_append.mp hd).2.2
  have hfits := (h x (List.mem_append_right _ List.mem_cons_self)).after fun y hy =>
    hbefore y hy x List.mem_cons_self
  rwa [List.append_nil] at hfits

theorem covers_append (hps : l.Covers ps) (hqs : l.Covers qs)
    (hd : ∀ x ∈ ps, ∀ y ∈ qs, x.account ≠ y.account) : l.Covers (ps ++ qs) := by
  intro done x rest heq
  rcases List.append_eq_append_iff.mp heq with ⟨between, rfl, hrest⟩ | ⟨between, hdone, hrest⟩
  · have hx : x ∈ qs := hrest ▸ List.mem_append_right _ List.mem_cons_self
    exact (hqs between x rest hrest).after fun y hy => hd y hy x hx
  · cases between with
    | nil =>
      rw [List.append_nil] at hdone
      subst hdone
      have hx : x ∈ qs := by
        rw [List.nil_append] at hrest
        exact hrest ▸ List.mem_cons_self
      have hfits := (hqs [] x rest hrest.symm).after fun y hy => hd y hy x hx
      rwa [List.append_nil] at hfits
    | cons z between =>
      cases hrest
      exact hps done x between hdone

theorem covers_of_reserves (hd : ps.Pairwise fun x y => x.account ≠ y.account)
    (h : ∀ x ∈ ps, x.account.ttype ≠ .balance ∧ x.amount ≠ 0 ∧
      0 ≤ l.amountAt x.account + x.amount ∧ l.amountAt x.account + x.amount ≤ int64Max) :
    l.Covers ps := by
  refine covers_of_distinct hd fun x hx => ?_
  obtain ⟨ht, hne, hnonneg, hmax⟩ := h x hx
  exact fits_of_reserve ht hne hnonneg hmax

/-- A transfer goes through where the source holds the amount, is not a frozen balance, and
the target can take it. -/
theorem covers_transfer {k k' : Account} (hl : l.InRange) (hne : k ≠ k') (hn : 0 < n)
    (hk : k.ttype ≠ .pending) (hk' : k'.ttype ≠ .pending) :
    l.Covers (Posting.transfer k k' n) ↔ ¬ l.DebitsFrozen k.owner k.property (-n) k.ttype ∧
      n ≤ l.amountAt k ∧ l.amountAt k' + n ≤ int64Max := by
  have hsource := hl k.owner k.property k.ttype hk
  have htarget := hl k'.owner k'.property k'.ttype hk'
  have hother : Posting.net (· = k') [(⟨k, -n⟩ : Posting Account)] = 0 :=
    Posting.net_eq_zero (List.forall_mem_singleton.mpr hne)
  constructor
  · intro hcov
    have hdebit := hcov [] ⟨k, -n⟩ [⟨k', n⟩] rfl
    have hcredit := hcov [⟨k, -n⟩] ⟨k', n⟩ [] rfl
    have hfunds := hdebit.nonneg
    have hmax := hcredit.le_max
    simp only [Posting.net_nil] at hfunds
    rw [hother, add_zero] at hmax
    exact ⟨hdebit.unfrozen, by omega, hmax⟩
  · rintro ⟨hfree, hfunds, hmax⟩
    rw [amountAt] at hfunds hmax
    apply covers_pair
    · refine ⟨neg_ne_zero.mpr hn.ne', hfree, ?_, ?_⟩
      · simp only [amountAt, Posting.net_nil]
        omega
      · simp only [amountAt, Posting.net_nil]
        omega
    · refine ⟨hn.ne', fun hd => absurd hd.2.1 hn.not_gt, ?_, ?_⟩
      · simp only [amountAt, hother]
        omega
      · simp only [amountAt, hother]
        omega

theorem covers_transfer_self {k : Account} (hl : l.InRange) (hn : 0 < n)
    (hk : k.ttype ≠ .pending) (hfree : ¬ l.DebitsFrozen k.owner k.property (-n) k.ttype)
    (hfunds : n ≤ l.amountAt k) : l.Covers (Posting.transfer k k n) := by
  have hrange := hl k.owner k.property k.ttype hk
  rw [amountAt] at hfunds
  apply covers_pair
  · refine ⟨neg_ne_zero.mpr hn.ne', hfree, ?_, ?_⟩
    · simp only [amountAt, Posting.net_nil]
      omega
    · simp only [amountAt, Posting.net_nil]
      omega
  · refine ⟨hn.ne', fun hd => absurd hd.2.1 hn.not_gt, ?_, ?_⟩
    · simp only [amountAt, Posting.net_cons, Posting.net_nil, if_true]
      omega
    · simp only [amountAt, Posting.net_cons, Posting.net_nil, if_true]
      omega

end Ledger

namespace NodeState

variable {s s' : NodeState} {ps qs : List (Posting Account)}
variable {x : Posting Account}

theorem assertTallies_cons : s.assertTallies (x :: ps) =
    s.assertTally x.account.owner x.account.property x.amount x.account.ttype >>=
      fun s => s.assertTallies ps := by
  rw [assertTallies, List.foldlM_cons]
  rfl

theorem assertTallies_append :
    s.assertTallies (ps ++ qs) = s.assertTallies ps >>= fun s => s.assertTallies qs := by
  rw [assertTallies, List.foldlM_append]
  rfl

theorem assertTally_fits (hl : s.ledger.InRange)
    (hp : x.account.ttype ≠ .pending) (hc : x.account.ttype ≠ .tallyTypeCount) :
    s.ledger.Fits [] x ∧ (∃ s', s.ledger.Posted [x] s'.ledger ∧ s'.ledger.InRange ∧
        s.assertTally x.account.owner x.account.property x.amount x.account.ttype = .ok s') ∨
      ¬ s.ledger.Fits [] x ∧ ∃ e : Abort, e.IsCrash ∧
        s.assertTally x.account.owner x.account.property x.amount x.account.ttype = .error e := by
  rw [Ledger.fits_nil_iff hl hp hc]
  rcases Ledger.assertTally_cases s.ledger x.account.owner x.account.property x.amount
    x.account.ttype with ⟨hd, he⟩ | ⟨hd, ha, he⟩ | ⟨hd, ha, l, he⟩
  · refine .inr ⟨fun h => h.2 hd, .addressFrozen x.account.owner x.account.property, trivial, ?_⟩
    rw [assertTally, he, error_bind]
  · refine .inr ⟨fun h => ha h.1, .tallyAssert x.account.owner x.account.property x.amount,
      trivial, ?_⟩
    rw [assertTally, he, error_bind]
  · refine .inl ⟨⟨ha, hd⟩, { s with ledger := l }, ?_, ?_, ?_⟩
    · exact Ledger.posted_of_assertTally he
    · exact hl.of_assertTally he
    · rw [assertTally, he, ok_bind, pure_eq_ok]

theorem assertTallies_covers (hl : s.ledger.InRange) (hps : Ledger.Plain ps) :
    s.ledger.Covers ps ∧ (∃ s', s.assertTallies ps = .ok s' ∧ s'.ledger.InRange) ∨
      ¬ s.ledger.Covers ps ∧ ∃ e : Abort, e.IsCrash ∧ s.assertTallies ps = .error e := by
  induction ps generalizing s with
  | nil => exact .inl ⟨Ledger.covers_nil, s, rfl, hl⟩
  | cons x ps ih =>
    obtain ⟨hx, hps⟩ := List.forall_mem_cons.mp hps
    rw [assertTallies_cons]
    rcases assertTally_fits hl hx.1 hx.2 with ⟨hfits, m, hm, hml, he⟩ | ⟨hfits, e, hcrash, he⟩
    · rw [Ledger.covers_cons hm, he, ok_bind]
      rcases ih hml hps with ⟨hcov, hok⟩ | ⟨hcov, herror⟩
      · exact .inl ⟨⟨hfits, hcov⟩, hok⟩
      · exact .inr ⟨fun h => hcov h.2, herror⟩
    · refine .inr ⟨fun h => hfits (h [] x ps rfl), e, hcrash, ?_⟩
      rw [he, error_bind]

theorem crashFree_assertTallies (hl : s.ledger.InRange) (hps : Ledger.Plain ps) :
    CrashFree (s.assertTallies ps) ↔ s.ledger.Covers ps := by
  rcases assertTallies_covers hl hps with ⟨hcov, m, he, -⟩ | ⟨hcov, e, hcrash, he⟩
  · rw [he]
    exact iff_of_true .ok hcov
  · rw [he]
    exact iff_of_false (not_crashFree_error hcrash) hcov

theorem exists_assertTallies (hl : s.ledger.InRange) (hcovers : s.ledger.Covers ps)
    (hps : Ledger.Plain ps) : ∃ s', s.assertTallies ps = .ok s' := by
  rcases assertTallies_covers hl hps with ⟨-, s', hrun, -⟩ | ⟨hnot, -⟩
  · exact ⟨s', hrun⟩
  · exact absurd hcovers hnot

theorem isCrash_of_assertTallies {e : Abort} (h : s.assertTallies ps = .error e) : e.IsCrash := by
  obtain ⟨x, -, rfl | ⟨rfl, -⟩⟩ := assertTallies_eq_error h
  · trivial
  · trivial

end NodeState

end TradeLayer
