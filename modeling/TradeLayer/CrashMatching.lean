import TradeLayer.Crash
import TradeLayer.FreezeContracts

namespace TradeLayer
open Library

namespace NodeState

variable {s : NodeState} {pnew pold : ContractDex} {n : Int} {c : PropertyId}

theorem covers_positionPostings {l : Ledger} {who : Address}
    {reduced opened : TallyType} (hside : Opposite reduced opened) (hl : s.ledger.InRange)
    (hheld : l.money who c reduced = s.ledger.money who c reduced) (hn : 0 < n)
    (hmax : s.ledger.money who c opened + (n - netted l who c n reduced) ≤ int64Max) :
    s.ledger.Covers (positionPostings l who c n reduced opened) ∧
      Ledger.Plain (positionPostings l who c n reduced opened) := by
  have hbalance : l.getTokenBalance who c reduced = s.ledger.money who c reduced := by
    rw [← hheld]
    rcases hside with ⟨rfl, -⟩ | ⟨rfl, -⟩ <;> rfl
  have hreduced : reduced ≠ .pending ∧ reduced ≠ .tallyTypeCount ∧ reduced ≠ .balance := by
    rcases hside with ⟨rfl, -⟩ | ⟨rfl, -⟩ <;> exact ⟨nofun, nofun, nofun⟩
  have hopened : opened ≠ .pending ∧ opened ≠ .tallyTypeCount ∧ opened ≠ .balance ∧
      reduced ≠ opened := by
    rcases hside with ⟨rfl, rfl⟩ | ⟨rfl, rfl⟩ <;> exact ⟨nofun, nofun, nofun, nofun⟩
  obtain ⟨hr, hrmax⟩ := hl who c reduced hreduced.1
  obtain ⟨ho, homax⟩ := hl who c opened hopened.1
  rw [netted, hheld] at hmax
  have hother : (⟨who, c, reduced⟩ : Account) ≠ ⟨who, c, opened⟩ :=
    fun heq => hopened.2.2.2 (congrArg Account.ttype heq)
  rw [positionPostings, hbalance]
  split_ifs with hne hle
  · refine ⟨Ledger.covers_of_reserves (List.pairwise_singleton _ _) ?_, ?_⟩
    · refine List.forall_mem_singleton.mpr ⟨hreduced.2.2, ?_⟩
      dsimp only [Ledger.amountAt]
      omega
    · exact List.forall_mem_singleton.mpr ⟨hreduced.1, hreduced.2.1⟩
  · refine ⟨Ledger.covers_of_reserves (List.pairwise_pair.mpr hother) ?_, ?_⟩
    · refine List.forall_mem_cons.mpr ⟨⟨hreduced.2.2, ?_⟩,
        List.forall_mem_singleton.mpr ⟨hopened.2.2.1, ?_⟩⟩
      · dsimp only [Ledger.amountAt]
        omega
      · dsimp only [Ledger.amountAt]
        omega
    · exact List.forall_mem_cons.mpr ⟨⟨hreduced.1, hreduced.2.1⟩,
        List.forall_mem_singleton.mpr ⟨hopened.1, hopened.2.1⟩⟩
  · refine ⟨Ledger.covers_of_reserves (List.pairwise_singleton _ _) ?_, ?_⟩
    · refine List.forall_mem_singleton.mpr ⟨hopened.2.2.1, ?_⟩
      dsimp only [Ledger.amountAt]
      omega
    · exact List.forall_mem_singleton.mpr ⟨hopened.1, hopened.2.1⟩

theorem crashFree_matchPostings (hl : s.ledger.InRange)
    (hn : 0 < pnew.nCouldBuy pold)
    (hseller : pold.addr ≠ pnew.addr →
      s.ledger.money (pnew.seller pold).addr pold.property .negativeBalance +
        (pnew.nCouldBuy pold - sellerNetted s.ledger pnew pold) ≤ int64Max)
    (hbuyer : pold.addr ≠ pnew.addr →
      s.ledger.money (pnew.buyer pold).addr pold.property .positiveBalance +
        (pnew.nCouldBuy pold - buyerNetted s.ledger pnew pold) ≤ int64Max) :
    CrashFree (s.assertTallies (matchPostings s.ledger pnew pold)) := by
  rw [matchPostings]
  split_ifs with haddr
  · have hne := ContractDex.seller_ne_buyer haddr
    obtain ⟨hcov, hplain⟩ := covers_positionPostings (.inl ⟨rfl, rfl⟩) hl rfl hn (hseller haddr)
    rw [assertTallies_append]
    apply Avoids.bind ((crashFree_assertTallies hl hplain).mpr hcov)
    intro m hm
    have hp := (posted_of_assertTallies hm).2
    have hsame : ∀ t, m.ledger.money (pnew.buyer pold).addr pold.property t =
        s.ledger.money (pnew.buyer pold).addr pold.property t := by
      intro t
      have hheld := (hl (pnew.seller pold).addr pold.property .positiveBalance
        (by decide)).1
      rw [hp.money_eq, net_positionPostings (.inl ⟨rfl, rfl⟩) hn.le hheld]
      simp only [Account.mk.injEq, hne, false_and, if_false, add_zero]
    have hml := inRange_of_assertTallies hl hm
    obtain ⟨hcov', hplain'⟩ := covers_positionPostings (.inr ⟨rfl, rfl⟩) hml (hsame _).symm hn
      (by rw [hsame]; exact hbuyer haddr)
    exact (crashFree_assertTallies hml hplain').mpr hcov'
  · exact .ok

def Sums64 (xs : List Int) : Prop :=
  ∀ done, done <+: xs → InInt64 done.sum

theorem sum64_eq_ok {xs : List Int} {d : Int} : sum64 xs = .ok d ↔ Sums64 xs ∧ d = xs.sum := by
  have hfold : ∀ acc, InInt64 acc → (xs.foldlM (fun sum x => checked64 (sum + x)) acc = .ok d ↔
      (∀ done, done <+: xs → InInt64 (acc + done.sum)) ∧ d = acc + xs.sum) := by
    induction xs with
    | nil =>
      intro acc hacc
      simp [hacc, eq_comm]
    | cons x xs ih =>
      intro acc hacc
      rw [List.foldlM_cons, bind_eq_ok]
      constructor
      · rintro ⟨sum, hsum, h⟩
        obtain ⟨rfl, hin⟩ := checked64_eq_ok.mp hsum
        obtain ⟨hdone, rfl⟩ := (ih _ hin).mp h
        refine ⟨fun done hprefix => ?_, by rw [List.sum_cons, add_assoc]⟩
        rcases List.prefix_cons_iff.mp hprefix with rfl | ⟨tail, rfl, htail⟩
        · simpa using hacc
        · rw [List.sum_cons, ← add_assoc]
          exact hdone tail htail
      · rintro ⟨hdone, rfl⟩
        have hin : InInt64 (acc + x) := by
          have hfirst := hdone [x] (List.prefix_cons_iff.mpr (.inr ⟨[], rfl, List.nil_prefix⟩))
          simpa using hfirst
        refine ⟨acc + x, checked64_eq_ok.mpr ⟨rfl, hin⟩, (ih _ hin).mpr ⟨?_, ?_⟩⟩
        · intro done hprefix
          have hnext := hdone (x :: done) (List.cons_prefix_cons.mpr ⟨rfl, hprefix⟩)
          rwa [List.sum_cons, ← add_assoc] at hnext
        · rw [List.sum_cons, add_assoc]
  rw [sum64, hfold 0 (by decide)]
  simp only [zero_add, Sums64]

theorem crashFree_sum64 {xs : List Int} : CrashFree (sum64 xs) :=
  .foldlM fun _ _ _ => crashFree_checked64

end NodeState

end TradeLayer
