import TradeLayer.StoReceivers

namespace TradeLayer
open Library

/-- The receivers, with the addresses of the ledger in the order of an unsorted map. -/
def receiversFrom (entries : List (Address × Tally)) (sender : Address) (property : PropertyId)
    (amount : Int) : Except Abort OwnerAddrType := do
  let (totalTokens, ownerAddrSet) ← collectOwners sender property entries 0 ∅
  splitAmount amount totalTokens ownerAddrSet.toList.reverse 0 ∅

namespace OwnerAddrType

variable {receivers : OwnerAddrType} {a b : Address} {n : Int}

def received (receivers : OwnerAddrType) (a : Address) : Int :=
  receivers.sum fun r => if r.2 = a then r.1 else 0

theorem received_eq_zero (h : ∀ r ∈ receivers, r.2 ≠ a) : receivers.received a = 0 := by
  apply List.sum_eq_zero
  intro n hn
  obtain ⟨r, hr, rfl⟩ := List.mem_map.mp hn
  exact if_neg (h r hr)

theorem received_insert (h : ∀ r ∈ receivers, r.2 ≠ b) :
    received (receivers.insert (n, b)) a = (if b = a then n else 0) + receivers.received a := by
  rw [received, Keyed.sum_insert (Keyed.find?_eq_none.mpr (Shares.key_ne h)), received]

theorem le_received (hpos : ∀ r ∈ receivers, 0 < r.1) {r : Int × Address} (hr : r ∈ receivers) :
    r.1 ≤ receivers.received r.2 := by
  have hnonneg : ∀ x ∈ receivers, 0 ≤ if x.2 = r.2 then x.1 else 0 := by
    intro x hx
    split_ifs
    · exact (hpos x hx).le
    · exact le_rfl
  have hle := Keyed.le_sum hnonneg hr
  rwa [if_pos rfl] at hle

theorem received_nonneg (hpos : ∀ r ∈ receivers, 0 < r.1) : 0 ≤ receivers.received a := by
  apply Keyed.sum_nonneg
  intro r hr
  split_ifs
  · exact (hpos r hr).le
  · exact le_rfl

end OwnerAddrType

/-- The part of an amount that is due for some of the tokens, rounded up. -/
def dueShare (amount total tokens : Int) : Int := ⌈((tokens * amount : Int) : ℚ) / total⌉

section Split

variable {amount total sent tokens tokens' : Int} {owners : List (Int × Address)}
variable {acc receivers : OwnerAddrType}

theorem dueShare_mono (hamount : 0 ≤ amount) (htotal : 0 < total) (h : tokens' ≤ tokens) :
    dueShare amount total tokens' ≤ dueShare amount total tokens := by
  have htotal' : (0 : ℚ) ≤ total := by exact_mod_cast htotal.le
  apply Int.ceil_le_ceil
  apply div_le_div_of_nonneg_right _ htotal'
  exact_mod_cast mul_le_mul_of_nonneg_right h hamount

theorem dueShare_nonneg (hamount : 0 ≤ amount) (htotal : 0 < total) (h : 0 ≤ tokens) :
    0 ≤ dueShare amount total tokens := by
  have hmono := dueShare_mono hamount htotal h
  simpa [dueShare] using hmono

/-- What each owner on the way receives: no more than is left and no more than its share, and no
less than the owners after it. -/
structure Receipts (amount total : Int) (owners : List (Int × Address)) (sent : Int)
    (acc receivers : OwnerAddrType) : Prop where
  frame : ∀ a ∉ owners.map Prod.snd, receivers.received a = acc.received a
  left : ∀ r ∈ owners, receivers.received r.2 ≤ amount - sent
  share : ∀ r ∈ owners, receivers.received r.2 ≤ dueShare amount total r.1
  descends : owners.Pairwise fun r r' => receivers.received r'.2 ≤ receivers.received r.2

theorem Receipts.stop (howners : Shares owners) (hnew : ∀ r ∈ acc, r.2 ∉ owners.map Prod.snd)
    (hamount : 0 ≤ amount) (htotal : 0 < total) (hsent : sent ≤ amount) :
    Receipts amount total owners sent acc acc := by
  have hzero : ∀ r ∈ owners, acc.received r.2 = 0 := by
    intro r hr
    apply OwnerAddrType.received_eq_zero
    intro x hx he
    exact hnew x hx (he ▸ List.mem_map_of_mem hr)
  refine ⟨fun _ _ => rfl, ?_, ?_, ?_⟩
  · intro r hr
    rw [hzero r hr]
    omega
  · intro r hr
    rw [hzero r hr]
    exact dueShare_nonneg hamount htotal (howners.pos r hr).le
  · rw [List.pairwise_iff_forall_sublist]
    intro r r' hsub
    rw [hzero r (hsub.subset (by simp)), hzero r' (hsub.subset (by simp))]

theorem Receipts.pay {a : Address} {n : Int}
    (hn : n = min (amount - sent) (dueShare amount total tokens))
    (ha : a ∉ owners.map Prod.snd) (hacc : ∀ r ∈ acc, r.2 ≠ a)
    (hamount : 0 ≤ amount) (htotal : 0 < total) (hpos : 0 < n)
    (hsorted : ∀ r ∈ owners, r.1 ≤ tokens)
    (h : Receipts amount total owners (sent + n) (acc.insert (n, a)) receivers) :
    Receipts amount total ((tokens, a) :: owners) sent acc receivers := by
  have hself : receivers.received a = n := by
    rw [h.frame a ha, OwnerAddrType.received_insert hacc, if_pos rfl,
      OwnerAddrType.received_eq_zero hacc, add_zero]
  constructor
  case frame =>
    intro b hb
    rw [List.map_cons, List.mem_cons, not_or] at hb
    rw [h.frame b hb.2, OwnerAddrType.received_insert hacc, if_neg (Ne.symm hb.1), zero_add]
  case left =>
    rw [List.forall_mem_cons, hself]
    refine ⟨hn.le.trans (min_le_left _ _), fun r hr => ?_⟩
    have hleft := h.left r hr
    omega
  case share =>
    rw [List.forall_mem_cons, hself]
    exact ⟨hn.le.trans (min_le_right _ _), h.share⟩
  case descends =>
    apply List.pairwise_cons.mpr
    refine ⟨?_, h.descends⟩
    intro r hr
    -- an owner that gets all that is left leaves nothing, the others get their own share
    have hleft := h.left r hr
    have hshare := (h.share r hr).trans (dueShare_mono hamount htotal (hsorted r hr))
    rw [hself]
    omega

theorem receipts_of_splitAmount (howners : Shares owners)
    (hsorted : owners.Pairwise fun r r' => r'.1 ≤ r.1)
    (hnew : ∀ r ∈ acc, r.2 ∉ owners.map Prod.snd) (hamount : 0 ≤ amount) (htotal : 0 < total)
    (hsent : sent ≤ amount) (h : splitAmount amount total owners sent acc = .ok receivers) :
    Receipts amount total owners sent acc receivers := by
  induction owners generalizing sent acc with
  | nil =>
    cases h
    exact .stop howners hnew hamount htotal hsent
  | cons owner owners ih =>
    obtain ⟨tokens, a⟩ := owner
    obtain ⟨hfirst, htail⟩ := List.pairwise_cons.mp hsorted
    have hnodup := howners.nodup
    rw [List.map_cons, List.nodup_cons] at hnodup
    have hrest : Shares owners :=
      ⟨fun r hr => howners.pos r (List.mem_cons_of_mem _ hr), hnodup.2⟩
    have hold : ∀ r ∈ acc, r.2 ≠ a ∧ r.2 ∉ owners.map Prod.snd := by
      intro r hr
      have hr' := hnew r hr
      rwa [List.map_cons, List.mem_cons, not_or] at hr'
    simp only [splitAmount, bind_eq_ok, convertTo256_eq_ok] at h
    obtain ⟨owns, rfl, amount, rfl, total, rfl, piece, hpiece, should, hshould, h⟩ := h
    obtain ⟨rfl, -⟩ := convertTo64_eq_ok.mp hshould
    have hdue : dueShare amount total owns = piece := by
      rw [← ceil_of_divideAndRoundUp hpiece (by exact_mod_cast htotal), dueShare]
      simp
    split_ifs at h with hpos
    · refine .pay (by rw [hdue]) hnodup.1 (fun r hr => (hold r hr).1) hamount htotal hpos hfirst
        (ih hrest htail ?_ (by omega) h)
      intro r hr
      rcases Keyed.mem_insert.mp hr with hr | ⟨rfl, -⟩
      · exact (hold r hr).2
      · exact hnodup.1
    · cases h
      exact .stop howners hnew hamount htotal hsent

end Split

namespace Ledger

variable {l : Ledger} {sender a b : Address} {p : PropertyId} {amount : Int}
variable {owners receivers : OwnerAddrType} {r : Int × Address}

def owned (l : Ledger) (a : Address) (p : PropertyId) : Int := (l.tally a).holding p

theorem owns_iff : Owns sender p l.mpTallyMap.toList r ↔
    r.2 ≠ sender ∧ 0 < r.1 ∧ r.1 = l.owned r.2 p := by
  have htally : ∀ e ∈ l.mpTallyMap.toList, l.tally e.1 = e.2 := by
    intro e he
    rw [tally, OrderedMap.get?_eq_some.mpr he, Option.getD_some]
  constructor
  · rintro ⟨e, he, hsender, hpos, rfl⟩
    exact ⟨hsender, hpos, by rw [owned, htally e he]⟩
  · rintro ⟨hsender, hpos, hr⟩
    cases hget : l.mpTallyMap.get? r.2 with
    | none =>
      have hzero : (∅ : Tally).holding p = 0 := by
        simp [Tally.holding, Tally.getMoney, circulatingTallies]
      rw [hr, owned, tally, hget, Option.getD_none, hzero] at hpos
      exact absurd hpos (lt_irrefl 0)
    | some x =>
      have hx : r.1 = x.holding p := by rw [hr, owned, tally, hget, Option.getD_some]
      exact ⟨(r.2, x), OrderedMap.get?_eq_some.mp hget, hsender, hx ▸ hpos, Prod.ext hx rfl⟩

/-- The whole of an amount goes to the holders of a property other than the sender, to nobody
more than its rounded share, and never less to a larger holder. -/
structure Distributes (l : Ledger) (sender : Address) (p : PropertyId) (amount : Int)
    (receivers : OwnerAddrType) : Prop where
  nodup : (receivers.toList.map Prod.snd).Nodup
  holders : ∀ r ∈ receivers, r.2 ≠ sender ∧ 0 < l.owned r.2 p
  pos : ∀ r ∈ receivers, 0 < r.1
  total : receivers.total = amount
  atMost : ∀ r ∈ receivers,
    r.1 ≤ dueShare amount (holdings sender p l.mpTallyMap.toList) (l.owned r.2 p)
  fair : ∀ a b, a ≠ sender → b ≠ sender → l.owned b p < l.owned a p →
    receivers.received b ≤ receivers.received a

theorem owners_descend : owners.toList.reverse.Pairwise fun r r' => r'.1 ≤ r.1 := by
  rw [List.pairwise_reverse]
  refine owners.sorted.imp fun hlt => ?_
  rcases Prod.Lex.toLex_lt_toLex.mp hlt with hless | ⟨heq, -⟩
  · exact hless.le
  · exact heq.le

theorem distributes_of_splitAmount (howners : Shares owners.toList)
    (hmem : ∀ r, r ∈ owners ↔ Owns sender p l.mpTallyMap.toList r)
    (htotal : owners.total = holdings sender p l.mpTallyMap.toList) (hpos : 0 < owners.total)
    (hamount : 0 ≤ amount) (hreceivers : Shares receivers.toList)
    (hsum : receivers.total = amount)
    (h : splitAmount amount owners.total owners.toList.reverse 0 ∅ = .ok receivers) :
    l.Distributes sender p amount receivers := by
  have hreceipts := receipts_of_splitAmount howners.reverse owners_descend (by simp) hamount hpos
    hamount h
  have howner : ∀ r ∈ receivers, ∃ o ∈ owners.toList.reverse, o.2 = r.2 := by
    intro r hr
    by_contra hnone
    have hframe := hreceipts.frame r.2 fun hin => hnone (List.mem_map.mp hin)
    have hle := OwnerAddrType.le_received hreceivers.pos hr
    rw [hframe, OwnerAddrType.received_eq_zero (by simp)] at hle
    exact absurd (hreceivers.pos r hr) hle.not_gt
  have hholds : ∀ o ∈ owners.toList.reverse, o.2 ≠ sender ∧ 0 < o.1 ∧ o.1 = l.owned o.2 p :=
    fun o ho => owns_iff.mp ((hmem o).mp (List.mem_reverse.mp ho))
  constructor
  case nodup => exact hreceivers.nodup
  case pos => exact hreceivers.pos
  case total => exact hsum
  case holders =>
    intro r hr
    obtain ⟨o, ho, hor⟩ := howner r hr
    obtain ⟨hsender, hpos, heq⟩ := hholds o ho
    exact ⟨hor ▸ hsender, hor ▸ heq ▸ hpos⟩
  case atMost =>
    intro r hr
    obtain ⟨o, ho, hor⟩ := howner r hr
    have hshare := hreceipts.share o ho
    rw [(hholds o ho).2.2, hor, htotal] at hshare
    exact (OwnerAddrType.le_received hreceivers.pos hr).trans hshare
  case fair =>
    intro a b ha hb hlt
    by_cases hzero : 0 < l.owned b p
    · have hoa : (l.owned a p, a) ∈ owners.toList.reverse :=
        List.mem_reverse.mpr ((hmem _).mpr (owns_iff.mpr ⟨ha, hzero.trans hlt, rfl⟩))
      have hob : (l.owned b p, b) ∈ owners.toList.reverse :=
        List.mem_reverse.mpr ((hmem _).mpr (owns_iff.mpr ⟨hb, hzero, rfl⟩))
      have hordered : ∀ ⦃x⦄, x ∈ owners.toList.reverse → ∀ ⦃y⦄, y ∈ owners.toList.reverse →
          (y.1 < x.1 → receivers.received y.2 ≤ receivers.received x.2) := by
        apply List.Pairwise.forall_of_forall_of_flip
        · exact fun x _ hx => absurd hx (lt_irrefl _)
        · apply hreceipts.descends.imp
          intro x y hle _
          exact hle
        · exact owners_descend.imp fun hle hless => absurd hless hle.not_gt
      exact hordered hoa hob hlt
    · have hnone : ∀ r ∈ receivers, r.2 ≠ b := by
        rintro r hr rfl
        obtain ⟨o, ho, hor⟩ := howner r hr
        obtain ⟨-, hpos, heq⟩ := hholds o ho
        exact hzero (hor ▸ heq ▸ hpos)
      rw [OwnerAddrType.received_eq_zero hnone]
      exact OwnerAddrType.received_nonneg hreceivers.pos

end Ledger

namespace NodeState

variable {s : NodeState} {env : Environment} {sender : Address} {p : PropertyId} {amount : Int}
variable {entries : List (Address × Tally)} {receivers : OwnerAddrType}

def stoExecuteUnasserted (s : NodeState) (env : Environment) (tx : CMPTransaction)
    (receivers : OwnerAddrType) : Except Abort (Int × NodeState) := do
  let fee := stoTransferFee tx receivers
  let s ← s.assertTally tx.sender (stoFeeProperty tx) (-fee) .balance
  let s ← s.stoCreditFee env tx fee
  let s ← s.assertTallies (stoPostings tx receivers)
  let s ← s.stoNotify env tx
  return (0, s)

theorem stoExecute_of_total {tx : CMPTransaction} (h : receivers.total = asInt64 tx.nValue) :
    s.stoExecute env tx receivers = s.stoExecuteUnasserted env tx receivers := by
  simp [stoExecute, stoExecuteUnasserted, h]

/-- The receivers are found without an abort and in every order of the map the same. There are
none if and only if nobody else holds the property; otherwise the amount is distributed, so that
the last assertion of the execution holds. -/
theorem receiversFrom_distributes (hentries : entries.Perm s.ledger.mpTallyMap.toList)
    (hl : s.ledger.Nonneg) (hcap : s.ledger.circulation p ≤ int64Max) (hpos : 1 ≤ amount)
    (hmax : amount ≤ int64Max) :
    ∃ receivers, receiversFrom entries sender p amount = .ok receivers ∧
      stoGetReceivers s.ledger sender p amount = .ok receivers ∧
      (receivers = ∅ ↔ ¬ s.ledger.HasHolder sender p) ∧
      (s.ledger.HasHolder sender p → s.ledger.Distributes sender p amount receivers ∧
        ∀ env tx, asInt64 tx.nValue = amount →
          s.stoExecute env tx receivers = s.stoExecuteUnasserted env tx receivers) := by
  obtain ⟨owners, hshares, howners, htotal, hmem, hrun⟩ := exists_owners (.refl _) hl hcap sender
  obtain ⟨owners', -, -, -, hmem', hrun'⟩ := exists_owners hentries hl hcap sender
  obtain rfl : owners' = owners := Keyed.ext_mem fun r => (hmem' r).trans (hmem r).symm
  rw [stoGetReceivers, receiversFrom, hrun, hrun', ok_bind]
  dsimp only
  by_cases hholder : s.ledger.HasHolder sender p
  · have htokens := howners.mpr hholder
    have hamount : 0 ≤ amount := zero_le_one.trans hpos
    obtain ⟨receivers, hreceivers, hsum, hsplit⟩ := hshares.exists_receivers htokens hamount hmax
    refine ⟨receivers, hsplit, hsplit, ?_, fun _ => ⟨?_, ?_⟩⟩
    · refine iff_of_false ?_ (not_not.mpr hholder)
      rintro rfl
      rw [OwnerAddrType.total, Keyed.sum_empty] at hsum
      omega
    · exact Ledger.distributes_of_splitAmount hshares hmem htotal htokens hamount hreceivers hsum
        hsplit
    · intro env tx htx
      exact stoExecute_of_total (hsum.trans htx.symm)
  · rw [hshares.toList_eq_nil (howners.not.mpr hholder)]
    exact ⟨∅, rfl, rfl, iff_of_true rfl hholder, fun h => absurd h hholder⟩

def sampleOwners : NodeState :=
  { oneManaged .test ['i'] with
    ledger := .ofPostings [⟨⟨['s'], 3, .balance⟩, 10⟩, ⟨⟨['a'], 3, .balance⟩, 2⟩,
      ⟨⟨['b'], 3, .metadexReserve⟩, 1⟩] }

def sampleReceivers : OwnerAddrType := .insert (.insert ∅ (1, ['b'])) (4, ['a'])

theorem distributes_of_sampleOwners :
    receiversFrom sampleOwners.ledger.mpTallyMap.toList.reverse ['s'] 3 5 =
        .ok sampleReceivers ∧
      sampleOwners.ledger.Distributes ['s'] 3 5 sampleReceivers := by
  have hrun : receiversFrom sampleOwners.ledger.mpTallyMap.toList.reverse ['s'] 3 5 =
      .ok sampleReceivers := by decide +kernel
  have hl : sampleOwners.ledger.Nonneg := Ledger.inRange_ofPostings.nonneg
  have hcap : sampleOwners.ledger.circulation 3 ≤ int64Max := by decide +kernel
  have hholder : sampleOwners.ledger.HasHolder ['s'] 3 :=
    ⟨['a'], by decide, .balance, by decide, by decide +kernel⟩
  have hpos : (1 : Int) ≤ 5 := by decide
  obtain ⟨receivers, hreceivers, -, -, hdistributes⟩ :=
    receiversFrom_distributes (List.reverse_perm _) hl hcap hpos (by decide)
  rw [hrun] at hreceivers
  cases Except.ok.inj hreceivers
  exact ⟨hrun, (hdistributes hholder).1⟩

end NodeState

end TradeLayer
