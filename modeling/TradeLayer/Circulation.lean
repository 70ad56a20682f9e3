import TradeLayer.DexMoves
import TradeLayer.MetaDExTrades
import TradeLayer.SendMoves

namespace TradeLayer
open Library

variable {p q : PropertyId} {ps : List (Posting Account)}

def Ledger.circulation (l : Ledger) (p : PropertyId) : Int :=
  (circulatingTallies.map (l.supply p)).sum

theorem net_circulating : Posting.net (Account.Circulating p) ps = (circulatingTallies.map
    fun t => Posting.net (fun k => k.property = p ∧ k.ttype = t) ps).sum := by
  induction ps with
  | nil => rfl
  | cons x ps ih =>
    simp only [Posting.net_cons, ih, circulatingTallies, List.map_cons, List.map_nil, List.sum_cons,
      List.sum_nil, Account.Circulating, List.mem_cons, List.not_mem_nil, or_false]
    by_cases hp : x.account.property = p
    · cases x.account.ttype <;> simp [hp] <;> ring
    · simp [hp]

theorem Ledger.Posted.circulation_eq {l l' : Ledger} (h : l.Posted ps l') :
    l'.circulation p = l.circulation p + Posting.net (Account.Circulating p) ps := by
  rw [net_circulating, circulation, circulation]
  simp only [circulatingTallies, List.map_cons, List.map_nil, List.sum_cons, List.sum_nil,
    h.supply_eq]
  ring

namespace NodeState

variable {s s' m : NodeState} {env : Environment} {block amount : Int}
variable {lost lost' : PropertyId → Int}
variable {receivers : OwnerAddrType}

def circulation (s : NodeState) (p : PropertyId) : Int :=
  s.ledger.circulation p + s.feeCache.getCachedAmount p

/-- A step at a block takes the given amounts of each property out of circulation, where the fee
cache has no younger entry. -/
structure Circulates (block : Int) (lost : PropertyId → Int) (s s' : NodeState) : Prop where
  upTo : s.feeCache.UpTo block → s'.feeCache.UpTo block
  circulation_eq : s.feeCache.UpTo block → ∀ p, s'.circulation p = s.circulation p - lost p

namespace Circulates

theorem refl : Circulates block 0 s s := ⟨id, fun _ _ => by simp⟩

theorem trans (h : Circulates block lost s m) (h' : Circulates block lost' m s') :
    Circulates block (lost + lost') s s' where
  upTo hs := h'.upTo (h.upTo hs)
  circulation_eq hs p := by
    rw [h'.circulation_eq (h.upTo hs), h.circulation_eq hs, Pi.add_apply]
    ring

theorem congr (h : Circulates block lost s s') (heq : ∀ p, lost p = lost' p) :
    Circulates block lost' s s' := by
  rwa [← funext heq]

theorem keep (h : Circulates block lost s m) (h' : Circulates block 0 m s') :
    Circulates block lost s s' :=
  (h.trans h').congr fun _ => add_zero _

theorem of_posted (h : s.ledger.Posted ps s'.ledger) (hcache : s'.feeCache = s.feeCache) :
    Circulates block (fun p => -Posting.net (Account.Circulating p) ps) s s' where
  upTo hs := hcache ▸ hs
  circulation_eq _ p := by
    rw [circulation, circulation, h.circulation_eq, hcache]
    ring

theorem of_balanced (h : s.ledger.Posted ps s'.ledger) (hb : Balanced ps)
    (hcache : s'.feeCache = s.feeCache) : Circulates block 0 s s' :=
  (of_posted h hcache).congr fun p => by simp [hb p]

end Circulates

theorem net_credits : Posting.net (Account.Circulating p) (credits q receivers) =
      if p = q then receivers.total else 0 := by
  have hlist : ∀ l : List (Int × Address), Posting.net (Account.Circulating p)
      (l.map fun r => ⟨⟨r.2, q, .balance⟩, r.1⟩) = if p = q then (l.map Prod.fst).sum else 0 := by
    intro l
    have hcirculating : ∀ a : Address,
        Account.Circulating p ⟨a, q, .balance⟩ ↔ p = q := fun a =>
      ⟨fun h => h.1.symm, fun h => ⟨h.symm, List.mem_cons_self⟩⟩
    induction l with
    | nil => simp
    | cons r l ih =>
      rw [List.map_cons, Posting.net_cons, ih, List.map_cons, List.sum_cons]
      simp only [hcirculating]
      split_ifs <;> simp
  rw [credits, hlist, List.map_reverse, List.sum_reverse]
  rfl

theorem circulates_of_distributeCache (h : s.distributeCache env q block = .ok s') :
    Circulates block 0 s s' := by
  obtain ⟨receivers, m, -, htotal, hm, rfl⟩ := distributeCache_cases h
  have hcache : m.feeCache = s.feeCache := by rw [hm.1]
  constructor
  · intro hs
    exact (hcache ▸ hs : m.feeCache.UpTo block).putAmount
  · intro hs p
    have hm' : m.feeCache.UpTo block := hcache ▸ hs
    have hledger : (m.clearCache env q block).ledger.circulation p = s.ledger.circulation p +
      Posting.net (Account.Circulating p) (credits q receivers) := hm.2.circulation_eq
    rw [circulation, circulation, hledger, clearCache, getCachedAmount_putCachedAmount hm',
      net_credits, hcache]
    split_ifs with hpq
    · rw [htotal, hpq]
      simp
    · simp

theorem circulates_of_evalCache (h : s.evalCache env q block = .ok s') :
    Circulates block 0 s s' := by
  unfold evalCache at h
  split_ifs at h
  · exact circulates_of_distributeCache h
  · cases h
    exact .refl

theorem circulates_of_addFee (h : s.addFee env q block amount = .ok s') :
    Circulates block (fun p => if p = q then -amount else 0) s s' := by
  rw [addFee, bind_eq_ok] at h
  obtain ⟨n, hn, h⟩ := h
  obtain ⟨rfl, -⟩ := checked64_eq_ok.mp hn
  have hput : Circulates block (fun p => if p = q then -amount else 0) s (s.putCachedAmount env q
      block (s.feeCache.getCachedAmount q + amount)) := by
    constructor
    · exact fun hs => hs.putAmount
    · intro hs p
      rw [circulation, circulation, getCachedAmount_putCachedAmount hs]
      change s.ledger.circulation p + _ = _
      split_ifs with hpq
      · rw [hpq]
        ring
      · ring
  exact hput.keep (circulates_of_evalCache h)

theorem circulates_of_notifyTotalTokensChanged
    (h : s.notifyTotalTokensChanged env q block = .ok s') : Circulates block 0 s s' := by
  simp only [notifyTotalTokensChanged, updateDistributionThresholds, bind_eq_ok] at h
  obtain ⟨m, ⟨n, -, hm⟩, h⟩ := h
  cases hm
  have he := circulates_of_evalCache h
  exact ⟨he.upTo, he.circulation_eq⟩

theorem net_tradePostings {pnew pold : MetaDEx} {got paid fee : Int} (h : pnew.Matches pold) :
    Posting.net (Account.Circulating p) (tradePostings pnew pold got paid fee) =
      if p = pnew.desProperty then -fee else 0 := by
  obtain ⟨-, -, -, hdes, hprop, -, -⟩ := h
  simp only [tradePostings, Posting.net_cons, Posting.net_nil, Account.Circulating, hdes, hprop,
    circulatingTallies, List.mem_cons, true_or, or_true, and_true]
  rcases eq_or_ne p pnew.desProperty with rfl | hq
  · split_ifs <;> ring
  · simp only [hq, hq.symm, if_false]
    split_ifs <;> ring

variable {tx : CMPTransaction}

theorem balanced_stoPostings : Balanced (stoPostings tx receivers) := by
  unfold stoPostings
  induction receivers.toList.reverse with
  | nil => exact .nil
  | cons r l ih => exact (Balanced.transfer (by decide) (by decide)).append ih

theorem circulates_of_stoStages {m₁ m₂ m₃ : NodeState}
    (h : StoStages s env tx receivers m₁ m₂ m₃ s') :
    Circulates tx.block (fun p => if tx.version = mpTxPktV0 ∧ p = stoFeeProperty tx then
      transferFeePerOwner * receivers.toList.length else 0) s s' := by
  have hcharge : Circulates tx.block (fun p => if p = stoFeeProperty tx then
      stoTransferFee tx receivers else 0) s m₁ := by
    refine (Circulates.of_posted h.charge.2 (by rw [h.charge.1])).congr fun p => ?_
    simp only [Posting.net_cons, Posting.net_nil, Account.Circulating, circulatingTallies,
      List.mem_cons, true_or, and_true, eq_comm]
    split_ifs <;> ring
  have hpay : Circulates tx.block 0 m₂ m₃ :=
    .of_balanced h.pay.2 balanced_stoPostings (by rw [h.pay.1])
  have hcredit := h.credit
  have hnotify := h.notify
  unfold stoCreditFee at hcredit
  unfold stoNotify at hnotify
  by_cases hv : tx.version = mpTxPktV0
  · rw [if_pos hv] at hcredit hnotify
    cases hcredit
    refine ((hcharge.keep hpay).keep (circulates_of_notifyTotalTokensChanged hnotify)).congr ?_
    intro p
    simp [hv, stoTransferFee]
  · rw [if_neg hv] at hcredit hnotify
    cases hnotify
    refine ((hcharge.trans (circulates_of_addFee hcredit)).keep hpay).congr fun p => ?_
    rw [Pi.add_apply]
    split_ifs <;> simp_all

end NodeState

end TradeLayer
