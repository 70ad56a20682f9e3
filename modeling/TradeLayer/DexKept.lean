import TradeLayer.DexMoves
import TradeLayer.DexActs

namespace TradeLayer
open Library

namespace NodeState

/-- What an operation of the exchange keeps: it stays in order, and no more is reserved in
addition than is newly offered. -/
structure DexKept (s : NodeState) (k : Address → PropertyId → Int) (s' : NodeState) : Prop where
  inv : DexInv s'
  reserved_le : ∀ a q, s'.reserved a q ≤ s.reserved a q + k a q

def Paired (s : NodeState) (a b : Address) (p : PropertyId) : Prop :=
  1 ≤ p ∧ p < s.spInfo.peekNextSPID 1 ∧ (s.spInfo.getSP p).isSome = true ∧
    ((s.getAccept a p b).isSome = true ∨ (s.getAccept b p a).isSome = true)

instance {s : NodeState} {a b : Address} {p : PropertyId} : Decidable (s.Paired a b p) :=
  inferInstanceAs (Decidable (_ ∧ _ ∧ _ ∧ _))

def FirstPaired (s : NodeState) (a b : Address) (p : PropertyId) : Prop :=
  s.Paired a b p ∧ ∀ q < p, ¬ s.Paired a b q

instance {s : NodeState} {a b : Address} {p : PropertyId} : Decidable (s.FirstPaired a b p) :=
  inferInstanceAs (Decidable (_ ∧ ∀ q < _, _))

/-- Where no token for sale of the seller decides, the first property with an accept between the
two parties has one on the seller's offer. -/
def PaysSeller (s : NodeState) (seller buyer : Address) (block : Int) : Prop :=
  s.isFeatureActivated .freeDex block = true → s.getTokenForSale seller = none →
    ∀ p < s.spInfo.peekNextSPID 1, s.FirstPaired seller buyer p →
      (s.getAccept seller p buyer).isSome = true

instance {s : NodeState} {seller buyer : Address} {block : Int} :
    Decidable (s.PaysSeller seller buyer block) :=
  inferInstanceAs (Decidable (_ → _ → ∀ p < _, _ → _))

variable {s s' m : NodeState} {env : Environment} {seller buyer a : Address} {p q : PropertyId}
variable {amount block desired minFee feePaid rc : Int} {window txid : Nat}
variable {k k' k'' : Address → PropertyId → Int} {found : FoundAccept} {accept : Accept}

namespace DexKept

theorem refl (hi : DexInv s) : DexKept s (fun _ _ => 0) s :=
  ⟨hi, fun _ _ => (add_zero _).ge⟩

theorem of_act (hi : DexInv s) (h : DexAct s k s') : DexKept s k s' :=
  ⟨h.dexInv hi, fun _ _ => h.reserved_le hi⟩

theorem trans (h : DexKept s k m) (h' : DexKept m k' s') (hk : ∀ a q, k'' a q = k a q + k' a q) :
    DexKept s k'' s' := by
  refine ⟨h'.inv, fun a q => ?_⟩
  have hfirst := h.reserved_le a q
  have hsecond := h'.reserved_le a q
  rw [hk]
  omega

end DexKept

theorem money_sellOfferReserve :
    s.ledger.getTokenBalance seller p .sellOfferReserve =
      s.ledger.money seller p .sellOfferReserve := by
  simp [Ledger.getTokenBalance]

theorem dexKept_of_offerCreate (hi : DexInv s) (hseller : PlainAddress seller)
    (h : s.offerCreate seller p amount block desired minFee window txid = .ok (rc, s')) :
    DexKept s (if rc = 0 then offered seller p amount else fun _ _ => 0) s' := by
  rw [offerCreate] at h
  split_ifs at h with hwindow hdesired hexists hbalance hpos
  · cases h
    exact .refl hi
  · cases h
    exact .refl hi
  · cases h
    exact .refl hi
  · cases h
    exact .refl hi
  · obtain ⟨m, hm, h⟩ := bind_eq_ok.mp h
    cases h
    have hnone : s.getOffer seller p = none := by
      simpa [offerExists] using hexists
    exact .of_act hi (.place hseller hnone hpos rfl hdesired (posted_of_assertTallies hm)
      fun hl => inRange_of_assertTallies hl hm)
  · cases h
    exact .refl hi

theorem dexKept_of_offerDestroy (hi : DexInv s) (hseller : PlainAddress seller)
    (h : s.offerDestroy seller p = .ok (rc, s')) : DexKept s (fun _ _ => 0) s' := by
  rw [offerDestroy] at h
  split_ifs at h
  · obtain ⟨m, hm, h⟩ := bind_eq_ok.mp h
    cases h
    rw [money_sellOfferReserve] at hm
    exact .of_act hi (.withdraw hseller (posted_of_assertTallies hm)
      fun hl => inRange_of_assertTallies hl hm)
  · cases h
    exact .refl hi

theorem dexKept_of_offerUpdate (hi : DexInv s) (hseller : PlainAddress seller)
    (h : s.offerUpdate seller p amount block desired minFee window txid = .ok (rc, s')) :
    DexKept s (if rc = 0 then offered seller p amount else fun _ _ => 0) s' := by
  rw [offerUpdate] at h
  split_ifs at h
  · obtain ⟨⟨rc', m⟩, hm, h⟩ := bind_eq_ok.mp h
    have hdestroyed := dexKept_of_offerDestroy hi hseller hm
    dsimp only at h
    split_ifs at h with hrc
    · apply hdestroyed.trans (dexKept_of_offerCreate hdestroyed.inv hseller h)
      intro a q
      exact (zero_add _).symm
    · cases h
      rw [if_neg hrc]
      exact hdestroyed
  · cases h
    exact .refl hi

theorem dexKept_of_acceptCreate (hi : DexInv s) (hseller : PlainAddress seller)
    (hbuyer : PlainAddress buyer) (hid : p < 2 ^ 32)
    (h : s.acceptCreate buyer seller p amount block feePaid = .ok (rc, s')) :
    DexKept s (fun _ _ => 0) s' := by
  rw [acceptCreate] at h
  split at h
  case h_1 =>
    cases h
    exact .refl hi
  case h_2 offer hoffer =>
    dsimp only at h
    split_ifs at h with hexists hfee hpos
    · cases h
      exact .refl hi
    · cases h
      exact .refl hi
    · obtain ⟨m, hm, h⟩ := bind_eq_ok.mp h
      cases h
      have hnone : s.getAccept seller p buyer = none := by
        simpa using hexists
      exact .of_act hi (.reserve hseller hbuyer hid hoffer hnone hpos ⟨rfl, rfl⟩ ⟨rfl, rfl⟩
        (posted_of_assertTallies hm)
      fun hl => inRange_of_assertTallies hl hm)
    · cases h
      exact .refl hi

theorem returnTally_cases (offer : Option Offer) (accept : Accept) :
    returnTally offer accept = .balance ∨
    returnTally offer accept = .sellOfferReserve ∧ offer.isSome = true := by
  rw [returnTally.eq_def]
  split
  · exact .inl rfl
  · split_ifs
    · exact .inr ⟨rfl, rfl⟩
    · exact .inl rfl

theorem dexKept_of_release (hi : DexInv s) (hseller : PlainAddress seller)
    (hbuyer : PlainAddress buyer) (haccept : s.getAccept seller p buyer = some accept)
    (h : s.acceptDestroy buyer seller p false = .ok (rc, m)) :
    DexKept s (fun _ _ => 0) (m.eraseAccept (strAcceptAddrPropAddrCombo seller buyer p)) := by
  rw [acceptDestroy, haccept] at h
  obtain ⟨m, hm, h⟩ := bind_eq_ok.mp h
  cases h
  have hpos := (hi.accepts _ _ haccept).2.1
  rw [if_pos hpos] at hm
  exact .of_act hi (.release hseller hbuyer haccept (returnTally_cases _ _)
    (posted_of_assertTallies hm)
      fun hl => inRange_of_assertTallies hl hm)

theorem acceptDestroy_true (haccept : s.getAccept seller p buyer = some accept)
    (h : s.acceptDestroy buyer seller p true = .ok (rc, s')) :
    ∃ m, s.acceptDestroy buyer seller p false = .ok (rc, m) ∧
      s' = m.eraseAccept (strAcceptAddrPropAddrCombo seller buyer p) := by
  rw [acceptDestroy, haccept] at h
  obtain ⟨m, hm, h⟩ := bind_eq_ok.mp h
  cases h
  refine ⟨m, ?_, rfl⟩
  rw [acceptDestroy, haccept]
  exact bind_eq_ok.mpr ⟨m, hm, rfl⟩

theorem dexKept_of_acceptDestroy (hi : DexInv s) (hseller : PlainAddress seller)
    (hbuyer : PlainAddress buyer) (h : s.acceptDestroy buyer seller p true = .ok (rc, s')) :
    DexKept s (fun _ _ => 0) s' := by
  cases haccept : s.getAccept seller p buyer with
  | none =>
    rw [acceptDestroy, haccept] at h
    cases h
    exact .refl hi
  | some accept =>
    obtain ⟨m, hm, rfl⟩ := acceptDestroy_true haccept h
    exact dexKept_of_release hi hseller hbuyer haccept hm

section Expiry

variable {accepts : List (List Char × Accept)}

theorem dexKept_of_eraseExpiredLoop (hi : DexInv s)
    (hmem : ∀ e ∈ accepts, s.myAccepts.get? e.1 = some e.2)
    (hkeys : accepts.Pairwise fun e e' => e.1 ≠ e'.1)
    (h : eraseExpiredLoop block s accepts = .ok s') : DexKept s (fun _ _ => 0) s' := by
  induction accepts generalizing s with
  | nil =>
    cases h
    exact .refl hi
  | cons e accepts ih =>
    obtain ⟨key, accept⟩ := e
    obtain ⟨hne, hlater⟩ := List.pairwise_cons.mp hkeys
    have hget : s.myAccepts.get? key = some accept := hmem (key, accept) List.mem_cons_self
    have hrest : ∀ e ∈ accepts, s.myAccepts.get? e.1 = some e.2 := fun e he =>
      hmem e (List.mem_cons_of_mem _ he)
    rw [eraseExpiredLoop] at h
    split_ifs at h
    · obtain ⟨⟨seller, buyer, p, hseller, hbuyer, hid, rfl⟩, -⟩ := hi.accepts key accept hget
      rw [splitCompress_acceptKey hseller hbuyer] at h
      dsimp only at h
      rw [atoiUint32_toDigits hid] at h
      obtain ⟨⟨rc, m⟩, hm, h⟩ := bind_eq_ok.mp h
      have hreleased := dexKept_of_release hi hseller hbuyer hget hm
      apply hreleased.trans (ih hreleased.inv ?_ hlater h)
      · intro a q
        rfl
      · -- the entries after this one have other keys, so the erasure keeps them
        intro e he
        have hsame : m.myAccepts = s.myAccepts := by
          rw [acceptDestroy, getAccept, hget] at hm
          obtain ⟨m', hm', hm⟩ := bind_eq_ok.mp hm
          cases hm
          exact (posted_of_assertTallies hm').myAccepts_eq
        rw [eraseAccept, OrderedMap.get?_erase, if_neg (hne e he).symm, hsame]
        exact hrest e he
    · exact ih hi hrest hlater h

theorem dexKept_of_eraseExpiredAccepts (hi : DexInv s)
    (h : s.eraseExpiredAccepts block = .ok s') : DexKept s (fun _ _ => 0) s' := by
  apply dexKept_of_eraseExpiredLoop hi _ _ h
  · intro e he
    exact OrderedMap.get?_eq_some.mpr he
  · exact s.myAccepts.sorted.imp fun hlt => hlt.ne

end Expiry

section Payment

theorem lookupAccept_eq_some (h : s.lookupAccept seller p buyer = some found) :
    found.seller = seller ∧ found.buyer = buyer ∧ found.property = p ∧
      s.getAccept seller p buyer = some found.accept := by
  obtain ⟨accept, haccept, rfl⟩ := Option.map_eq_some_iff.mp h
  exact ⟨rfl, rfl, rfl, haccept⟩

theorem findSome?_range'_eq_some {β : Type} {f : Nat → Option β} {start count : Nat} {b : β}
    (h : (List.range' start count).findSome? f = some b) :
    ∃ p, start ≤ p ∧ p < start + count ∧ f p = some b ∧ ∀ q, start ≤ q → q < p → f q = none := by
  induction count generalizing start with
  | zero => cases h
  | succ count ih =>
    rw [List.range'_succ, List.findSome?_cons] at h
    cases hstart : f start with
    | some b' =>
      rw [hstart] at h
      cases h
      exact ⟨start, le_rfl, by omega, hstart, fun q hq hlt => absurd hlt hq.not_gt⟩
    | none =>
      rw [hstart] at h
      obtain ⟨p, hle, hlt, hp, hbefore⟩ := ih h
      refine ⟨p, by omega, by omega, hp, fun q hq hqp => ?_⟩
      rcases hq.eq_or_lt with rfl | hq
      · exact hstart
      · exact hbefore q hq hqp

theorem FirstPaired.unique (h : s.FirstPaired seller buyer p) (h' : s.FirstPaired seller buyer q) :
    p = q := by
  rcases lt_trichotomy p q with hlt | heq | hlt
  · exact absurd h.1 (h'.2 p hlt)
  · exact heq
  · exact absurd h'.1 (h.2 q hlt)

theorem marketMaker_eq_some (h : s.marketMaker seller buyer = some found) :
    ∃ p, s.FirstPaired seller buyer p ∧
      (s.lookupAccept seller p buyer).or (s.lookupAccept buyer p seller) = some found := by
  obtain ⟨p, hone, hlast, hp, hbefore⟩ := findSome?_range'_eq_some h
  obtain ⟨entry, hentry, hor⟩ := Option.bind_eq_some_iff.mp hp
  refine ⟨p, ⟨⟨hone, ?_, Option.isSome_iff_exists.mpr ⟨entry, hentry⟩, ?_⟩, ?_⟩, hor⟩
  · exact Nat.lt_of_lt_of_le hlast (by omega)
  · rcases Option.or_eq_some_iff.mp hor with hs | ⟨-, hb⟩
    · exact .inl (Option.isSome_iff_exists.mpr ⟨_, (lookupAccept_eq_some hs).2.2.2⟩)
    · exact .inr (Option.isSome_iff_exists.mpr ⟨_, (lookupAccept_eq_some hb).2.2.2⟩)
  · intro q hlt hq
    obtain ⟨hq₁, -, hsp, hsome⟩ := hq
    obtain ⟨entry', hentry'⟩ := Option.isSome_iff_exists.mp hsp
    have hskip := hbefore q hq₁ hlt
    rw [hentry', Option.bind_some, Option.or_eq_none_iff, lookupAccept, lookupAccept,
      Option.map_eq_none_iff, Option.map_eq_none_iff] at hskip
    rw [hskip.1, hskip.2] at hsome
    cases hsome <;> contradiction

theorem paymentAccept_eq_some (hpays : s.PaysSeller seller buyer block)
    (h : s.paymentAccept env seller buyer block = some found) :
    found.seller = seller ∧ found.buyer = buyer ∧
      s.getAccept seller found.property buyer = some found.accept := by
  have hlookup : ∀ {p}, s.lookupAccept seller p buyer = some found →
      found.seller = seller ∧ found.buyer = buyer ∧
        s.getAccept seller found.property buyer = some found.accept := by
    intro p hp
    obtain ⟨hs, hb, hprop, haccept⟩ := lookupAccept_eq_some hp
    rw [hprop]
    exact ⟨hs, hb, haccept⟩
  rw [paymentAccept] at h
  split_ifs at h with hdebug hfree
  · split at h
    case h_1 token htoken => exact hlookup h
    case h_2 htoken =>
      obtain ⟨p, hp, hor⟩ := marketMaker_eq_some h
      have hsome := hpays hfree htoken p hp.1.2.1 hp
      rcases Option.or_eq_some_iff.mp hor with hseller | ⟨hnone, -⟩
      · exact hlookup hseller
      · -- a lookup with the roles exchanged contradicts the condition
        rw [Option.map_eq_none_iff.mp hnone] at hsome
        cases hsome
  · rcases Option.or_eq_some_iff.mp h with h | ⟨-, h⟩
    · exact hlookup h
    · exact hlookup h

theorem calculateDExPurchase_nonneg {o d x : Int} (h : calculateDExPurchase o d amount = .ok x) :
    0 ≤ x := by
  obtain ⟨o', -, h⟩ := bind_eq_ok.mp h
  obtain ⟨d', -, h⟩ := bind_eq_ok.mp h
  obtain ⟨a', -, h⟩ := bind_eq_ok.mp h
  obtain ⟨q, -, h⟩ := bind_eq_ok.mp h
  rw [(convertTo64_eq_ok.mp h).1]
  exact Int.natCast_nonneg q

theorem eraseAccept_setAccept (accept : Accept) {key : List Char} :
    (s.setAccept key accept).eraseAccept key = s.eraseAccept key := by
  have hmaps : (s.myAccepts.set key accept).erase key = s.myAccepts.erase key := by
    apply OrderedMap.ext_get?
    intro k
    rw [OrderedMap.get?_erase, OrderedMap.get?_erase, OrderedMap.get?_set]
    split_ifs <;> rfl
  rw [eraseAccept, setAccept, eraseAccept, hmaps]

theorem finishAccept_eq (hzero : accept.acceptAmountRemaining = 0) :
    (s.setAccept (strAcceptAddrPropAddrCombo seller buyer p) accept).finishAccept seller buyer p =
      if s.ledger.getTokenBalance seller p .sellOfferReserve = 0 ∧
          s.ledger.getTokenBalance seller p .acceptReserve = 0 then
        ((s.eraseAccept (strAcceptAddrPropAddrCombo seller buyer p)).offerDestroy seller p).map
          Prod.snd
      else .ok (s.eraseAccept (strAcceptAddrPropAddrCombo seller buyer p)) := by
  have hget : (s.setAccept (strAcceptAddrPropAddrCombo seller buyer p) accept).getAccept seller p
      buyer = some accept := by
    rw [getAccept, setAccept, OrderedMap.get?_set, if_pos rfl]
  have hdestroy : (s.setAccept (strAcceptAddrPropAddrCombo seller buyer p) accept).acceptDestroy
      buyer seller p true =
        .ok (0, s.eraseAccept (strAcceptAddrPropAddrCombo seller buyer p)) := by
    rw [acceptDestroy, hget, ← eraseAccept_setAccept accept]
    simp only [hzero, lt_irrefl, if_false]
    rfl
  rw [finishAccept, hdestroy]
  simp only [ok_bind]
  rfl

theorem dexKept_of_payment (hi : DexInv s) (hseller : PlainAddress seller)
    (hbuyer : PlainAddress buyer) (hpays : s.PaysSeller seller buyer block)
    (h : s.payment env seller buyer amount block = .ok (rc, s')) :
    DexKept s (fun _ _ => 0) s' := by
  rw [payment] at h
  split at h
  case h_1 =>
    cases h
    exact .refl hi
  case h_2 found hfound =>
    obtain ⟨hs, hb, haccept⟩ := paymentAccept_eq_some hpays hfound
    split_ifs at h with hdesired
    · cases h
      exact .refl hi
    · obtain ⟨x, hx, h⟩ := bind_eq_ok.mp h
      obtain ⟨m, hm, h⟩ := bind_eq_ok.mp h
      have hnonneg := calculateDExPurchase_nonneg hx
      have hpos := (hi.accepts _ _ haccept).2.1
      have hkey : found.key = strAcceptAddrPropAddrCombo seller buyer found.property := by
        rw [FoundAccept.key, hs, hb]
      dsimp only at h
      rw [hkey] at h
      by_cases hd : found.accept.acceptAmountRemaining ≤ min x found.accept.acceptAmountRemaining
      · have hall : min x found.accept.acceptAmountRemaining =
            found.accept.acceptAmountRemaining := le_antisymm (min_le_right _ _) hd
        rw [if_pos hd] at h
        rw [hall, if_pos hpos] at hm
        obtain ⟨m', hm', h⟩ := bind_eq_ok.mp h
        rw [finishAccept_eq (by simp [hall])] at hm'
        cases h
        have hsettled := DexKept.of_act hi (.settle hseller hbuyer haccept
          (posted_of_assertTallies hm) fun hl => inRange_of_assertTallies hl hm)
        split_ifs at hm'
        · obtain ⟨⟨rc', m''⟩, hdestroy, hm'⟩ := exists_ok_of_map hm'
          cases hm'
          exact hsettled.trans (dexKept_of_offerDestroy hsettled.inv hseller hdestroy)
            fun _ _ => rfl
        · cases hm'
          exact hsettled
      · rw [if_neg hd] at h
        cases h
        exact .of_act hi (.pay hseller hbuyer haccept (by omega) (by omega)
          (posted_of_assertTallies hm) fun hl => inRange_of_assertTallies hl hm)

end Payment

end NodeState

end TradeLayer
