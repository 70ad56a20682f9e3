import TradeLayer.DexKeys

namespace TradeLayer
open Library

namespace NodeState

variable {ps : List (Posting Account)} {t : TallyType}

def acceptSum (s : NodeState) (seller : Address) (p : PropertyId) : Int :=
  s.myAccepts.sum fun e => if onSeller seller p e.1 then e.2.acceptAmountRemaining else 0

def reserved (s : NodeState) (seller : Address) (p : PropertyId) : Int :=
  s.ledger.money seller p .sellOfferReserve + s.ledger.money seller p .acceptReserve

def offered (seller : Address) (p : PropertyId) (n : Int) : Address → PropertyId → Int :=
  fun a q => if seller = a ∧ p = q then n else 0

/-- What an operation of the exchange consists of: an offer is placed or withdrawn, a part of it
is reserved for a buyer, and a reservation is released, paid in part or paid in full. Every act
states what it adds to the amounts that sellers have offered. -/
inductive DexAct : NodeState → (Address → PropertyId → Int) → NodeState → Prop
  | place {s m : NodeState} {seller : Address} {p : PropertyId} {n : Int} {offer : Offer}
      (hseller : PlainAddress seller) (hnone : s.getOffer seller p = none) (hn : 0 < n)
      (hamount : offer.offerAmountOriginal = n) (hdesired : offer.btcDesiredOriginal ≠ 0)
      (hp : s.Posted (Posting.transfer ⟨seller, p, .balance⟩ ⟨seller, p, .sellOfferReserve⟩ n) m)
      (hr : s.ledger.InRange → m.ledger.InRange) :
      DexAct s (offered seller p n) (m.setOffer (strSellofferAddrPropCombo seller p) offer)
  | withdraw {s m : NodeState} {seller : Address} {p : PropertyId}
      (hseller : PlainAddress seller)
      (hp : s.Posted (if 0 < s.ledger.money seller p .sellOfferReserve then
        Posting.transfer ⟨seller, p, .sellOfferReserve⟩ ⟨seller, p, .balance⟩
          (s.ledger.money seller p .sellOfferReserve) else []) m)
      (hr : s.ledger.InRange → m.ledger.InRange) :
      DexAct s (fun _ _ => 0) (m.eraseOffer (strSellofferAddrPropCombo seller p))
  | reserve {s m : NodeState} {seller buyer : Address} {p : PropertyId} {n : Int}
      {offer : Offer} {accept : Accept} (hseller : PlainAddress seller)
      (hbuyer : PlainAddress buyer) (hid : p < 2 ^ 32)
      (hoffer : s.getOffer seller p = some offer) (hnone : s.getAccept seller p buyer = none)
      (hn : 0 < n) (hamounts : accept.acceptAmountOriginal = n ∧ accept.acceptAmountRemaining = n)
      (hterms : accept.offerAmountOriginal = offer.offerAmountOriginal ∧
        accept.btcDesiredOriginal = offer.btcDesiredOriginal)
      (hp : s.Posted (Posting.transfer ⟨seller, p, .sellOfferReserve⟩
        ⟨seller, p, .acceptReserve⟩ n) m)
      (hr : s.ledger.InRange → m.ledger.InRange) :
      DexAct s (fun _ _ => 0) (m.setAccept (strAcceptAddrPropAddrCombo seller buyer p) accept)
  | release {s m : NodeState} {seller buyer : Address} {p : PropertyId}
      {accept : Accept} {tally : TallyType} (hseller : PlainAddress seller)
      (hbuyer : PlainAddress buyer)
      (haccept : s.getAccept seller p buyer = some accept)
      (htally : tally = .balance ∨
        tally = .sellOfferReserve ∧ (s.getOffer seller p).isSome = true)
      (hp : s.Posted (Posting.transfer ⟨seller, p, .acceptReserve⟩ ⟨seller, p, tally⟩
        accept.acceptAmountRemaining) m)
      (hr : s.ledger.InRange → m.ledger.InRange) :
      DexAct s (fun _ _ => 0) (m.eraseAccept (strAcceptAddrPropAddrCombo seller buyer p))
  | pay {s m : NodeState} {seller buyer : Address} {p : PropertyId} {n : Int}
      {accept : Accept} (hseller : PlainAddress seller) (hbuyer : PlainAddress buyer)
      (haccept : s.getAccept seller p buyer = some accept) (hn : 0 ≤ n)
      (hlt : n < accept.acceptAmountRemaining)
      (hp : s.Posted (if 0 < n then Posting.transfer ⟨seller, p, .acceptReserve⟩
        ⟨buyer, p, .balance⟩ n else []) m)
      (hr : s.ledger.InRange → m.ledger.InRange) :
      DexAct s (fun _ _ => 0) (m.setAccept (strAcceptAddrPropAddrCombo seller buyer p)
        { accept with acceptAmountRemaining := accept.acceptAmountRemaining - n })
  | settle {s m : NodeState} {seller buyer : Address} {p : PropertyId}
      {accept : Accept} (hseller : PlainAddress seller) (hbuyer : PlainAddress buyer)
      (haccept : s.getAccept seller p buyer = some accept)
      (hp : s.Posted (Posting.transfer ⟨seller, p, .acceptReserve⟩ ⟨buyer, p, .balance⟩
        accept.acceptAmountRemaining) m)
      (hr : s.ledger.InRange → m.ledger.InRange) :
      DexAct s (fun _ _ => 0) (m.eraseAccept (strAcceptAddrPropAddrCombo seller buyer p))

/-- The exchange is in order: the reserves are those of the open offers and accepts. -/
structure DexInv (s : NodeState) : Prop where
  inRange : s.ledger.InRange
  offers : ∀ key o, s.myOffers.get? key = some o →
    0 < o.offerAmountOriginal ∧ o.btcDesiredOriginal ≠ 0
  accepts : ∀ key a, s.myAccepts.get? key = some a →
    (∃ seller buyer p, PlainAddress seller ∧ PlainAddress buyer ∧ p < 2 ^ 32 ∧
      key = strAcceptAddrPropAddrCombo seller buyer p) ∧
    0 < a.acceptAmountRemaining ∧ a.acceptAmountRemaining ≤ a.acceptAmountOriginal ∧
    0 < a.offerAmountOriginal ∧ a.btcDesiredOriginal ≠ 0
  reserve : ∀ seller p, PlainAddress seller →
    s.ledger.money seller p .acceptReserve = s.acceptSum seller p
  sell : ∀ seller p, PlainAddress seller → s.getOffer seller p = none →
    s.ledger.money seller p .sellOfferReserve = 0

variable {s s' m : NodeState} {seller buyer a a' : Address} {p q : PropertyId} {n : Int}
variable {offer : Offer} {accept : Accept} {key : List Char}

section Maps

theorem acceptSum_setAccept (hseller : PlainAddress seller) (hbuyer : PlainAddress buyer) :
    (s.setAccept (strAcceptAddrPropAddrCombo seller buyer p) accept).acceptSum a q =
      s.acceptSum a q + offered seller p (accept.acceptAmountRemaining -
        ((s.getAccept seller p buyer).map Accept.acceptAmountRemaining).getD 0) a q := by
  rw [acceptSum, setAccept, OrderedMap.sum_set_entries, getAccept]
  simp only [onSeller_acceptKey hseller hbuyer, offered]
  by_cases hk : seller = a ∧ p = q
  · simp only [hk, and_self, if_true, acceptSum]
    exact add_sub_assoc _ _ _
  · simp only [hk, if_false, acceptSum]
    cases s.myAccepts.get? (strAcceptAddrPropAddrCombo seller buyer p) <;> simp

theorem acceptSum_eraseAccept (hseller : PlainAddress seller) (hbuyer : PlainAddress buyer)
    (haccept : s.getAccept seller p buyer = some accept) :
    (s.eraseAccept (strAcceptAddrPropAddrCombo seller buyer p)).acceptSum a q =
      s.acceptSum a q + offered seller p (-accept.acceptAmountRemaining) a q := by
  rw [acceptSum, eraseAccept, OrderedMap.sum_erase_entries, ← getAccept, haccept, Option.map_some,
    Option.getD_some]
  simp only [onSeller_acceptKey hseller hbuyer, offered]
  split_ifs <;> rfl

theorem getOffer_setOffer (hseller : PlainAddress seller) :
    (s.setOffer (strSellofferAddrPropCombo seller p) offer).getOffer a q =
      if seller = a ∧ p = q then some offer else s.getOffer a q := by
  rw [getOffer, setOffer, OrderedMap.get?_set]
  simp only [eq_comm (a := strSellofferAddrPropCombo a q), offerKey_inj hseller]
  rfl

theorem getOffer_eraseOffer (hseller : PlainAddress seller) :
    (s.eraseOffer (strSellofferAddrPropCombo seller p)).getOffer a q =
      if seller = a ∧ p = q then none else s.getOffer a q := by
  rw [getOffer, eraseOffer, OrderedMap.get?_erase]
  simp only [eq_comm (a := strSellofferAddrPropCombo a q), offerKey_inj hseller]
  rfl

end Maps

theorem Posted.money_transfer {k k' : Account} (hp : s.Posted (Posting.transfer k k' n) m) :
    m.ledger.money a q t = s.ledger.money a q t -
      (if k = ⟨a, q, t⟩ then n else 0) + if k' = ⟨a, q, t⟩ then n else 0 := by
  rw [hp.2.money_eq, Posting.transfer, Posting.net_cons, Posting.net_cons, Posting.net_nil]
  dsimp only
  split_ifs <;> omega

theorem Posted.money_ite {k k' : Account} {P : Prop} [Decidable P]
    (hp : s.Posted (if P then Posting.transfer k k' n else []) m) :
    m.ledger.money a q t = s.ledger.money a q t -
      (if P ∧ k = ⟨a, q, t⟩ then n else 0) + if P ∧ k' = ⟨a, q, t⟩ then n else 0 := by
  by_cases hP : P
  · rw [if_pos hP] at hp
    simpa only [hP, true_and] using hp.money_transfer
  · rw [if_neg hP] at hp
    rw [hp.2.money_eq]
    simp [hP]

def moved (t t' u : TallyType) (n : Int) : Int :=
  (if t' = u then n else 0) - if t = u then n else 0

theorem money_moved {l l' : Ledger} {t' u : TallyType}
    (hp : l.Posted (Posting.transfer ⟨seller, p, t⟩ ⟨a', p, t'⟩ n) l')
    (hu : a' = seller ∨ t' ≠ u) (a : Address) (q : PropertyId) :
    l'.money a q u = l.money a q u + offered seller p (moved t t' u n) a q := by
  rw [hp.money_eq, Posting.transfer, Posting.net_cons, Posting.net_cons, Posting.net_nil]
  simp only [Account.mk.injEq, offered, moved]
  rcases hu with rfl | ht
  · split_ifs <;> grind
  · split_ifs <;> grind

theorem money_moved_of_pos {l l' : Ledger} {t' u : TallyType} (hn : 0 ≤ n)
    (hp : l.Posted (if 0 < n then Posting.transfer ⟨seller, p, t⟩ ⟨a', p, t'⟩ n else []) l')
    (hu : a' = seller ∨ t' ≠ u) (a : Address) (q : PropertyId) :
    l'.money a q u = l.money a q u + offered seller p (moved t t' u n) a q := by
  split_ifs at hp with hpos
  · exact money_moved hp hu a q
  · obtain rfl : n = 0 := by omega
    simp [hp.money_eq, offered, moved]

theorem Posted.myOffers_eq (hp : s.Posted ps m) : m.myOffers = s.myOffers := by
  rw [hp.1]

theorem Posted.myAccepts_eq (hp : s.Posted ps m) : m.myAccepts = s.myAccepts := by
  rw [hp.1]

theorem Posted.getOffer_eq (hp : s.Posted ps m) : m.getOffer a q = s.getOffer a q := by
  rw [getOffer, hp.myOffers_eq, getOffer]

theorem Posted.getAccept_eq (hp : s.Posted ps m) :
    m.getAccept a q buyer = s.getAccept a q buyer := by
  rw [getAccept, hp.myAccepts_eq, getAccept]

theorem Posted.acceptSum_eq (hp : s.Posted ps m) : m.acceptSum a q = s.acceptSum a q := by
  rw [acceptSum, hp.myAccepts_eq, acceptSum]

namespace DexAct

variable {k : Address → PropertyId → Int}

theorem inRange (h : DexAct s k s') (hs : s.ledger.InRange) : s'.ledger.InRange := by
  cases h with
  | place _ _ _ _ _ _ hr => exact hr hs
  | withdraw _ _ hr => exact hr hs
  | reserve _ _ _ _ _ _ _ _ _ hr => exact hr hs
  | release _ _ _ _ _ hr => exact hr hs
  | pay _ _ _ _ _ _ hr => exact hr hs
  | settle _ _ _ _ hr => exact hr hs

theorem offers (h : DexAct s k s') (hi : DexInv s) : ∀ key o, s'.myOffers.get? key = some o →
    0 < o.offerAmountOriginal ∧ o.btcDesiredOriginal ≠ 0 := by
  intro key o ho
  cases h with
  | place _ _ hn hamount hdesired hp _ =>
    rw [setOffer, OrderedMap.get?_set] at ho
    split_ifs at ho
    · cases ho
      exact ⟨hamount ▸ hn, hdesired⟩
    · rw [hp.myOffers_eq] at ho
      exact hi.offers key o ho
  | withdraw _ hp _ =>
    rw [eraseOffer, OrderedMap.get?_erase] at ho
    split_ifs at ho
    rw [hp.myOffers_eq] at ho
    exact hi.offers key o ho
  | reserve _ _ _ _ _ _ _ _ hp _ => exact hi.offers key o (hp.myOffers_eq ▸ ho)
  | release _ _ _ _ hp _ => exact hi.offers key o (hp.myOffers_eq ▸ ho)
  | pay _ _ _ _ _ hp _ => exact hi.offers key o (hp.myOffers_eq ▸ ho)
  | settle _ _ _ hp _ => exact hi.offers key o (hp.myOffers_eq ▸ ho)

theorem accepts (h : DexAct s k s') (hi : DexInv s) : ∀ key a, s'.myAccepts.get? key = some a →
    (∃ seller buyer p, PlainAddress seller ∧ PlainAddress buyer ∧ p < 2 ^ 32 ∧
      key = strAcceptAddrPropAddrCombo seller buyer p) ∧
    0 < a.acceptAmountRemaining ∧ a.acceptAmountRemaining ≤ a.acceptAmountOriginal ∧
    0 < a.offerAmountOriginal ∧ a.btcDesiredOriginal ≠ 0 := by
  intro key a ha
  cases h with
  | place _ _ _ _ _ hp _ => exact hi.accepts key a (hp.myAccepts_eq ▸ ha)
  | withdraw _ hp _ => exact hi.accepts key a (hp.myAccepts_eq ▸ ha)
  | reserve hseller hbuyer hid hoffer _ hn hamounts hterms hp _ =>
    rw [setAccept, OrderedMap.get?_set] at ha
    split_ifs at ha with hkey
    · cases ha
      obtain ⟨hamount, hdesired⟩ := hi.offers _ _ hoffer
      refine ⟨⟨_, _, _, hseller, hbuyer, hid, hkey⟩, ?_, ?_, ?_, ?_⟩
      · rw [hamounts.2]
        exact hn
      · rw [hamounts.1, hamounts.2]
      · rw [hterms.1]
        exact hamount
      · rw [hterms.2]
        exact hdesired
    · rw [hp.myAccepts_eq] at ha
      exact hi.accepts key a ha
  | release _ _ _ _ hp _ =>
    rw [eraseAccept, OrderedMap.get?_erase] at ha
    split_ifs at ha
    rw [hp.myAccepts_eq] at ha
    exact hi.accepts key a ha
  | pay _ _ haccept hn hlt hp _ =>
    rw [setAccept, OrderedMap.get?_set] at ha
    split_ifs at ha with hkey
    · cases ha
      obtain ⟨hform, hpos, hle, hterms⟩ := hi.accepts _ _ haccept
      refine ⟨hkey ▸ hform, sub_pos.mpr hlt, ?_, hterms⟩
      exact le_trans (sub_le_self _ hn) hle
    · rw [hp.myAccepts_eq] at ha
      exact hi.accepts key a ha
  | settle _ _ _ hp _ =>
    rw [eraseAccept, OrderedMap.get?_erase] at ha
    split_ifs at ha
    rw [hp.myAccepts_eq] at ha
    exact hi.accepts key a ha

/-- An act changes the reserves of one seller, and those for the accepts as the accepts. -/
structure Shifts (s s' : NodeState) (seller : Address) (p : PropertyId) (dSell dAccept : Int) :
    Prop where
  sell : ∀ a q, s'.ledger.money a q .sellOfferReserve =
    s.ledger.money a q .sellOfferReserve + offered seller p dSell a q
  accept : ∀ a q, s'.ledger.money a q .acceptReserve =
    s.ledger.money a q .acceptReserve + offered seller p dAccept a q
  acceptSum : ∀ a q, s'.acceptSum a q = s.acceptSum a q + offered seller p dAccept a q
  noOffer : ∀ a q, s'.getOffer a q = none →
    s.getOffer a q = none ∧ offered seller p dSell a q = 0 ∨
      s.ledger.money a q .sellOfferReserve + offered seller p dSell a q = 0

theorem shifts (h : DexAct s k s') (hi : DexInv s) : ∃ seller p dSell dAccept,
    Shifts s s' seller p dSell dAccept ∧ ∀ a q, offered seller p (dSell + dAccept) a q ≤ k a q := by
  cases h with
  | place hseller _ _ _ _ hp _ =>
    refine ⟨_, _, _, _, ⟨money_moved hp.2 (.inl rfl), money_moved hp.2 (.inl rfl), fun a q => ?_,
      fun a q hnone => .inl ?_⟩, ?_⟩
    · exact hp.acceptSum_eq.trans (by simp [moved, offered])
    · rw [getOffer_setOffer hseller, hp.getOffer_eq] at hnone
      split_ifs at hnone with hk
      exact ⟨hnone, if_neg hk⟩
    · simp [moved]
  | @withdraw _ seller p hseller hp _ =>
    have hnonneg := (hi.inRange seller p .sellOfferReserve nofun).1
    refine ⟨_, _, _, _, ⟨money_moved_of_pos hnonneg hp.2 (.inl rfl),
      money_moved_of_pos hnonneg hp.2 (.inl rfl), fun a q => ?_, fun a q hnone => ?_⟩, ?_⟩
    · exact hp.acceptSum_eq.trans (by simp [moved, offered])
    · rw [getOffer_eraseOffer hseller, hp.getOffer_eq] at hnone
      split_ifs at hnone with hk
      · obtain ⟨rfl, rfl⟩ := hk
        exact .inr (by simp [moved, offered])
      · exact .inl ⟨hnone, if_neg hk⟩
    · intro a q
      simp only [moved, offered, reduceCtorEq, if_true, if_false]
      split_ifs <;> omega
  | reserve hseller hbuyer _ hoffer hnone' _ hamounts _ hp _ =>
    refine ⟨_, _, _, _, ⟨money_moved hp.2 (.inl rfl), money_moved hp.2 (.inl rfl), fun a q => ?_,
      fun a q hnone => .inl ?_⟩, ?_⟩
    · rw [acceptSum_setAccept hseller hbuyer, hp.getAccept_eq, hnone', hp.acceptSum_eq, hamounts.2]
      simp [moved]
    · have hsame : s.getOffer a q = none := hp.getOffer_eq.symm.trans hnone
      refine ⟨hsame, if_neg ?_⟩
      rintro ⟨rfl, rfl⟩
      exact absurd (hoffer.symm.trans hsame) nofun
    · simp [moved, offered]
  | release hseller hbuyer haccept htally hp _ =>
    have hpos := (hi.accepts _ _ haccept).2.1
    refine ⟨_, _, _, _, ⟨money_moved hp.2 (.inl rfl), money_moved hp.2 (.inl rfl), fun a q => ?_,
      fun a q hnone => .inl ?_⟩, fun a q => ?_⟩
    · rw [acceptSum_eraseAccept hseller hbuyer (hp.getAccept_eq.trans haccept), hp.acceptSum_eq]
      rcases htally with rfl | ⟨rfl, -⟩ <;> simp [moved]
    · have hsame : s.getOffer a q = none := hp.getOffer_eq.symm.trans hnone
      refine ⟨hsame, ?_⟩
      rcases htally with rfl | ⟨rfl, hsome⟩
      · simp [moved, offered]
      · refine if_neg ?_
        rintro ⟨rfl, rfl⟩
        exact absurd (hsame ▸ hsome) nofun
    · rcases htally with rfl | ⟨rfl, -⟩ <;>
        simp only [moved, offered, reduceCtorEq, if_true, if_false] <;> split_ifs <;> omega
  | pay hseller hbuyer haccept hn _ hp _ =>
    refine ⟨_, _, _, _, ⟨money_moved_of_pos hn hp.2 (.inr nofun),
      money_moved_of_pos hn hp.2 (.inr nofun), fun a q => ?_, fun a q hnone => .inl ?_⟩,
      fun a q => ?_⟩
    · rw [acceptSum_setAccept hseller hbuyer, hp.getAccept_eq, haccept, hp.acceptSum_eq]
      simp [moved]
    · exact ⟨hp.getOffer_eq.symm.trans hnone, by simp [moved, offered]⟩
    · simp only [moved, offered, reduceCtorEq, if_true, if_false]
      split_ifs <;> omega
  | settle hseller hbuyer haccept hp _ =>
    have hpos := (hi.accepts _ _ haccept).2.1
    refine ⟨_, _, _, _, ⟨money_moved hp.2 (.inr nofun), money_moved hp.2 (.inr nofun),
      fun a q => ?_,
      fun a q hnone => .inl ?_⟩, fun a q => ?_⟩
    · rw [acceptSum_eraseAccept hseller hbuyer (hp.getAccept_eq.trans haccept), hp.acceptSum_eq]
      simp [moved]
    · exact ⟨hp.getOffer_eq.symm.trans hnone, by simp [moved, offered]⟩
    · simp only [moved, offered, reduceCtorEq, if_true, if_false]
      split_ifs <;> omega

theorem reserve_eq (h : DexAct s k s') (hi : DexInv s) (a : Address) (q : PropertyId)
    (ha : PlainAddress a) : s'.ledger.money a q .acceptReserve = s'.acceptSum a q := by
  obtain ⟨seller, p, dSell, dAccept, hshift, -⟩ := h.shifts hi
  rw [hshift.accept, hshift.acceptSum, hi.reserve a q ha]

theorem sell_eq (h : DexAct s k s') (hi : DexInv s) (a : Address) (q : PropertyId)
    (ha : PlainAddress a) (hnone : s'.getOffer a q = none) :
    s'.ledger.money a q .sellOfferReserve = 0 := by
  obtain ⟨seller, p, dSell, dAccept, hshift, -⟩ := h.shifts hi
  rw [hshift.sell]
  rcases hshift.noOffer a q hnone with ⟨hnone, hzero⟩ | hzero
  · rw [hi.sell a q ha hnone, hzero, add_zero]
  · exact hzero

theorem reserved_le (h : DexAct s k s') (hi : DexInv s) :
    s'.reserved a q ≤ s.reserved a q + k a q := by
  obtain ⟨seller, p, dSell, dAccept, hshift, hle⟩ := h.shifts hi
  have hk := hle a q
  simp only [reserved, hshift.sell, hshift.accept, offered] at hk ⊢
  split_ifs at hk ⊢ <;> omega

theorem dexInv (h : DexAct s k s') (hi : DexInv s) : DexInv s' where
  inRange := h.inRange hi.inRange
  offers := h.offers hi
  accepts := h.accepts hi
  reserve := h.reserve_eq hi
  sell := h.sell_eq hi

end DexAct

end NodeState

end TradeLayer
