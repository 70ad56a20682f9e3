import TradeLayer.Conservation
import TradeLayer.DexLookup
import TradeLayer.PersistedDex

namespace TradeLayer
open Library

def Operation.Encoded : Operation → Prop
  | offerCreate seller p _ _ _ _ _ => EncodedAddress seller ∧ p < 2 ^ 32
  | offerDestroy _ _ => True
  | offerUpdate seller p _ _ _ _ _ => EncodedAddress seller ∧ p < 2 ^ 32
  | acceptCreate buyer seller _ _ _ => EncodedAddress seller ∧ EncodedAddress buyer
  | acceptDestroy _ _ _ _ => True
  | payment _ _ _ => True
  | eraseExpiredAccepts => True
  | _ => False

namespace NodeState

variable {s s' : NodeState} {env : Environment} {block rc : Int} {op : Operation}
variable {seller buyer : Address} {p : PropertyId} {key : List Char} {offer : Offer}
variable {accept : Accept} {amount desired minFee feePaid : Int} {window txid : Nat} {force : Bool}
variable {calls : List (Int × Operation)}

/-- The entries of the exchange are under the keys of their parties and properties. -/
structure DexFiled (s : NodeState) : Prop where
  offers : ∀ key o, s.myOffers.get? key = some o → ∃ seller, EncodedAddress seller ∧
    o.property < 2 ^ 32 ∧ key = strSellofferAddrPropCombo seller o.property
  accepts : ∀ key a, s.myAccepts.get? key = some a → ∃ seller buyer, EncodedAddress seller ∧
    EncodedAddress buyer ∧ a.property < 2 ^ 32 ∧
    key = strAcceptAddrPropAddrCombo seller buyer a.property

namespace DexFiled

theorem of_eq (hs : s.DexFiled) (hoffers : s'.myOffers = s.myOffers)
    (haccepts : s'.myAccepts = s.myAccepts) : s'.DexFiled where
  offers := by
    rw [hoffers]
    exact hs.offers
  accepts := by
    rw [haccepts]
    exact hs.accepts

theorem of_posted {ps : List (Posting Account)} (hs : s.DexFiled) (h : s.Posted ps s') :
    s'.DexFiled :=
  hs.of_eq h.myOffers_eq h.myAccepts_eq

theorem setOffer (hs : s.DexFiled) (hseller : EncodedAddress seller)
    (hp : offer.property < 2 ^ 32) :
    (s.setOffer (strSellofferAddrPropCombo seller offer.property) offer).DexFiled where
  offers := by
    intro key o ho
    rw [NodeState.setOffer, OrderedMap.get?_set] at ho
    split_ifs at ho with hkey
    · cases ho
      exact ⟨seller, hseller, hp, hkey⟩
    · exact hs.offers key o ho
  accepts := hs.accepts

theorem eraseOffer (hs : s.DexFiled) : (s.eraseOffer key).DexFiled where
  offers := by
    intro key o ho
    rw [NodeState.eraseOffer, OrderedMap.get?_erase] at ho
    split_ifs at ho
    exact hs.offers key o ho
  accepts := hs.accepts

theorem setAccept (hs : s.DexFiled) (h : ∃ seller buyer, EncodedAddress seller ∧
      EncodedAddress buyer ∧ accept.property < 2 ^ 32 ∧
      key = strAcceptAddrPropAddrCombo seller buyer accept.property) :
    (s.setAccept key accept).DexFiled where
  offers := hs.offers
  accepts := by
    intro key' a ha
    rw [NodeState.setAccept, OrderedMap.get?_set] at ha
    split_ifs at ha with hkey
    · cases ha
      exact hkey ▸ h
    · exact hs.accepts key' a ha

theorem eraseAccept (hs : s.DexFiled) : (s.eraseAccept key).DexFiled where
  offers := hs.offers
  accepts := by
    intro key a ha
    rw [NodeState.eraseAccept, OrderedMap.get?_erase] at ha
    split_ifs at ha
    exact hs.accepts key a ha

theorem offerCreate (hs : s.DexFiled) (hseller : EncodedAddress seller) (hp : p < 2 ^ 32)
    (h : s.offerCreate seller p amount block desired minFee window txid = .ok (rc, s')) :
    s'.DexFiled := by
  rcases offerCreate_cases h with ⟨-, rfl⟩ | ⟨-, m, offer, rfl, hm, rfl⟩
  · exact hs
  · exact (hs.of_posted hm).setOffer hseller hp

theorem offerDestroy (hs : s.DexFiled) (h : s.offerDestroy seller p = .ok (rc, s')) :
    s'.DexFiled := by
  rcases offerDestroy_cases h with ⟨-, -, rfl⟩ | ⟨-, -, m, hm, rfl⟩
  · exact hs
  · exact (hs.of_posted hm).eraseOffer

theorem offerUpdate (hs : s.DexFiled) (hseller : EncodedAddress seller) (hp : p < 2 ^ 32)
    (h : s.offerUpdate seller p amount block desired minFee window txid = .ok (rc, s')) :
    s'.DexFiled := by
  unfold NodeState.offerUpdate at h
  split_ifs at h
  · obtain ⟨⟨rc', m⟩, hm, h⟩ := bind_eq_ok.mp h
    dsimp only at h
    split_ifs at h
    · exact (hs.offerDestroy hm).offerCreate hseller hp h
    · cases h
      exact hs.offerDestroy hm
  · cases h
    exact hs

theorem acceptCreate (hs : s.DexFiled) (hseller : EncodedAddress seller)
    (hbuyer : EncodedAddress buyer)
    (h : s.acceptCreate buyer seller p amount block feePaid = .ok (rc, s')) : s'.DexFiled := by
  rcases acceptCreate_cases h with ⟨-, rfl⟩ | ⟨-, n, m, offer, accept, hoffer, hprop, hm, rfl⟩
  · exact hs
  · obtain ⟨seller', -, hp, hkey⟩ := hs.offers _ _ hoffer
    obtain ⟨-, hid⟩ := (offerKey_inj hseller.plainAddress).mp hkey
    apply (hs.of_posted hm).setAccept
    exact ⟨seller, buyer, hseller, hbuyer, hprop ▸ hp, by rw [hprop, hid]⟩

theorem acceptDestroy (hs : s.DexFiled)
    (h : s.acceptDestroy buyer seller p force = .ok (rc, s')) : s'.DexFiled := by
  unfold NodeState.acceptDestroy at h
  split at h
  · cases h
    exact hs
  · obtain ⟨m, hm, h⟩ := bind_eq_ok.mp h
    have hfiled := hs.of_posted (posted_of_assertTallies hm)
    cases h
    split_ifs
    · exact hfiled.eraseAccept
    · exact hfiled

theorem finishAccept (hs : s.DexFiled) (h : s.finishAccept seller buyer p = .ok s') :
    s'.DexFiled := by
  obtain ⟨⟨rc, m⟩, hm, h⟩ := bind_eq_ok.mp h
  dsimp only at h
  split_ifs at h
  · obtain ⟨⟨rc', m'⟩, hm', h⟩ := bind_eq_ok.mp h
    cases h
    exact (hs.acceptDestroy hm).offerDestroy hm'
  · cases h
    exact hs.acceptDestroy hm

theorem payment (hs : s.DexFiled) (h : s.payment env seller buyer amount block = .ok (rc, s')) :
    s'.DexFiled := by
  unfold NodeState.payment at h
  split at h
  case h_1 =>
    cases h
    exact hs
  case h_2 found hfound =>
    split_ifs at h with hz
    · cases h
      exact hs
    · obtain ⟨n, -, h⟩ := bind_eq_ok.mp h
      obtain ⟨m, hm, h⟩ := bind_eq_ok.mp h
      have hfiled := hs.accepts _ _ (found_mem hfound)
      have hpaid : ∀ n, (m.setAccept found.key
          { found.accept with acceptAmountRemaining := n }).DexFiled := fun n =>
        (hs.of_posted (posted_of_assertTallies hm)).setAccept hfiled
      dsimp only at h
      by_cases hd : found.accept.acceptAmountRemaining ≤ min n found.accept.acceptAmountRemaining
      · rw [if_pos hd] at h
        obtain ⟨m', hm', h⟩ := bind_eq_ok.mp h
        cases h
        exact (hpaid _).finishAccept hm'
      · rw [if_neg hd] at h
        cases h
        exact hpaid _

theorem eraseExpiredLoop {accepts : List (List Char × Accept)} (hs : s.DexFiled)
    (h : NodeState.eraseExpiredLoop block s accepts = .ok s') : s'.DexFiled := by
  induction accepts generalizing s with
  | nil =>
    cases h
    exact hs
  | cons e accepts ih =>
    unfold NodeState.eraseExpiredLoop at h
    split_ifs at h
    · split at h
      · obtain ⟨⟨rc, m⟩, hm, h⟩ := bind_eq_ok.mp h
        exact ih (hs.acceptDestroy hm).eraseAccept h
      · cases h
    · exact ih hs h

theorem run (hs : s.DexFiled) (hop : op.Encoded) (h : op.run env block s = .ok (rc, s')) :
    s'.DexFiled := by
  cases op with
  | offerCreate => exact hs.offerCreate hop.1 hop.2 h
  | offerDestroy => exact hs.offerDestroy h
  | offerUpdate => exact hs.offerUpdate hop.1 hop.2 h
  | acceptCreate => exact hs.acceptCreate hop.1 hop.2 h
  | acceptDestroy => exact hs.acceptDestroy h
  | payment => exact hs.payment h
  | eraseExpiredAccepts =>
    obtain ⟨m, hm, hr⟩ := exists_ok_of_map h
    cases hr
    exact hs.eraseExpiredLoop hm
  | _ => cases hop

theorem runOperations (hs : s.DexFiled) (hcalls : ∀ c ∈ calls, c.2.Encoded)
    (h : s.runOperations env calls = .ok s') : s'.DexFiled := by
  induction calls generalizing s with
  | nil =>
    cases h
    exact hs
  | cons c calls ih =>
    obtain ⟨hc, hrest⟩ := List.forall_mem_cons.mp hcalls
    obtain ⟨⟨rc, m⟩, hm, h⟩ := bind_eq_ok.mp h
    exact ih (hs.run hc hm) hrest h

theorem of_empty (hoffers : s.myOffers = ∅) (haccepts : s.myAccepts = ∅) : s.DexFiled where
  offers := by
    intro key o ho
    rw [hoffers] at ho
    cases ho
  accepts := by
    intro key a ha
    rw [haccepts] at ha
    cases ha

end DexFiled

end NodeState

end TradeLayer
