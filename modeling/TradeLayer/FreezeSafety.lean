import TradeLayer.Reach

namespace TradeLayer
open Library

def Abort.IsFrozen : Abort → Prop
  | .addressFrozen _ _ => True
  | _ => False

abbrev FreezeSafe {α : Type} (x : Except Abort α) : Prop := Avoids Abort.IsFrozen x

/-- A class of errors that the computation of numbers never ends with. -/
structure Abort.OfUpdates (E : Abort → Prop) : Prop where
  range : ¬ E .rangeAssert
  division : ¬ E .divisionByZero
  assertion : ¬ E .assertion
  undefined : ¬ E .undefined

theorem Abort.ofUpdates_isFrozen : Abort.OfUpdates Abort.IsFrozen :=
  ⟨not_false, not_false, not_false, not_false⟩

section Arithmetic

variable {E : Abort → Prop} {x : Int} {n d : Nat}
variable {p : PropertyId} {acc : OwnerAddrType}

theorem avoids_convertTo256 (hE : Abort.OfUpdates E) : Avoids E (convertTo256 x) :=
  .ite (fun _ => .ok) fun _ => .error hE.range

theorem avoids_convertTo64 (hE : Abort.OfUpdates E) : Avoids E (convertTo64 n) :=
  .ite (fun _ => .ok) fun _ => .error hE.range

theorem avoids_checked64 (hE : Abort.OfUpdates E) : Avoids E (checked64 x) :=
  .ite (fun _ => .ok) fun _ => .error hE.undefined

theorem freezeSafe_convertTo256 : FreezeSafe (convertTo256 x) :=
  avoids_convertTo256 Abort.ofUpdates_isFrozen

theorem freezeSafe_convertTo64 : FreezeSafe (convertTo64 n) :=
  avoids_convertTo64 Abort.ofUpdates_isFrozen

theorem freezeSafe_divide256 : FreezeSafe (divide256 n d) :=
  .ite (fun _ => .error not_false) fun _ => .ok

theorem freezeSafe_divideAndRoundUp : FreezeSafe (divideAndRoundUp n d) :=
  .ite (fun _ => .ok) fun _ => freezeSafe_divide256.bind fun _ _ => .ok

theorem freezeSafe_checked64 : FreezeSafe (checked64 x) :=
  avoids_checked64 Abort.ofUpdates_isFrozen

theorem freezeSafe_addTokens {tally : Tally} : FreezeSafe (addTokens tally p x) :=
  .foldlM fun _ _ _ => freezeSafe_checked64

theorem freezeSafe_collectOwners {sender : Address}
    {owners : List (Address × Tally)} {total : Int} :
    FreezeSafe (collectOwners sender p owners total acc) := by
  induction owners generalizing total acc with
  | nil => exact .ok
  | cons owner owners ih =>
    apply Avoids.bind freezeSafe_addTokens
    intro tokens _
    exact .ite (fun _ => ih) fun _ => freezeSafe_checked64.bind fun _ _ => ih

theorem freezeSafe_splitAmount {amount total sent : Int} {owners : List (Int × Address)} :
    FreezeSafe (splitAmount amount total owners sent acc) := by
  induction owners generalizing sent acc with
  | nil => exact .ok
  | cons owner owners ih =>
    apply freezeSafe_convertTo256.bind
    intro owns _
    apply freezeSafe_convertTo256.bind
    intro amount256 _
    apply freezeSafe_convertTo256.bind
    intro total256 _
    apply freezeSafe_divideAndRoundUp.bind
    intro piece _
    apply freezeSafe_convertTo64.bind
    intro shouldReceive _
    exact .ite (fun _ => ih) fun _ => .ok

theorem freezeSafe_stoGetReceivers {l : Ledger} {sender : Address} {amount : Int} :
    FreezeSafe (stoGetReceivers l sender p amount) :=
  freezeSafe_collectOwners.bind fun _ _ => freezeSafe_splitAmount

end Arithmetic

def Ledger.Unfrozen (l : Ledger) (ps : List (Posting Account)) : Prop :=
  ∀ x ∈ ps, ¬ l.DebitsFrozen x.account.owner x.account.property x.amount x.account.ttype

namespace Ledger.Unfrozen

variable {l l' : Ledger} {ps qs : List (Posting Account)} {k k' : Account} {n : Int}

theorem nil : Unfrozen l [] := by
  intro x hx
  cases hx

theorem cons {x : Posting Account}
    (hx : ¬ l.DebitsFrozen x.account.owner x.account.property x.amount x.account.ttype)
    (h : Unfrozen l ps) : Unfrozen l (x :: ps) :=
  List.forall_mem_cons.mpr ⟨hx, h⟩

theorem append (h : Unfrozen l ps) (h' : Unfrozen l qs) : Unfrozen l (ps ++ qs) :=
  List.forall_mem_append.mpr ⟨h, h'⟩

theorem congr (h : Unfrozen l ps) (hf : l'.freeze = l.freeze) : Unfrozen l' ps := by
  intro x hx
  rw [DebitsFrozen, hf]
  exact h x hx

theorem credit (h : 0 ≤ n) : ¬ l.DebitsFrozen k.owner k.property n k.ttype :=
  fun hd => absurd hd.2.1 (not_lt.mpr h)

theorem reserve (h : k.ttype ≠ .balance) : ¬ l.DebitsFrozen k.owner k.property n k.ttype :=
  fun hd => h hd.1

theorem free (h : l.freeze.isAddressFrozen k.owner k.property = false) :
    ¬ l.DebitsFrozen k.owner k.property n k.ttype :=
  fun hd => absurd hd.2.2 (by rw [h]; exact Bool.false_ne_true)

theorem transfer (hk : k.ttype ≠ .balance ∨ l.freeze.isAddressFrozen k.owner k.property = false)
    (hn : 0 ≤ n) : Unfrozen l (Posting.transfer k k' n) :=
  cons (hk.elim reserve free) (cons (credit hn) nil)

theorem wireTransfer {n : UInt64} (hk : l.freeze.isAddressFrozen k.owner k.property = false)
    (hn : n.toNat < 2 ^ 63) : Unfrozen l (wireTransfer k k' n) := by
  rw [wireTransfer_eq hn]
  exact transfer (.inr hk) (Int.natCast_nonneg _)

theorem ite {P : Prop} [Decidable P] (h : P → Unfrozen l ps) :
    Unfrozen l (if P then ps else []) := by
  split_ifs with hP
  · exact h hP
  · exact nil

end Ledger.Unfrozen

namespace NodeState

variable {s : NodeState} {env : Environment} {allowed : PropertyId → Bool}
variable {tx : CMPTransaction} {p : PropertyId} {block amount : Int}

theorem freezeSafe_assertTallies {ps : List (Posting Account)} (h : s.ledger.Unfrozen ps) :
    FreezeSafe (s.assertTallies ps) := by
  intro e he hfrozen
  obtain ⟨x, hx, rfl | ⟨-, hd⟩⟩ := assertTallies_eq_error he
  · exact hfrozen
  · exact h x hx hd

theorem freezeSafe_assertTally {who : Address} {n : Int} {t : TallyType}
    (h : ¬ s.ledger.DebitsFrozen who p n t) : FreezeSafe (s.assertTally who p n t) := by
  have hone : s.assertTallies [⟨⟨who, p, t⟩, n⟩] = s.assertTally who p n t := by
    rw [assertTallies, List.foldlM_cons]
    cases s.assertTally who p n t <;> rfl
  rw [← hone]
  exact freezeSafe_assertTallies (.cons h .nil)

theorem freezeSafe_distributeCache : FreezeSafe (s.distributeCache env p block) := by
  apply freezeSafe_stoGetReceivers.bind
  intro receivers hr
  apply Avoids.bind
  · apply freezeSafe_assertTallies
    intro x hx
    obtain ⟨r, hmem, rfl⟩ := List.mem_map.mp hx
    exact Ledger.Unfrozen.credit (stoGetReceivers_pos hr r (List.mem_reverse.mp hmem)).le
  · intro m _
    exact .ite (fun _ => .ok) fun _ => .error not_false

theorem freezeSafe_evalCache : FreezeSafe (s.evalCache env p block) :=
  .ite (fun _ => freezeSafe_distributeCache) fun _ => .ok

theorem freezeSafe_addFee : FreezeSafe (s.addFee env p block amount) :=
  freezeSafe_checked64.bind fun _ _ => freezeSafe_evalCache

theorem freezeSafe_getTotalTokens : FreezeSafe (s.getTotalTokens p) := by
  rw [getTotalTokens]
  split
  · exact .ok
  · apply Avoids.ite
    · exact fun _ => .ok
    · intro _
      apply Avoids.bind
      · exact .foldlM fun _ _ _ => freezeSafe_addTokens
      · exact fun _ _ => freezeSafe_checked64

theorem freezeSafe_notifyTotalTokensChanged :
    FreezeSafe (s.notifyTotalTokensChanged env p block) :=
  (freezeSafe_getTotalTokens.bind fun _ _ => .ok).bind fun _ _ => freezeSafe_evalCache

abbrev SenderFree (s : NodeState) (tx : CMPTransaction) : Prop :=
  s.ledger.freeze.isAddressFrozen tx.sender tx.property = false

theorem freezeSafe_logicMathSimpleSend (hfree : s.SenderFree tx) :
    FreezeSafe (s.logicMathSimpleSend allowed tx) := by
  rw [logicMathSimpleSend]
  split_ifs with hallowed hrange
  · exact .ok
  · exact .ok
  · have hlt := (valueOutOfRange_eq_false.mp (by simpa using hrange)).2
    exact (freezeSafe_assertTallies (.wireTransfer hfree hlt)).bind fun _ _ => .ok
  · exact .ok
  · exact .ok

theorem freezeSafe_sendAllLoop {l : List PropertyId} {sent : Nat} :
    FreezeSafe (sendAllLoop tx l sent s) := by
  induction l generalizing sent s with
  | nil => exact .ok
  | cons p l ih =>
    rw [sendAllLoop]
    split_ifs with hzero hskip
    · exact .ok
    · exact ih
    · have hfree : s.ledger.freeze.isAddressFrozen tx.sender p = false := by
        simp only [sendAllSkips, Bool.or_eq_true, not_or, Bool.not_eq_true] at hskip
        exact hskip.2
      apply Avoids.ite
      · intro hpos
        apply Avoids.bind
        · exact freezeSafe_assertTallies (.transfer (.inr hfree) hpos.le)
        · exact fun _ _ => ih
      · exact fun _ => ih

theorem freezeSafe_logicMathSendAll : FreezeSafe (s.logicMathSendAll allowed tx) := by
  apply Avoids.ite
  · exact fun _ => .ok
  · intro _
    split
    · exact .ok
    · apply freezeSafe_sendAllLoop.bind
      intro r _
      exact .ite (fun _ => .ok) fun _ => .ok

theorem freezeSafe_stoExecute {receivers : OwnerAddrType} (hfree : s.SenderFree tx)
    (hbase : ∀ a p, s.ledger.freeze.isAddressFrozen a p = true →
      p ≠ tlPropertyMsc ∧ p ≠ tlPropertyTmsc)
    (hpos : ∀ r ∈ receivers, 0 < r.1) : FreezeSafe (s.stoExecute env tx receivers) := by
  have hfee : s.ledger.freeze.isAddressFrozen tx.sender (stoFeeProperty tx) = false := by
    rw [← Bool.not_eq_true]
    intro hfrozen
    have hne := hbase _ _ hfrozen
    rw [stoFeeProperty] at hne
    split_ifs at hne
    · exact hne.2 rfl
    · exact hne.1 rfl
  apply Avoids.bind
  · exact freezeSafe_assertTally fun hd => absurd hd.2.2 (by rw [hfee]; exact Bool.false_ne_true)
  intro m₁ h₁
  apply Avoids.bind
  · exact .ite (fun _ => .ok) fun _ => freezeSafe_addFee
  intro m₂ h₂
  have hfreeze : m₂.ledger.freeze = s.ledger.freeze := by
    have hcharge := (posted_of_assertTally h₁).2.freeze_eq
    rw [stoCreditFee] at h₂
    split_ifs at h₂
    · cases h₂
      exact hcharge
    · obtain ⟨ps, hp, -⟩ := (paidOut_of_addFee h₂).posted
      exact hp.freeze_eq.trans hcharge
  have hpostings : s.ledger.Unfrozen (stoPostings tx receivers) := by
    intro x hx
    obtain ⟨r, hr, hx⟩ := List.mem_flatMap.mp hx
    exact Ledger.Unfrozen.transfer (.inr hfree) (hpos r (List.mem_reverse.mp hr)).le x hx
  apply (freezeSafe_assertTallies (hpostings.congr hfreeze)).bind
  intro m₃ _
  apply Avoids.ite
  · exact fun _ => .error not_false
  · intro _
    apply Avoids.bind
    · exact .ite (fun _ => freezeSafe_notifyTotalTokensChanged) fun _ => .ok
    · exact fun _ _ => .ok

theorem freezeSafe_logicMathSendToOwners (hfree : s.SenderFree tx)
    (hbase : ∀ a p, s.ledger.freeze.isAddressFrozen a p = true →
      p ≠ tlPropertyMsc ∧ p ≠ tlPropertyTmsc) :
    FreezeSafe (s.logicMathSendToOwners env allowed tx) := by
  rw [logicMathSendToOwners]
  split_ifs
  · exact .ok
  · exact .ok
  · exact .ok
  · apply freezeSafe_stoGetReceivers.bind
    intro receivers hr
    have hexecute : FreezeSafe (s.stoExecute env tx receivers) :=
      freezeSafe_stoExecute hfree hbase (stoGetReceivers_pos hr)
    apply Avoids.ite
    · exact fun _ => .ok
    · intro _
      apply Avoids.ite
      · exact fun _ => .ite (fun _ => .ok) fun _ => hexecute
      · intro _
        apply freezeSafe_checked64.bind
        intro needed _
        exact .ite (fun _ => .ok) fun _ => hexecute
  · exact .ok
  · exact .ok

theorem freezeSafe_getSP : FreezeSafe (s.getSP p) := by
  rw [getSP]
  split
  · exact .ok
  · exact .error not_false

theorem freezeSafe_updateSP {sp : SPEntry} : FreezeSafe (s.updateSP p sp) := by
  rw [updateSP]
  split
  · exact .ok
  · exact .error not_false

theorem freezeSafe_logicMathGrantTokens : FreezeSafe (s.logicMathGrantTokens env allowed tx) := by
  rw [logicMathGrantTokens]
  split
  · exact .ok
  split_ifs with hallowed hrange
  · exact .ok
  · apply freezeSafe_getSP.bind
    intro sp _
    apply Avoids.ite
    · exact fun _ => .ok
    intro _
    apply Avoids.ite
    · exact fun _ => .ok
    intro _
    apply freezeSafe_getTotalTokens.bind
    intro total _
    apply Avoids.ite
    · exact fun _ => .ok
    intro _
    apply freezeSafe_updateSP.bind
    intro m₁ _
    have hlt := (valueOutOfRange_eq_false.mp (by simpa using hrange)).2
    have hcredit : 0 ≤ asInt64 tx.nValue := by
      rw [asInt64_of_lt hlt]
      exact Int.natCast_nonneg _
    apply Avoids.bind
    · exact freezeSafe_assertTally fun hd => absurd hd.2.1 (not_lt.mpr hcredit)
    · exact fun _ _ => freezeSafe_notifyTotalTokensChanged.bind fun _ _ => .ok
  · exact .ok
  · exact .ok

theorem freezeSafe_logicMathRevokeTokens (hfree : s.SenderFree tx) :
    FreezeSafe (s.logicMathRevokeTokens env allowed tx) := by
  have hexecute : ∀ sp blockHash, FreezeSafe (s.revokeExecute env tx sp blockHash) := by
    intro sp blockHash
    apply Avoids.bind
    · exact freezeSafe_assertTally fun hd =>
        absurd hd.2.2 (by rw [hfree]; exact Bool.false_ne_true)
    · exact fun _ _ => freezeSafe_updateSP.bind fun _ _ =>
        freezeSafe_notifyTotalTokensChanged.bind fun _ _ => .ok
  rw [logicMathRevokeTokens]
  split
  · exact .ok
  apply Avoids.ite
  · exact fun _ => .ok
  intro _
  apply Avoids.ite
  · exact fun _ => .ok
  intro _
  apply Avoids.ite
  · exact fun _ => .ok
  intro _
  apply freezeSafe_getSP.bind
  intro sp _
  apply Avoids.ite
  · exact fun _ => .ok
  · exact fun _ => .ite (fun _ => .ok) fun _ => hexecute _ _

end NodeState

namespace MetaDEx

variable {pnew pold : MetaDEx} {got : Int}

theorem freezeSafe_couldBuy : FreezeSafe (couldBuy pnew pold) := by
  apply freezeSafe_convertTo256.bind
  intro offered _
  apply freezeSafe_convertTo256.bind
  intro forSale _
  apply freezeSafe_convertTo256.bind
  intro desired _
  apply freezeSafe_divide256.bind
  intro iCouldBuy _
  apply freezeSafe_convertTo256.bind
  intro remaining _
  exact .ite (fun _ => freezeSafe_convertTo64) fun _ => .ok

theorem freezeSafe_wouldPay : FreezeSafe (wouldPay pold got) := by
  apply freezeSafe_convertTo256.bind
  intro bought _
  apply freezeSafe_convertTo256.bind
  intro desired _
  apply freezeSafe_convertTo256.bind
  intro forSale _
  exact freezeSafe_divideAndRoundUp.bind fun _ _ => freezeSafe_convertTo64

theorem freezeSafe_fill : FreezeSafe (fill pnew pold) := by
  apply Avoids.ite
  · exact fun _ => .ok
  intro _
  apply Avoids.ite
  · exact fun _ => .error not_false
  intro _
  apply freezeSafe_couldBuy.bind
  intro nCouldBuy _
  apply Avoids.ite
  · exact fun _ => .ok
  intro _
  apply freezeSafe_wouldPay.bind
  intro nWouldPay _
  exact .ite (fun _ => .ok) fun _ => .ite (fun _ => .error not_false) fun _ => .ok

end MetaDEx

namespace NodeState

variable {s s' m : NodeState} {env : Environment} {allowed : PropertyId → Bool}
variable {tx : CMPTransaction} {seller : Address} {p q : PropertyId}
variable {amount block desired minFee : Int} {window txid idx : Nat}

section Offers

theorem freezeSafe_offerCreate (hfree : s.ledger.freeze.isAddressFrozen seller p = false) :
    FreezeSafe (s.offerCreate seller p amount block desired minFee window txid) := by
  rw [offerCreate]
  split_ifs with h₁ h₂ h₃ h₄ hpos
  · exact .ok
  · exact .ok
  · exact .ok
  · exact .ok
  · exact (freezeSafe_assertTallies (.transfer (.inr hfree) hpos.le)).bind fun _ _ => .ok
  · exact .ok

theorem freezeSafe_offerDestroy : FreezeSafe (s.offerDestroy seller p) := by
  apply Avoids.ite
  · intro _
    apply Avoids.bind
    · apply freezeSafe_assertTallies
      apply Ledger.Unfrozen.ite
      intro hpos
      exact .transfer (.inl nofun) hpos.le
    · exact fun _ _ => .ok
  · exact fun _ => .ok

theorem freezeSafe_offerUpdate (hfree : s.ledger.freeze.isAddressFrozen seller p = false) :
    FreezeSafe (s.offerUpdate seller p amount block desired minFee window txid) := by
  apply Avoids.ite
  · intro _
    apply freezeSafe_offerDestroy.bind
    intro r hr
    obtain ⟨rc, m⟩ := r
    obtain ⟨ps, hp, -⟩ := (dexTransfers_of_offerDestroy hr).posted
    apply Avoids.ite
    · intro _
      apply freezeSafe_offerCreate
      rw [hp.freeze_eq]
      exact hfree
    · exact fun _ => .ok
  · exact fun _ => .ok

theorem freezeSafe_logicMathTradeOffer (hfree : s.SenderFree tx) :
    FreezeSafe (s.logicMathTradeOffer allowed tx) := by
  have hcreate : FreezeSafe (s.tradeOfferCreate tx) := freezeSafe_offerCreate hfree
  have hupdate : FreezeSafe (s.tradeOfferUpdate tx) := freezeSafe_offerUpdate hfree
  have hdestroy : FreezeSafe (s.offerDestroy tx.sender tx.property) := freezeSafe_offerDestroy
  rw [logicMathTradeOffer, tradeOfferV0, tradeOfferV1]
  split_ifs
  all_goals first
    | exact .ok
    | exact hcreate
    | exact hupdate
    | exact hdestroy

end Offers

section Orders

variable {pnew pnew' pold : MetaDEx} {price : ℚ} {got paid : Int}
variable {orders : List MetaDEx}

abbrev SellerFree (s : NodeState) (o : MetaDEx) : Prop :=
  s.ledger.freeze.isAddressFrozen o.addr o.property = false

theorem freeze_chargeFee {fee : Option Int} (h : s.chargeFee env pnew fee = .ok m) :
    m.ledger.freeze = s.ledger.freeze := by
  cases fee with
  | none =>
    cases h
    rfl
  | some fee =>
    obtain ⟨ps, hp, -⟩ := (paidOut_of_addFee h).posted
    exact hp.freeze_eq

theorem tradingFee_le (hgot : 0 ≤ got) : (s.tradingFee pnew pold got).getD 0 ≤ got := by
  rw [tradingFee]
  split_ifs
  · exact Int.tdiv_le_self _ hgot
  · exact hgot

theorem freezeSafe_executeTrade (hfree : s.SellerFree pnew)
    (hfill : MetaDEx.fill pnew pold = .ok (some (got, paid))) :
    FreezeSafe (s.executeTrade env price pnew pold got paid) := by
  obtain ⟨-, -, hgot, hpaid⟩ := MetaDEx.fill_eq_some hfill
  have hfee : (s.tradingFee pnew pold got).getD 0 ≤ got := tradingFee_le hgot.le
  apply Avoids.bind
  · cases s.tradingFee pnew pold got with
    | none => exact .ok
    | some fee => exact freezeSafe_addFee
  intro m hm
  apply Avoids.bind
  · apply freezeSafe_assertTallies
    have hfreeze := freeze_chargeFee hm
    apply Ledger.Unfrozen.cons
    · apply Ledger.Unfrozen.free
      rw [hfreeze]
      exact hfree
    apply Ledger.Unfrozen.cons
    · exact Ledger.Unfrozen.credit hpaid
    apply Ledger.Unfrozen.cons
    · exact Ledger.Unfrozen.reserve nofun
    · exact .cons (Ledger.Unfrozen.credit (sub_nonneg.mpr hfee)) .nil
  · exact fun _ _ => .ok

theorem freezeSafe_matchOrder (hfree : s.SellerFree pnew) :
    FreezeSafe (s.matchOrder env price pnew pold) := by
  apply Avoids.ite
  · exact fun _ => .error not_false
  intro _
  apply MetaDEx.freezeSafe_fill.bind
  intro fill hfill
  match fill with
  | none => exact .ok
  | some (got, paid) => exact (freezeSafe_executeTrade hfree hfill).bind fun _ _ => .ok

theorem sellerFree_of_matchOrder (hfree : s.SellerFree pnew)
    (h : s.matchOrder env price pnew pold = .ok (pnew', s')) : s'.SellerFree pnew' := by
  rw [matchOrder] at h
  split_ifs at h
  obtain ⟨fill, hfill, h⟩ := bind_eq_ok.mp h
  match fill with
  | none =>
    cases h
    exact hfree
  | some (got, paid) =>
    obtain ⟨m, hm, h⟩ := bind_eq_ok.mp h
    cases h
    obtain ⟨m₁, h₁, hm⟩ := bind_eq_ok.mp hm
    obtain ⟨m₂, h₂, hm⟩ := bind_eq_ok.mp hm
    cases hm
    have hfreeze := (posted_of_assertTallies h₂).2.freeze_eq.trans (freeze_chargeFee h₁)
    show m₂.ledger.freeze.isAddressFrozen pnew.addr pnew.property = false
    rw [hfreeze]
    exact hfree

theorem freezeSafe_xTradeLevel (hfree : s.SellerFree pnew) :
    FreezeSafe (xTradeLevel env price orders pnew s) := by
  induction orders generalizing pnew s with
  | nil => exact .ok
  | cons pold orders ih =>
    apply (freezeSafe_matchOrder hfree).bind
    intro r hr
    exact .ite (fun _ => .ok) fun _ => ih (sellerFree_of_matchOrder hfree hr)

theorem sellerFree_of_xTradeLevel (hfree : s.SellerFree pnew)
    (h : xTradeLevel env price orders pnew s = .ok (pnew', s')) : s'.SellerFree pnew' := by
  induction orders generalizing pnew s with
  | nil =>
    cases h
    exact hfree
  | cons pold orders ih =>
    obtain ⟨⟨pmid, m⟩, hm, h⟩ := bind_eq_ok.mp h
    have hmid := sellerFree_of_matchOrder hfree hm
    dsimp only at h
    split_ifs at h
    · cases h
      exact hmid
    · exact ih hmid h

theorem freezeSafe_xTradeLevels {levels : List (ℚ × Keyed MetaDEx.position)}
    (hfree : s.SellerFree pnew) : FreezeSafe (xTradeLevels env levels pnew s) := by
  induction levels generalizing pnew s with
  | nil => exact .ok
  | cons e levels ih =>
    apply Avoids.ite
    · exact fun _ => ih hfree
    · intro _
      apply (freezeSafe_xTradeLevel hfree).bind
      intro r hr
      exact .ite (fun _ => .ok) fun _ => ih (sellerFree_of_xTradeLevel hfree hr)

theorem freezeSafe_metaDExAdd (hfree : s.ledger.freeze.isAddressFrozen seller p = false) :
    FreezeSafe (s.metaDExAdd env seller p amount block q desired txid idx) := by
  apply Avoids.ite
  · exact fun _ => .ok
  intro _
  have hnew : s.SellerFree (.incoming seller block p amount q desired txid idx) := hfree
  apply Avoids.bind
  · rw [xTrade]
    split
    · exact .ok
    · exact freezeSafe_xTradeLevels hnew
  intro r hr
  obtain ⟨o, m⟩ := r
  have hkeeps : Keeps (toLex (block, idx)) s m := .of_trades (trades_of_xTrade hr)
  have hfreeze := hkeeps.spares.freeze_eq
  apply Avoids.ite
  · intro hpos
    rw [metaDExInsert]
    split_ifs
    · exact .ok
    · apply Avoids.bind
      · apply freezeSafe_assertTallies
        apply Ledger.Unfrozen.transfer _ hpos.le
        right
        show m.ledger.freeze.isAddressFrozen seller p = false
        rw [hfreeze]
        exact hfree
      · exact fun _ _ => .ok
  · exact fun _ => .ok

theorem freezeSafe_logicMathMetaDExTrade (hfree : s.SenderFree tx) :
    FreezeSafe (s.logicMathMetaDExTrade env allowed tx) := by
  rw [logicMathMetaDExTrade]
  split
  · exact .ok
  · split_ifs
    · exact .ok
    · exact .ok
    · exact freezeSafe_metaDExAdd hfree

end Orders

end NodeState

end TradeLayer
