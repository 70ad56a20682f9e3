import TradeLayer.ContractMatches

namespace TradeLayer
open Library

namespace ContractDex

variable {pnew pold : ContractDex}

theorem nCouldBuy_eq_min : nCouldBuy pnew pold = min pnew.amountForSale pold.amountForSale := by
  rw [nCouldBuy, buyer, seller]
  split_ifs
  · rfl
  · exact min_comm _ _

theorem remaining_eq : remaining pnew pold = |pnew.amountForSale - pold.amountForSale| := by
  rw [remaining, buyer, seller]
  split_ifs
  · exact abs_sub_comm _ _
  · rfl

theorem afterMatch_of_action
    (h : pold.tradingAction = actionBuy ∨ pold.tradingAction = actionSell) :
    afterMatch pnew pold =
      ({ pold with amountForSale := pold.amountForSale - nCouldBuy pnew pold },
        { pnew with amountForSale := pnew.amountForSale - nCouldBuy pnew pold }) := by
  have hbuy : actionBuy ≠ actionSell := by decide
  rw [nCouldBuy_eq_min, afterMatch, remaining_eq, seller, buyer]
  rcases h with h | h
  · rw [h, if_neg hbuy, if_neg hbuy]
    simp only [hbuy, and_false, and_true, false_or]
    rcases lt_trichotomy pnew.amountForSale pold.amountForSale with hlt | heq | hlt
    · rw [if_pos hlt, min_eq_left hlt.le, abs_of_neg (by omega)]
      simp
    · rw [if_neg heq.not_lt, if_neg heq.not_gt, if_pos heq, heq]
      simp
    · rw [if_neg hlt.not_gt, if_pos hlt, min_eq_right hlt.le, abs_of_pos (by omega)]
      simp
  · rw [h, if_pos rfl, if_pos rfl]
    simp only [hbuy.symm, and_false, and_true, or_false]
    rcases lt_trichotomy pnew.amountForSale pold.amountForSale with hlt | heq | hlt
    · rw [if_pos hlt, min_eq_left hlt.le, abs_of_neg (by omega)]
      simp
    · rw [if_neg heq.not_lt, if_neg heq.not_gt, if_pos heq.symm, heq]
      simp
    · rw [if_neg hlt.not_gt, if_pos hlt, min_eq_right hlt.le, abs_of_pos (by omega)]
      simp

/-- The orders that a new order of an amount takes something from. One that neither buys nor
sells stays as it is unless the amounts are equal. -/
def trades (n : Int) (pold : ContractDex) : Bool :=
  pold.tradingAction = actionBuy ∨ pold.tradingAction = actionSell ∨ pold.amountForSale = n

theorem afterMatch_of_trades (h : trades pnew.amountForSale pold = true)
    (hle : pnew.amountForSale ≤ pold.amountForSale) :
    afterMatch pnew pold =
      ({ pold with amountForSale := pold.amountForSale - pnew.amountForSale },
        { pnew with amountForSale := 0 }) := by
  by_cases haction : pold.tradingAction = actionBuy ∨ pold.tradingAction = actionSell
  · rw [afterMatch_of_action haction, nCouldBuy_eq_min, min_eq_left hle, sub_self]
  · have heq : pold.amountForSale = pnew.amountForSale := by
      have h' := of_decide_eq_true h
      tauto
    obtain ⟨hbuy, hsell⟩ := not_or.mp haction
    simp only [afterMatch, seller, buyer, hbuy, hsell, if_false, and_false, or_self, heq, sub_self,
      if_true]

theorem afterMatch_of_not_trades (h : trades pnew.amountForSale pold = false) :
    afterMatch pnew pold = (pold, pnew) := by
  have h' := of_decide_eq_false h
  obtain ⟨hbuy, hsell⟩ := not_or.mp h'
  obtain ⟨hsell, hne⟩ := not_or.mp hsell
  simp only [afterMatch, seller, buyer, hbuy, hsell, if_false, and_false, or_self, Ne.symm hne]

theorem afterMatch_eq_of_trades (h : trades pnew.amountForSale pold = true) :
    afterMatch pnew pold =
      ({ pold with amountForSale := pold.amountForSale - nCouldBuy pnew pold },
        { pnew with amountForSale := pnew.amountForSale - nCouldBuy pnew pold }) := by
  by_cases haction : pold.tradingAction = actionBuy ∨ pold.tradingAction = actionSell
  · exact afterMatch_of_action haction
  · have heq : pold.amountForSale = pnew.amountForSale := by
      simp only [trades, decide_eq_true_eq] at h
      tauto
    rw [afterMatch_of_trades h heq.ge, nCouldBuy_eq_min, heq, min_self, sub_self]

theorem afterMatch_snd : (afterMatch pnew pold).2 = { pnew with
    amountForSale := if trades pnew.amountForSale pold then
      pnew.amountForSale - nCouldBuy pnew pold else pnew.amountForSale } := by
  cases h : trades pnew.amountForSale pold with
  | true => rw [afterMatch_eq_of_trades h, if_pos rfl]
  | false => rw [afterMatch_of_not_trades h, if_neg Bool.false_ne_true]

section Amounts

variable {n : Int} {met : List ContractDex}

def HasSide (o : ContractDex) : Prop := o.tradingAction = actionBuy ∨ o.tradingAction = actionSell

instance (o : ContractDex) : Decidable o.HasSide := inferInstanceAs (Decidable (_ ∨ _))

def offered (met : List ContractDex) : Int :=
  ((met.filter fun o => o.HasSide).map amountForSale).sum

/-- An order on neither side asks for just what the orders before it leave of an amount. -/
def UsedUp (n : Int) (met : List ContractDex) : Prop :=
  ∃ k < met.length, ∃ o ∈ met[k]?, ¬ o.HasSide ∧ offered (met.take k) + o.amountForSale = n

instance : Decidable (UsedUp n met) := inferInstanceAs (Decidable (∃ k < _, _))

/-- What the orders met so far leave of an amount: none if they have as much, or the rest. -/
def openAfter (n : Int) (met : List ContractDex) : Int :=
  if UsedUp n met then 0 else max (min n 0) (n - offered met)

theorem openAfter_nil : openAfter n [] = n := by
  have hoffered : offered [] = 0 := rfl
  rw [openAfter, if_neg fun ⟨k, hk, _⟩ => Nat.not_lt_zero k hk, hoffered, sub_zero]
  exact max_eq_right (min_le_left n 0)

theorem offered_concat :
    offered (met ++ [pold]) = offered met + if pold.HasSide then pold.amountForSale else 0 := by
  rw [offered, List.filter_append, List.map_append, List.sum_append, offered]
  split_ifs with hside
  · simp [hside]
  · simp [hside]

theorem usedUp_concat : UsedUp n (met ++ [pold]) ↔
    UsedUp n met ∨ ¬ pold.HasSide ∧ offered met + pold.amountForSale = n := by
  rw [UsedUp, List.length_append, List.length_singleton, Nat.exists_lt_succ_right, UsedUp]
  refine or_congr (exists_congr fun k => and_congr_right fun hk => ?_) ?_
  · rw [List.take_append_of_le_length hk.le, List.getElem?_append_left hk]
  · simp

theorem openAfter_concat (hn : 0 ≤ n) (ha : 0 ≤ pold.amountForSale) : openAfter n (met ++ [pold]) =
    if trades (openAfter n met) pold then
      openAfter n met - min (openAfter n met) pold.amountForSale
    else openAfter n met := by
  have htrades : trades (openAfter n met) pold = true ↔
      pold.HasSide ∨ pold.amountForSale = openAfter n met := by
    simp only [trades, HasSide, decide_eq_true_eq, or_assoc]
  simp only [htrades]
  simp only [openAfter, usedUp_concat, offered_concat]
  by_cases hside : pold.HasSide
  · simp only [hside, not_true, false_and, or_false, true_or, if_true]
    split_ifs <;> omega
  · by_cases hused : UsedUp n met
    all_goals
      simp only [hused, hside, not_false_eq_true, true_and, true_or, false_or, if_true, if_false,
        add_zero]
      split_ifs <;> omega

end Amounts

theorem seller_ne_buyer (h : pold.addr ≠ pnew.addr) :
    (seller pnew pold).addr ≠ (buyer pnew pold).addr := by
  rw [seller, buyer]
  split_ifs
  · exact h
  · exact h.symm

end ContractDex

def Opposite (reduced opened : TallyType) : Prop :=
  reduced = .positiveBalance ∧ opened = .negativeBalance ∨
    reduced = .negativeBalance ∧ opened = .positiveBalance

namespace NodeState

variable {l : Ledger} {who a : Address} {c q : PropertyId} {n : Int} {t reduced opened : TallyType}
variable {pnew pold : ContractDex} {P : Account → Prop} [DecidablePred P]

def netted (l : Ledger) (who : Address) (c : PropertyId) (n : Int) (reduced : TallyType) : Int :=
  min (l.money who c reduced) n

theorem net_positionPostings (hside : Opposite reduced opened) (hn : 0 ≤ n)
    (hheld : 0 ≤ l.money who c reduced) :
    Posting.net P (positionPostings l who c n reduced opened) =
      (if P ⟨who, c, reduced⟩ then -netted l who c n reduced else 0) +
        (if P ⟨who, c, opened⟩ then n - netted l who c n reduced else 0) := by
  have hbalance : l.getTokenBalance who c reduced = l.money who c reduced := by
    rcases hside with ⟨rfl, -⟩ | ⟨rfl, -⟩ <;> rfl
  rw [positionPostings, hbalance, netted]
  split_ifs with hne hle
  all_goals simp_all only [Posting.net_cons, Posting.net_nil, if_true, if_false]
  all_goals omega

def sellerNetted (l : Ledger) (pnew pold : ContractDex) : Int :=
  netted l (pnew.seller pold).addr pold.property (pnew.nCouldBuy pold)
    .positiveBalance

def buyerNetted (l : Ledger) (pnew pold : ContractDex) : Int :=
  netted l (pnew.buyer pold).addr pold.property (pnew.nCouldBuy pold)
    .negativeBalance

theorem net_matchPostings (hl : l.Nonneg) (hn : 0 ≤ pnew.nCouldBuy pold)
    (haddr : pold.addr ≠ pnew.addr) :
    Posting.net P (matchPostings l pnew pold) =
      (if P ⟨(pnew.seller pold).addr, pold.property, .positiveBalance⟩ then
          -sellerNetted l pnew pold else 0) +
        (if P ⟨(pnew.seller pold).addr, pold.property, .negativeBalance⟩ then
          pnew.nCouldBuy pold - sellerNetted l pnew pold else 0) +
        ((if P ⟨(pnew.buyer pold).addr, pold.property, .negativeBalance⟩ then
          -buyerNetted l pnew pold else 0) +
        (if P ⟨(pnew.buyer pold).addr, pold.property, .positiveBalance⟩ then
          pnew.nCouldBuy pold - buyerNetted l pnew pold else 0)) := by
  rw [matchPostings, if_pos haddr, Posting.net_append,
    net_positionPostings (.inl ⟨rfl, rfl⟩) hn (hl _ _ _ nofun),
    net_positionPostings (.inr ⟨rfl, rfl⟩) hn (hl _ _ _ nofun)]
  rfl

end NodeState

end TradeLayer
