import TradeLayer.FeeCache

namespace TradeLayer
open Library

namespace MetaDEx

variable (o : MetaDEx)

def incoming (addr : Address) (block : Int) (property : PropertyId) (amount : Int)
    (desProperty : PropertyId) (amountDesired : Int) (txid idx : Nat) : MetaDEx :=
  { addr, block, txid, idx, property, amountForSale := amount, desProperty, amountDesired,
    amountRemaining := amount }

def unitPrice : ℚ := o.amountDesired / o.amountForSale

def inversePrice : ℚ := o.amountForSale / o.amountDesired

def Matches (pnew pold : MetaDEx) : Prop :=
  0 < pold.amountRemaining ∧ 0 < pnew.amountRemaining ∧ pnew.property ≠ pnew.desProperty ∧
    pnew.property = pold.desProperty ∧ pold.property = pnew.desProperty ∧
    pold.unitPrice ≤ pnew.inversePrice ∧ pnew.unitPrice ≤ pold.inversePrice

/-- The assertions on the amount bought and the amount paid for it. -/
def FillsWithin (pnew pold : MetaDEx) (nCouldBuy nWouldPay : Int) : Prop :=
  pold.unitPrice ≤ (nWouldPay : ℚ) / nCouldBuy ∧
    (nWouldPay : ℚ) / nCouldBuy ≤ pnew.inversePrice ∧
    0 ≤ pold.amountRemaining - nCouldBuy ∧ 0 ≤ pnew.amountRemaining - nWouldPay

instance (pnew pold : MetaDEx) : Decidable (Matches pnew pold) :=
  inferInstanceAs (Decidable (_ ∧ _ ∧ _ ∧ _ ∧ _ ∧ _ ∧ _))

instance (pnew pold : MetaDEx) (x y : Int) : Decidable (FillsWithin pnew pold x y) :=
  inferInstanceAs (Decidable (_ ∧ _ ∧ _ ∧ _))

/-- How much the new order can buy of an old one, rounded down. -/
def couldBuy (pnew pold : MetaDEx) : Except Abort Int := do
  let offered ← convertTo256 pnew.amountRemaining
  let forSale ← convertTo256 pold.amountForSale
  let desired ← convertTo256 pold.amountDesired
  let iCouldBuy ← divide256 (offered * forSale) desired
  let remaining ← convertTo256 pold.amountRemaining
  if iCouldBuy < remaining then convertTo64 iCouldBuy else .ok pold.amountRemaining

def wouldPay (pold : MetaDEx) (nCouldBuy : Int) : Except Abort Int := do
  let bought ← convertTo256 nCouldBuy
  let desired ← convertTo256 pold.amountDesired
  let forSale ← convertTo256 pold.amountForSale
  let iWouldPay ← divideAndRoundUp (bought * desired) forSale
  convertTo64 iWouldPay

/-- The amounts a match exchanges, if the orders trade at all. -/
def fill (pnew pold : MetaDEx) : Except Abort (Option (Int × Int)) :=
  if pold.desProperty ≠ pnew.property then .ok none
  else if ¬ Matches pnew pold then .error .assertion
  else do
    let nCouldBuy ← couldBuy pnew pold
    if nCouldBuy = 0 then .ok none
    else do
      let nWouldPay ← wouldPay pold nCouldBuy
      -- no representable fill respects the price of the new order
      if pnew.inversePrice < (nWouldPay : ℚ) / nCouldBuy then .ok none
      else if ¬ FillsWithin pnew pold nCouldBuy nWouldPay then .error .assertion
      else .ok (some (nCouldBuy, nWouldPay))

variable {pnew pold : MetaDEx} {got paid : Int}

theorem couldBuy_nonneg (h : couldBuy pnew pold = .ok got) (hold : 0 < pold.amountRemaining) :
    0 ≤ got := by
  simp only [couldBuy, bind_eq_ok] at h
  obtain ⟨_, -, _, -, _, -, n, -, r, -, h⟩ := h
  split_ifs at h
  · rw [(convertTo64_eq_ok.mp h).1]
    exact Int.natCast_nonneg n
  · cases h
    exact hold.le

theorem wouldPay_nonneg (h : wouldPay pold got = .ok paid) : 0 ≤ paid := by
  simp only [wouldPay, bind_eq_ok] at h
  obtain ⟨_, -, _, -, _, -, n, -, h⟩ := h
  rw [(convertTo64_eq_ok.mp h).1]
  exact Int.natCast_nonneg n

theorem fill_eq_some (h : fill pnew pold = .ok (some (got, paid))) :
    Matches pnew pold ∧ FillsWithin pnew pold got paid ∧ 0 < got ∧ 0 ≤ paid := by
  unfold fill at h
  split_ifs at h with h₁ h₂
  · cases h
  obtain ⟨x, hx, h⟩ := bind_eq_ok.mp h
  split_ifs at h with h₃
  · cases h
  obtain ⟨y, hy, h⟩ := bind_eq_ok.mp h
  split_ifs at h with h₄ h₅
  · cases h
  cases h
  have hnonneg := couldBuy_nonneg hx h₂.1
  exact ⟨h₂, h₅, by omega, wouldPay_nonneg hy⟩

end MetaDEx

namespace NodeState

variable (s : NodeState) (e : PropertyId × ℚ × MetaDEx) (env : Environment) (senderAddr : Address)
variable (price : ℚ) (pnew : MetaDEx) (prop : PropertyId) (pold : MetaDEx)

/-- The fee of a match, none where the feature is off or a base property is involved. -/
def tradingFee (buyerAmountGot : Int) : Option Int :=
  if s.isFeatureActivated .fees pnew.block = true ∧ tlPropertyTmsc < pold.property ∧
      tlPropertyTmsc < pold.desProperty then
    some (buyerAmountGot.tdiv 2000)
  else none

def replaceOrder (property : PropertyId) (pold : MetaDEx) (amountLeft : Int) : NodeState :=
  let book := Book.remove s.metadex property price pold.position
  let rest := { pold with amountRemaining := amountLeft }
  { s with metadex := if 0 < amountLeft then Book.file book property price rest else book }

def tradePostings (got paid fee : Int) : List (Posting Account) :=
  [⟨⟨pnew.addr, pnew.property, .balance⟩, -paid⟩,
    ⟨⟨pold.addr, pold.desProperty, .balance⟩, paid⟩,
    ⟨⟨pold.addr, pold.property, .metadexReserve⟩, -got⟩,
    ⟨⟨pnew.addr, pnew.desProperty, .balance⟩, got - fee⟩]

def chargeFee : Option Int → Except Abort NodeState
  | some fee => s.addFee env pnew.desProperty pnew.block fee
  | none => .ok s

def executeTrade (got paid : Int) : Except Abort NodeState := do
  let fee := s.tradingFee pnew pold got
  let s ← s.chargeFee env pnew fee
  let s ← s.assertTallies (tradePostings pnew pold got paid (fee.getD 0))
  return s.replaceOrder price pnew.desProperty pold (pold.amountRemaining - got)

/-- The body of the inner loop of `xTrade`. -/
def matchOrder (sellersPrice : ℚ) (pnew pold : MetaDEx) : Except Abort (MetaDEx × NodeState) :=
  if pold.unitPrice ≠ sellersPrice then .error .assertion
  else do
    let fill ← MetaDEx.fill pnew pold
    match fill with
    | none => .ok (pnew, s)
    | some (got, paid) => do
      let s ← s.executeTrade env sellersPrice pnew pold got paid
      return ({ pnew with amountRemaining := pnew.amountRemaining - paid }, s)

/-- Matches against the orders of a price level until the new order is filled. A partly filled
order goes back to its place, behind the iterator. -/
def xTradeLevel (env : Environment) (sellersPrice : ℚ) :
    List MetaDEx → MetaDEx → NodeState → Except Abort (MetaDEx × NodeState)
  | [], pnew, s => .ok (pnew, s)
  | pold :: rest, pnew, s => do
    let (pnew, s) ← s.matchOrder env sellersPrice pnew pold
    if pnew.amountRemaining = 0 then .ok (pnew, s) else xTradeLevel env sellersPrice rest pnew s

def xTradeLevels (env : Environment) :
    List (ℚ × Keyed MetaDEx.position) → MetaDEx → NodeState → Except Abort (MetaDEx × NodeState)
  | [], pnew, s => .ok (pnew, s)
  | (sellersPrice, offerSet) :: rest, pnew, s =>
    if pnew.inversePrice < sellersPrice then xTradeLevels env rest pnew s
    else do
      let (pnew, s) ← xTradeLevel env sellersPrice offerSet.toList pnew s
      if pnew.amountRemaining = 0 then .ok (pnew, s) else xTradeLevels env rest pnew s

def xTrade : Except Abort (MetaDEx × NodeState) :=
  match s.metadex.get? pnew.desProperty with
  | none => .ok (pnew, s)
  | some prices => xTradeLevels env prices.toList pnew s

def metaDExInsert (o : MetaDEx) : Bool × NodeState :=
  if (Book.level s.metadex o.property o.unitPrice).contains o.position then (false, s)
  else (true, { s with metadex := Book.file s.metadex o.property o.unitPrice o })

def metaDExAdd (amount block : Int) (propertyDesired : PropertyId) (amountDesired : Int)
    (txid idx : Nat) : Except Abort (Int × NodeState) :=
  let newMdex :=
    MetaDEx.incoming senderAddr block prop amount propertyDesired amountDesired txid idx
  if newMdex.unitPrice ≤ 0 then .ok (metaDExError - 66, s)
  else do
    let (newMdex, s) ← s.xTrade env newMdex
    if 0 < newMdex.amountRemaining then
      match s.metaDExInsert newMdex with
      | (false, s) => .ok (metaDExError - 70, s)
      | (true, s) => do
        let s ← s.assertTallies (Posting.transfer ⟨senderAddr, prop, .balance⟩
          ⟨senderAddr, prop, .metadexReserve⟩ newMdex.amountRemaining)
        return (0, s)
    else return (0, s)

def cancelOrder : Except Abort NodeState := do
  let s ← s.assertTallies (Posting.transfer ⟨e.2.2.addr, e.2.2.property, .metadexReserve⟩
    ⟨e.2.2.addr, e.2.2.property, .balance⟩ e.2.2.amountRemaining)
  return { s with metadex := Book.remove s.metadex e.1 e.2.1 e.2.2.position }

/-- The walk through the book that all cancellations make, in its order. -/
def cancelOrders (selected : PropertyId × ℚ × MetaDEx → Bool) (rc : Int) : Except Abort
    (Int × NodeState) := do
  let orders := (Book.entries s.metadex).filter selected
  let s ← orders.foldlM cancelOrder s
  return (if orders = [] then rc else 0, s)

def metaDExCancelAtPrice (amount : Int) (propertyDesired : PropertyId) (amountDesired : Int) :
    Except Abort (Int × NodeState) :=
  let rc := metaDExError - 20
  match s.metadex.get? prop with
  | none => .ok (rc - 1, s)
  | some _ => s.cancelOrders (fun e => e.1 = prop && e.2.1 = (amountDesired : ℚ) / amount &&
      e.2.2.desProperty = propertyDesired && e.2.2.addr = senderAddr) rc

def metaDExCancelAllForPair (propertyDesired : PropertyId) : Except Abort (Int × NodeState) :=
  let rc := metaDExError - 30
  match s.metadex.get? prop with
  | none => .ok (rc - 1, s)
  | some _ => s.cancelOrders (fun e => e.1 = prop && e.2.2.desProperty = propertyDesired &&
      e.2.2.addr = senderAddr) rc

def metaDExCancelEverything (ecosystem : Nat) : Except Abort (Int × NodeState) :=
  s.cancelOrders (fun e =>
    !(isMainEcosystemProperty ecosystem && !isMainEcosystemProperty e.1) &&
      !(isTestEcosystemProperty ecosystem && !isTestEcosystemProperty e.1) &&
      e.2.2.addr = senderAddr) (metaDExError - 40)

def metaDExShutdown : Except Abort (Int × NodeState) :=
  s.cancelOrders (fun _ => true) 0

def isAllPair : Bool :=
  tlPropertyTmsc < e.2.2.desProperty && tlPropertyTmsc < e.2.2.property

/-- The loop stays forever on the first order that it does not remove. -/
def metaDExShutdownAllPair : Except Abort (Int × NodeState) := do
  let orders := Book.entries s.metadex
  let s ← (orders.takeWhile isAllPair).foldlM cancelOrder s
  if orders.all isAllPair then .ok (0, s) else .error .divergence

end NodeState

end TradeLayer
