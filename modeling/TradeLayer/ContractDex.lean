import TradeLayer.FeeCache
import TradeLayer.Transaction

namespace TradeLayer
open Library

def actionBuy : Nat := 1
def actionSell : Nat := 2
def volumeToVwap : Nat := 10
def npTypes : Nat := 500
def tlPropertyAlls : PropertyId := 4

namespace ContractDex

variable (pnew pold : ContractDex)

/-- The old order sells, or else the new one is taken to sell. -/
def seller : ContractDex :=
  if pold.tradingAction = actionSell then pold else pnew

def buyer : ContractDex :=
  if pold.tradingAction = actionSell then pnew else pold

def nCouldBuy : Int :=
  min (buyer pnew pold).amountForSale (seller pnew pold).amountForSale

def remaining : Int :=
  |(seller pnew pold).amountForSale - (buyer pnew pold).amountForSale|

/-- The old and the new order after a match. An old order that neither buys nor sells keeps
its amount, and so does the new order, unless the amounts are equal. -/
def afterMatch : ContractDex × ContractDex :=
  let sold := (seller pnew pold).amountForSale
  let bought := (buyer pnew pold).amountForSale
  if bought < sold ∧ pold.tradingAction = actionSell ∨
      sold < bought ∧ pold.tradingAction = actionBuy then
    ({ pold with amountForSale := remaining pnew pold }, { pnew with amountForSale := 0 })
  else if sold < bought ∧ pold.tradingAction = actionSell ∨
      bought < sold ∧ pold.tradingAction = actionBuy then
    ({ pold with amountForSale := 0 }, { pnew with amountForSale := remaining pnew pold })
  else if sold = bought then
    ({ pold with amountForSale := 0 }, { pnew with amountForSale := 0 })
  else (pold, pnew)

end ContractDex

namespace NodeState

variable (s : NodeState) (l : Ledger) (env : Environment) (who : Address) (sp : SPEntry)
variable (sellerPrice : Nat) (pnew : ContractDex)

def tryTally (propertyId : PropertyId) (amount : Int) (ttype : TallyType) :
    Except Abort NodeState := do
  let (_, ledger) ← s.ledger.updateTallyMap who propertyId amount ttype
  return { s with ledger }

def getFutureContractObject (tx : CMPTransaction) : FutureContractObject :=
  (List.range' 1 (s.spInfo.peekNextSPID 1 - 1)).foldl
    (fun fco propertyId =>
      match s.spInfo.getSP propertyId with
      | none => fco
      | some sp =>
        let found : FutureContractObject :=
          { fcoPropertyId := propertyId, fcoPropType := fco.fcoPropType,
            fcoBlocksUntilExpiration := sp.blocksUntilExpiration,
            fcoCollateralCurrency := sp.collateralCurrency,
            fcoMarginRequirement := sp.marginRequirement, fcoInitBlock := sp.initBlock }
        if (sp.propType = allPropertyTypeContract ∨
            sp.propType = allPropertyTypeOracleContract) ∧ sp.name = tx.nameTraded then
          { found with fcoPropType := sp.propType }
        -- for a pegged currency the type is left as it was
        else if sp.propType = allPropertyTypePeggeds ∧ sp.name = tx.nameTraded then found
        else fco)
    (env.newFutureContractObject tx.block tx.txIdx)

def tradeVolume (notionalSize : Nat) (nCouldBuy : Int) : Except Abort Int := do
  let amount ← convertTo256 nCouldBuy
  convertTo64 (notionalSize * amount / coin)

def sum64 (xs : List Int) : Except Abort Int :=
  xs.foldlM (fun sum x => checked64 (sum + x)) 0

/-- The volume weighted average price of the last trades, which is computed with every match. -/
def updateVwap (property : PropertyId) (price : Nat) (volume : Int) : Except Abort NodeState := do
  let volume256 ← convertTo256 volume
  let numVwap ← convertTo64 (price * volume256 / coin)
  let trades := (s.contractTrades.get? property).getD [] ++ [(numVwap, volume)]
  let last := trades.drop (trades.length - volumeToVwap)
  let _ ← sum64 (last.map Prod.fst)
  let denominator ← sum64 (last.map Prod.snd)
  if denominator = 0 then .error .divisionByZero
  else .ok { s with contractTrades := s.contractTrades.set property trades }

def positionPostings (property : PropertyId) (n : Int) (reduced opened : TallyType) :
    List (Posting Account) :=
  let held := l.getTokenBalance who property reduced
  if held ≠ 0 then
    if 0 ≤ held - n then [⟨⟨who, property, reduced⟩, -n⟩]
    else [⟨⟨who, property, reduced⟩, -held⟩, ⟨⟨who, property, opened⟩, -(held - n)⟩]
  else [⟨⟨who, property, opened⟩, n⟩]

def matchPostings (pold : ContractDex) : List (Posting Account) :=
  let n := pnew.nCouldBuy pold
  if pold.addr ≠ pnew.addr then
    positionPostings l (pnew.seller pold).addr pold.property n
        .positiveBalance .negativeBalance ++
      positionPostings l (pnew.buyer pold).addr pold.property n
        .negativeBalance .positiveBalance
  else []

/-- The fees of a match: what the taker pays, what the maker receives and the part that is kept,
whose variable is written for oracle contracts only. -/
structure ContractFees where
  takerFee : Int
  makerFee : Int
  cacheFee : Int

def contractFees (uninitialized nCouldBuy : Int) : Except Abort ContractFees := do
  let n ← convertTo256 nCouldBuy
  let margin := sp.marginRequirement
  if sp.propType = allPropertyTypeOracleContract then do
    let uMakerFee := n * margin / (100 * coin)
    let cacheFee ← convertTo64 (uMakerFee / 2)
    let takerFee ← convertTo64 (n * margin * 25 / (1000 * coin))
    let makerFee ← convertTo64 uMakerFee
    return ⟨takerFee, makerFee, cacheFee⟩
  else do
    let takerFee ← convertTo64 (n * margin / (100 * coin))
    let makerFee ← convertTo64 (n * margin * 5 / (1000 * coin))
    return ⟨takerFee, makerFee, uninitialized⟩

def payOracle (cacheFee : Int) : Except Abort NodeState :=
  if sp.propType = allPropertyTypeOracleContract then do
    let s ← s.tryTally sp.issuer sp.collateralCurrency cacheFee .balance
    if sp.collateralCurrency = tlPropertyAlls then do
      let cached ← checked64 ((s.cachefees.get? tlPropertyAlls).getD 0 + cacheFee)
      return { s with cachefees := s.cachefees.set tlPropertyAlls cached }
    else return s
  else .ok s

def contractDexFees (uninitialized : Int) (addressTaker addressMaker : Address) (nCouldBuy : Int)
    (contractId : PropertyId) : Except Abort NodeState :=
  match s.spInfo.getSP contractId with
  | none => .ok s
  | some sp => do
    let fees ← contractFees sp uninitialized nCouldBuy
    let s ← s.payOracle sp fees.cacheFee
    let s ← s.tryTally addressTaker sp.collateralCurrency (-fees.takerFee) .balance
    let s ← s.tryTally addressMaker sp.collateralCurrency fees.makerFee .balance
    if fees.takerFee = fees.makerFee + 3 * fees.cacheFee then .ok s else .error .assertion

def recordMatchedTrade (volume nCouldBuy : Int) : Except Abort NodeState := do
  let globalVolumeAllDusd ← checked64 (s.globalVolumeAllDusd + nCouldBuy)
  let factor ← convertTo256 s.factorAllToLtc
  let volume256 ← convertTo256 volume
  let volumeLtc ← convertTo64 (factor * volume256 / coin)
  let globalVolumeAllLtc ← checked64 (s.globalVolumeAllLtc + volumeLtc)
  return { s with globalVolumeAllDusd, globalVolumeAllLtc }

def setMarketPrice (property : PropertyId) (price : Nat) : Except Abort NodeState :=
  if property < npTypes then .ok { s with marketP := s.marketP.set property price }
  else .error .undefined

def replaceContract (property : PropertyId) (price : Nat) (pold rest : ContractDex)
    (remaining : Int) : NodeState :=
  let book := Book.remove s.contractdex property price pold.position
  { s with contractdex := if 0 < remaining then Book.file book property price rest else book }

def settleContract (pold : ContractDex) : Except Abort NodeState := do
  let n := pnew.nCouldBuy pold
  let volume ← tradeVolume sp.notionalSize n
  let s ← s.updateVwap pold.property sellerPrice volume
  let s ← s.assertTallies (matchPostings s.ledger pnew pold)
  let s ← s.contractDexFees (env.uninitializedCacheFee pnew.position pold.position) pnew.addr
    pold.addr n pold.property
  let s ← s.recordMatchedTrade volume n
  s.setMarketPrice pold.property pold.effectivePrice

/-- The body of the loop of `xTradeBidirectional`. -/
def matchContract (pold : ContractDex) : Except Abort (ContractDex × NodeState) :=
  if pold.effectivePrice ≠ sellerPrice then .error .assertion
  else if pold.property ≠ pnew.property then .error .assertion
  else if pnew.nCouldBuy pold = 0 then .ok (pnew, s)
  else
    match s.spInfo.getSP pold.property with
    | none => .error .assertion
    | some sp => do
      let s ← s.settleContract env sp sellerPrice pnew pold
      let (rest, pnew') := pnew.afterMatch pold
      return (pnew', s.replaceContract pnew.property sellerPrice pold rest
        (ContractDex.remaining pnew pold))

def xTradeBidirectional (env : Environment) (sellerPrice : Nat) :
    List ContractDex → ContractDex → NodeState → Except Abort (ContractDex × NodeState)
  | [], pnew, s => .ok (pnew, s)
  | pold :: rest, pnew, s => do
    let (pnew, s) ← s.matchContract env sellerPrice pnew pold
    xTradeBidirectional env sellerPrice rest pnew s

/-- The levels a new order may not trade with: those above its price when it buys, those below
it otherwise. -/
def skipsLevel (sellerPrice : Nat) : Bool :=
  if pnew.tradingAction = actionBuy then pnew.effectivePrice < sellerPrice
  else sellerPrice < pnew.effectivePrice

def loopLevels (env : Environment) :
    List (Nat × Keyed ContractDex.position) → ContractDex → NodeState →
      Except Abort (ContractDex × NodeState)
  | [], pnew, s => .ok (pnew, s)
  | (sellerPrice, offerSet) :: rest, pnew, s =>
    if skipsLevel pnew sellerPrice then loopLevels env rest pnew s
    else do
      let (pnew, s) ← xTradeBidirectional env sellerPrice offerSet.toList pnew s
      loopLevels env rest pnew s

def xTradeContract : Except Abort (ContractDex × NodeState) :=
  match s.contractdex.get? pnew.property with
  | none => .ok (pnew, s)
  | some prices =>
    loopLevels env
      (if pnew.tradingAction = actionBuy then prices.toList else prices.toList.reverse) pnew s

def contractDexInsert (o : ContractDex) : Bool × NodeState :=
  if (Book.level s.contractdex o.property o.effectivePrice).contains o.position then (false, s)
  else (true, { s with contractdex := Book.file s.contractdex o.property o.effectivePrice o })

def contractDexAdd (senderAddr : Address) (prop : PropertyId) (amount block : Int)
    (txid idx effectivePrice tradingAction : Nat) : Except Abort (Int × NodeState) :=
  let newCdex : ContractDex :=
    { addr := senderAddr, block, txid, idx, property := prop, amountForSale := amount,
      effectivePrice, tradingAction }
  if newCdex.effectivePrice = 0 then .ok (metaDExError - 66, s)
  else do
    let (newCdex, s) ← s.xTradeContract env newCdex
    if 0 < newCdex.amountForSale then
      match s.contractDexInsert newCdex with
      | (false, s) => .ok (metaDExError - 70, s)
      | (true, s) => .ok (0, s)
    else .ok (0, s)

end NodeState

end TradeLayer
