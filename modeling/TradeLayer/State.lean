import TradeLayer.Activation
import TradeLayer.Ledger
import TradeLayer.Library.Book
import TradeLayer.SpInfo

namespace TradeLayer
open Library

structure Offer where
  offerBlock : Int
  offerAmountOriginal : Int
  property : PropertyId
  btcDesiredOriginal : Int
  minFee : Int
  blockTimeLimit : Nat
  txid : Nat
  subaction : Nat
  option : Nat
  deriving DecidableEq, Repr

structure Accept where
  acceptAmountOriginal : Int
  acceptAmountRemaining : Int
  blockTimeLimit : Nat
  property : PropertyId
  offerAmountOriginal : Int
  btcDesiredOriginal : Int
  offerTxid : Nat
  block : Int
  deriving DecidableEq, Repr

structure MetaDEx where
  addr : Address
  block : Int
  txid : Nat
  idx : Nat
  property : PropertyId
  amountForSale : Int
  desProperty : PropertyId
  amountDesired : Int
  amountRemaining : Int
  deriving DecidableEq, Repr

/-- Orders are compared by block and position alone. -/
def MetaDEx.position (o : MetaDEx) : Int ×ₗ Nat := toLex (o.block, o.idx)

/-- Orders by the property for sale and by unit price. -/
abbrev MdPropertiesMap := Book PropertyId ℚ MetaDEx.position

structure ContractDex where
  addr : Address
  block : Int
  txid : Nat
  idx : Nat
  property : PropertyId
  amountForSale : Int
  effectivePrice : Nat
  tradingAction : Nat
  deriving DecidableEq, Repr

def ContractDex.position (o : ContractDex) : Int ×ₗ Nat := toLex (o.block, o.idx)

abbrev CdPropertiesMap := Book PropertyId Nat ContractDex.position

/-- The amounts of a property in the fee cache at the ends of past blocks. -/
abbrev CacheHistory := Keyed (fun e : Int × Int => toLex e)

structure FeeCache where
  cacheHistory : OrderedMap PropertyId CacheHistory
  distributionThresholds : OrderedMap PropertyId Int

/-- The members of the object that describes a contract, as far as they are read. -/
structure FutureContractObject where
  fcoPropertyId : PropertyId
  fcoPropType : Nat
  fcoBlocksUntilExpiration : Nat
  fcoCollateralCurrency : PropertyId
  fcoMarginRequirement : Nat
  fcoInitBlock : Int
  deriving DecidableEq, Repr

/-- What the node is started with and what it asks of the code around it. -/
structure Environment where
  network : Network
  mscDebugDex : Bool
  mscDebugFees : Bool
  tlActivationAllowSender : List Address
  tlActivationIgnoreSender : List Address
  chainActive : Int → Option Nat
  hashToAddress : UInt8 → List UInt8 → Address
  isValidDestination : Address → Bool
  /-- The contents of the contract object that a transaction, given by its block and position,
  allocates, before its members are written. -/
  newFutureContractObject : Int → Nat → FutureContractObject
  /-- The contents of the variable for the cached fee before it is written, in the match of the
  orders at two positions. -/
  uninitializedCacheFee : Int ×ₗ Nat → Int ×ₗ Nat → Int

/-- A node without options on a chain that has every block, in memory that held zeros. -/
def Environment.plain (network : Network) : Environment where
  network := network
  mscDebugDex := false
  mscDebugFees := false
  tlActivationAllowSender := []
  tlActivationIgnoreSender := []
  chainActive := fun height => some height.toNat
  hashToAddress := fun _ hash => hash.map fun b => Char.ofNat b.toNat
  isValidDestination := fun _ => true
  newFutureContractObject := fun _ _ => ⟨0, 0, 0, 0, 0, 0⟩
  uninitializedCacheFee := fun _ _ => 0

structure NodeState where
  ledger : Ledger
  features : FeatureState
  spInfo : SPInfo
  feeCache : FeeCache
  myOffers : OrderedMap (List Char) Offer
  myAccepts : OrderedMap (List Char) Accept
  metadex : MdPropertiesMap
  contractdex : CdPropertiesMap
  /-- Traded amount times price and traded volume of each contract, trade by trade. -/
  contractTrades : OrderedMap PropertyId (List (Int × Int))
  cachefees : OrderedMap PropertyId Int
  marketP : OrderedMap PropertyId Nat
  factorAllToLtc : Int
  globalVolumeAllLtc : Int
  globalVolumeAllDusd : Int
  idContract : PropertyId
  vestingAddresses : List Address
  peggedIssuers : OrderedMap Address PropertyId
  /-- The answers of the registry of identities. -/
  kycRegister : Address → Nat → Bool
  /-- The addresses of open channels. -/
  channelAddress : Address → Bool

namespace NodeState

variable {s s' : NodeState} {who : Address} {p : PropertyId} {n : Int} {t : TallyType}
variable {ps : List (Posting Account)}

def initial (network : Network) (garbage : SPEntry) : NodeState where
  ledger := ⟨∅, .clear⟩
  features := .initial network
  spInfo := .init garbage
  feeCache := ⟨∅, ∅⟩
  myOffers := ∅
  myAccepts := ∅
  metadex := ∅
  contractdex := ∅
  contractTrades := ∅
  cachefees := ∅
  marketP := ∅
  factorAllToLtc := 0
  globalVolumeAllLtc := 0
  globalVolumeAllDusd := 0
  idContract := 0
  vestingAddresses := []
  peggedIssuers := ∅
  kycRegister := fun _ _ => false
  channelAddress := fun _ => false

theorem money_initial (network : Network) (garbage : SPEntry) (who : Address) (p : PropertyId)
    (t : TallyType) : (initial network garbage).ledger.money who p t = 0 := by
  simp [initial, Ledger.money, Ledger.tally, Tally.getMoney]

def oneManaged (network : Network) (issuer : Address) : NodeState :=
  { initial network .zero with spInfo := .oneManaged issuer }

def params (s : NodeState) : ConsensusParams := s.features.params

def isFeatureActivated (s : NodeState) (f : Feature) (block : Int) : Bool :=
  TradeLayer.isFeatureActivated s.params f.id block

def assertTally (s : NodeState) (who : Address) (propertyId : PropertyId) (amount : Int)
    (ttype : TallyType) : Except Abort NodeState := do
  let ledger ← s.ledger.assertTally who propertyId amount ttype
  return { s with ledger }

def assertTallies (s : NodeState) (ps : List (Posting Account)) : Except Abort NodeState :=
  ps.foldlM (fun s x => s.assertTally x.account.owner x.account.property x.amount x.account.ttype) s

def after (s : NodeState) : Except Abort (Int × NodeState) → NodeState
  | .ok (_, s') => s'
  | .error _ => s

theorem eq_ok_after {x : Except Abort (Int × NodeState)} (h : x.toBool = true) :
    ∃ rc, x = .ok (rc, s.after x) := by
  cases x with
  | error e => cases h
  | ok r => exact ⟨r.1, rfl⟩

/-- A refused operation returns an error and leaves the state alone. -/
def Rejected (rc : Int) (s s' : NodeState) : Prop := rc < 0 ∧ s' = s

theorem Rejected.of_ok {r rc : Int} (hr : r < 0)
    (h : (.ok (r, s) : Except Abort (Int × NodeState)) = .ok (rc, s')) : Rejected rc s s' := by
  cases h
  exact ⟨hr, rfl⟩

/-- Two states that differ in their ledgers at most, by the given postings. -/
def Posted (s : NodeState) (ps : List (Posting Account)) (s' : NodeState) : Prop :=
  s' = { s with ledger := s'.ledger } ∧ s.ledger.Posted ps s'.ledger

namespace Posted

variable {m : NodeState} {ps qs : List (Posting Account)}

theorem nil (s : NodeState) : s.Posted [] s := ⟨rfl, .nil _⟩

theorem trans (h : s.Posted ps m) (h' : m.Posted qs s') : s.Posted (ps ++ qs) s' := by
  refine ⟨?_, h.2.trans h'.2⟩
  rw [h'.1, h.1]

end Posted

theorem posted_of_assertTally (h : s.assertTally who p n t = .ok s') :
    s.Posted [⟨⟨who, p, t⟩, n⟩] s' := by
  rw [assertTally, bind_eq_ok] at h
  obtain ⟨l, hl, h⟩ := h
  cases h
  exact ⟨rfl, Ledger.posted_of_assertTally hl⟩

theorem posted_of_assertTallies (h : s.assertTallies ps = .ok s') : s.Posted ps s' := by
  induction ps generalizing s with
  | nil =>
    cases h
    exact .nil _
  | cons x ps ih =>
    rw [assertTallies, List.foldlM_cons, bind_eq_ok] at h
    obtain ⟨m, hm, h⟩ := h
    exact (posted_of_assertTally hm).trans (ih h)

theorem inRange_of_assertTallies (hl : s.ledger.InRange)
    (h : s.assertTallies ps = .ok s') : s'.ledger.InRange := by
  apply foldlM_invariant h hl
  intro s s' x _ hs hstep
  rw [assertTally, bind_eq_ok] at hstep
  obtain ⟨l, hl, hstep⟩ := hstep
  cases hstep
  exact hs.of_assertTally hl

theorem assertTallies_eq_error {e : Abort} (h : s.assertTallies ps = .error e) :
    ∃ x ∈ ps, e = .tallyAssert x.account.owner x.account.property x.amount ∨
      e = .addressFrozen x.account.owner x.account.property ∧
        s.ledger.DebitsFrozen x.account.owner x.account.property x.amount x.account.ttype := by
  induction ps generalizing s with
  | nil => cases h
  | cons x ps ih =>
    rw [assertTallies, List.foldlM_cons, bind_eq_error] at h
    rcases h with h | ⟨m, hm, h⟩
    · rw [assertTally, bind_eq_error] at h
      rcases h with h | ⟨l, -, h⟩
      · refine ⟨x, List.mem_cons_self, ?_⟩
        rcases Ledger.assertTally_cases _ x.account.owner x.account.property x.amount
          x.account.ttype with ⟨hf, he⟩ | ⟨-, -, he⟩ | ⟨-, -, l, he⟩
        · rw [he] at h
          cases h
          exact .inr ⟨rfl, hf⟩
        · rw [he] at h
          cases h
          exact .inl rfl
        · rw [he] at h
          cases h
      · cases h
    · obtain ⟨y, hy, h⟩ := ih h
      refine ⟨y, List.mem_cons_of_mem _ hy, ?_⟩
      simpa only [Ledger.DebitsFrozen, (posted_of_assertTally hm).2.freeze_eq] using h

end NodeState

end TradeLayer
