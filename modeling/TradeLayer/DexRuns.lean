import TradeLayer.Conservation
import TradeLayer.DexKept

namespace TradeLayer
open Library

namespace Operation

def OnDex : Operation → Prop
  | offerCreate seller _ _ _ _ _ _ => PlainAddress seller
  | offerDestroy seller _ => PlainAddress seller
  | offerUpdate seller _ _ _ _ _ _ => PlainAddress seller
  | acceptCreate buyer seller p _ _ => PlainAddress seller ∧ PlainAddress buyer ∧ p < 2 ^ 32
  | acceptDestroy buyer seller _ fForceErase =>
    PlainAddress seller ∧ PlainAddress buyer ∧ fForceErase = true
  | payment seller buyer _ => PlainAddress seller ∧ PlainAddress buyer
  | eraseExpiredAccepts => True
  | _ => False

def placed (rc : Int) : Operation → Address → PropertyId → Int
  | offerCreate seller p amountOffered _ _ _ _ =>
    if rc = 0 then NodeState.offered seller p amountOffered else fun _ _ => 0
  | offerUpdate seller p amountOffered _ _ _ _ =>
    if rc = 0 then NodeState.offered seller p amountOffered else fun _ _ => 0
  | _ => fun _ _ => 0

variable {env : Environment} {block rc : Int} {s s' : NodeState} {op : Operation}

/-- The payments of an operation go to the seller whose offer the payer has accepted. -/
def paysSeller (s : NodeState) (block : Int) : Operation → Bool
  | payment seller buyer _ => s.PaysSeller seller buyer block
  | _ => true

theorem dexKept_of_run (hi : NodeState.DexInv s) (hop : op.OnDex)
    (hpays : op.paysSeller s block = true) (h : op.run env block s = .ok (rc, s')) :
    NodeState.DexKept s (op.placed rc) s' := by
  cases op with
  | offerCreate => exact NodeState.dexKept_of_offerCreate hi hop h
  | offerDestroy => exact NodeState.dexKept_of_offerDestroy hi hop h
  | offerUpdate => exact NodeState.dexKept_of_offerUpdate hi hop h
  | acceptCreate =>
    obtain ⟨hseller, hbuyer, hid⟩ := hop
    exact NodeState.dexKept_of_acceptCreate hi hseller hbuyer hid h
  | acceptDestroy =>
    obtain ⟨hseller, hbuyer, rfl⟩ := hop
    exact NodeState.dexKept_of_acceptDestroy hi hseller hbuyer h
  | payment =>
    obtain ⟨hseller, hbuyer⟩ := hop
    exact NodeState.dexKept_of_payment hi hseller hbuyer (of_decide_eq_true hpays) h
  | eraseExpiredAccepts =>
    obtain ⟨m, hm, hr⟩ := exists_ok_of_map h
    cases hr
    exact NodeState.dexKept_of_eraseExpiredAccepts hi hm
  | _ => cases hop

end Operation

namespace NodeState

structure DexStart (s : NodeState) : Prop where
  inRange : s.ledger.InRange
  offers : s.myOffers = ∅
  accepts : s.myAccepts = ∅
  sell : ∀ a p, s.ledger.money a p .sellOfferReserve = 0
  reserve : ∀ a p, s.ledger.money a p .acceptReserve = 0

variable {env : Environment} {s s' : NodeState} {calls : List (Int × Operation)} {a : Address}
variable {p : PropertyId}

def placed (s : NodeState) (env : Environment) (a : Address) (p : PropertyId) :
    List (Int × Operation) → Int
  | [] => 0
  | (block, op) :: calls =>
    match op.run env block s with
    | .ok (rc, s') => op.placed rc a p + s'.placed env a p calls
    | .error _ => 0

def paysSellers (s : NodeState) (env : Environment) : List (Int × Operation) → Bool
  | [] => true
  | (block, op) :: calls =>
    op.paysSeller s block &&
      match op.run env block s with
      | .ok (_, s') => s'.paysSellers env calls
      | .error _ => true

theorem DexStart.inv (h : s.DexStart) : DexInv s where
  inRange := h.inRange
  offers := by
    intro key o ho
    rw [h.offers] at ho
    cases ho
  accepts := by
    intro key o ho
    rw [h.accepts] at ho
    cases ho
  reserve := by
    intro seller p _
    rw [h.reserve, acceptSum, h.accepts]
    rfl
  sell := fun seller p _ _ => h.sell seller p

theorem DexStart.reserved_eq (h : s.DexStart) : s.reserved a p = 0 := by
  rw [reserved, h.sell, h.reserve, add_zero]

theorem dexKept_of_runOperations (hi : DexInv s) (hcalls : ∀ c ∈ calls, c.2.OnDex)
    (hpays : s.paysSellers env calls = true) (h : s.runOperations env calls = .ok s') :
    DexKept s (fun a p => s.placed env a p calls) s' := by
  induction calls generalizing s with
  | nil =>
    cases h
    exact .refl hi
  | cons c calls ih =>
    obtain ⟨block, op⟩ := c
    obtain ⟨⟨rc, m⟩, hm, h⟩ := bind_eq_ok.mp h
    rw [paysSellers, hm, Bool.and_eq_true] at hpays
    have hstep := Operation.dexKept_of_run hi (hcalls _ List.mem_cons_self) hpays.1 hm
    have hrest := ih hstep.inv (fun c hc => hcalls c (List.mem_cons_of_mem _ hc)) hpays.2 h
    apply hstep.trans hrest
    intro a p
    rw [placed, hm]

/-- After every run of the exchange from an empty one whose payments go to the sellers, the
accept reserve of a seller is what is left of the accepts, each of which has a part left, an
offer reserve stands behind an open offer, and no more is reserved than was offered. -/
theorem reserves_of_runOperations (hstart : s.DexStart) (hcalls : ∀ c ∈ calls, c.2.OnDex)
    (hpays : s.paysSellers env calls = true) (h : s.runOperations env calls = .ok s') :
    (∀ seller p, PlainAddress seller →
      s'.ledger.money seller p .acceptReserve = s'.acceptSum seller p ∧
      (s'.getOffer seller p = none → s'.ledger.money seller p .sellOfferReserve = 0) ∧
      s'.reserved seller p ≤ s.placed env seller p calls) ∧
    ∀ key accept, s'.myAccepts.get? key = some accept →
      0 < accept.acceptAmountRemaining ∧
        accept.acceptAmountRemaining ≤ accept.acceptAmountOriginal := by
  obtain ⟨hinv, hreserved⟩ := dexKept_of_runOperations hstart.inv hcalls hpays h
  constructor
  · intro seller p hseller
    refine ⟨hinv.reserve seller p hseller, hinv.sell seller p hseller, ?_⟩
    have hle := hreserved seller p
    rw [hstart.reserved_eq, zero_add] at hle
    exact hle
  · intro key accept haccept
    obtain ⟨-, hpos, hle, -⟩ := hinv.accepts key accept haccept
    exact ⟨hpos, hle⟩

def sampleSellers : NodeState :=
  { oneManaged .test ['i'] with
    ledger := .ofPostings [⟨⟨['s'], 3, .balance⟩, 10⟩, ⟨⟨['b'], 3, .balance⟩, 10⟩] }

theorem dexStart_sampleSellers : sampleSellers.DexStart where
  inRange := Ledger.inRange_ofPostings
  offers := rfl
  accepts := rfl
  sell := fun _ _ => Ledger.money_ofPostings (by decide)
  reserve := fun _ _ => Ledger.money_ofPostings (by decide)

def sampleSale : List (Int × Operation) :=
  [(100, .offerCreate ['s'] 3 5 5 0 10 1), (100, .acceptCreate ['c'] ['s'] 3 4 0),
    (101, .payment ['s'] ['c'] 1)]

theorem reserves_of_sampleSale : ∃ s', sampleSellers.runOperations (.plain .test) sampleSale =
      .ok s' ∧ s'.ledger.money ['c'] 3 .balance = 1 ∧
      s'.ledger.money ['s'] 3 .acceptReserve = s'.acceptSum ['s'] 3 := by
  obtain ⟨s', hrun, hmoney⟩ := exists_ok_of_map (g := fun s => s.ledger.money ['c'] 3 .balance)
    (x := sampleSellers.runOperations (.plain .test) sampleSale) (b := 1) (by decide +kernel)
  have hcalls : ∀ c ∈ sampleSale, c.2.OnDex := by
    simp [sampleSale, Operation.OnDex, PlainAddress]
  have hpays : sampleSellers.paysSellers (.plain .test) sampleSale = true := by decide +kernel
  have hs : PlainAddress ['s'] := by simp [PlainAddress]
  obtain ⟨hreserves, -⟩ := reserves_of_runOperations dexStart_sampleSellers hcalls hpays hrun
  exact ⟨s', hrun, hmoney, (hreserves ['s'] 3 hs).1⟩

def sampleReversed : List (Int × Operation) :=
  [(100, .offerCreate ['s'] 3 5 5 0 10 1), (100, .acceptCreate ['c'] ['s'] 3 5 0),
    (100, .offerDestroy ['s'] 3), (100, .offerCreate ['b'] 3 5 5 0 10 2),
    (100, .acceptCreate ['s'] ['b'] 3 5 0), (101, .payment ['s'] ['b'] 2)]

/-- The payment is taken from what is reserved for the buyer, whose accept stays as it was. -/
theorem reserve_lt_of_sampleReversed : sampleSellers.DexStart ∧
    (∀ c ∈ sampleReversed, c.2.OnDex) ∧
    ∃ s', sampleSellers.runOperations (.plain .test) sampleReversed = .ok s' ∧
      s'.ledger.money ['s'] 3 .acceptReserve = 3 ∧ s'.acceptSum ['s'] 3 = 5 := by
  obtain ⟨s', hrun, hmoney⟩ := exists_ok_of_map
    (g := fun s => (s.ledger.money ['s'] 3 .acceptReserve, s.acceptSum ['s'] 3))
    (x := sampleSellers.runOperations (.plain .test) sampleReversed) (b := (3, 5))
    (by decide +kernel)
  refine ⟨dexStart_sampleSellers, ?_, s', hrun, ?_, ?_⟩
  · simp [sampleReversed, Operation.OnDex, PlainAddress]
  · exact congrArg Prod.fst hmoney
  · exact congrArg Prod.snd hmoney

end NodeState

end TradeLayer
