import TradeLayer.ContractBook
import TradeLayer.CrashTransactions

namespace TradeLayer
open Library

namespace CMPTransaction

def contractOrder (tx : CMPTransaction) (c : PropertyId) : ContractDex :=
  ⟨tx.sender, tx.block, tx.txid, tx.txIdx, c, asInt64 tx.amount, tx.effectivePrice.toNat,
    tx.tradingAction⟩

def fullMargin (tx : CMPTransaction) (sp : SPEntry) : Nat :=
  tx.amount.toNat * sp.marginRequirement

def lockedMargin (tx : CMPTransaction) (sp : SPEntry) : Nat :=
  tx.fullMargin sp / tx.leverage.toNat

end CMPTransaction

namespace NodeState

/-- A transaction whose order for a contract rests in the book as it was placed. -/
structure Rests (env : Environment) (c : PropertyId) (sp : SPEntry) (tx : CMPTransaction)
    (s s' : NodeState) : Prop where
  record : s.spInfo.getSP c = some sp
  contract : (s.getFutureContractObject env tx).fcoPropertyId = c
  collateral :
    (s.getFutureContractObject env tx).fcoCollateralCurrency = sp.collateralCurrency
  margin :
    (s.getFutureContractObject env tx).fcoMarginRequirement = sp.marginRequirement
  accepted : s.logicMathContractDexTrade env tx = .ok (0, s')
  amount : 0 < asInt64 tx.amount
  unfilled : s.fills (tx.contractOrder c) = []

inductive Placed (env : Environment) (sender : Address) (c : PropertyId) (sp : SPEntry) :
    NodeState → List CMPTransaction → NodeState → Prop
  | nil {s : NodeState} : Placed env sender c sp s [] s
  | cons {s m s' : NodeState} {tx : CMPTransaction} {txs : List CMPTransaction}
      (hsender : tx.sender = sender) (h : Rests env c sp tx s m)
      (hrest : Placed env sender c sp m txs s') : Placed env sender c sp s (tx :: txs) s'

variable {s s' : NodeState} {env : Environment} {c p : PropertyId} {sp : SPEntry} {r : Nat}
variable {tx : CMPTransaction} {txs : List CMPTransaction} {sender a : Address} {o : ContractDex}
variable {pnew : ContractDex} {orders : List (Nat × ContractDex)} {x : ContractDex × NodeState}
variable {t : TallyType}

section Placing

theorem asInt64_of_pos {n : UInt64} (h : 0 < asInt64 n) : asInt64 n = n.toNat := by
  by_cases hlt : n.toNat < 2 ^ 63
  · exact asInt64_of_lt hlt
  · have hge := asInt64_of_ge (not_lt.mp hlt)
    have hmax := n.toNat_lt
    omega

theorem meetAll_of_unfilled (h : meetAll env orders pnew s = .ok x)
    (hnone : pnew.fillsAlong (orders.map Prod.snd) = []) : x = (pnew, s) := by
  induction orders generalizing pnew s with
  | nil =>
    cases h
    rfl
  | cons e orders ih =>
    obtain ⟨price, pold⟩ := e
    obtain ⟨⟨pmid, m⟩, hm, hnext⟩ := bind_eq_ok.mp h
    rw [List.map_cons, ContractDex.fillsAlong] at hnone
    obtain ⟨-, -, ⟨hn, rfl, rfl⟩ | ⟨sp, m', -, hm', -, -⟩⟩ := matchContract_matched hm
    · rw [if_pos hn] at hnone
      exact ih hnext hnone
    · rw [if_neg hm'.positive.ne'] at hnone
      cases hnone

theorem Rests.cases (h : Rests env c sp tx s s') :
    tx.leverage.toNat ≠ 0 ∧
      s.ledger.Posted (if 0 < (tx.lockedMargin sp : Int) then
        Posting.transfer ⟨tx.sender, sp.collateralCurrency, .balance⟩
          ⟨tx.sender, sp.collateralCurrency, .contractdexMargin⟩ (tx.lockedMargin sp)
        else []) s'.ledger ∧
      (Book.level s.contractdex c tx.effectivePrice.toNat).find? (tx.contractOrder c).position =
        none ∧
      s' = { s with
        ledger := s'.ledger
        idContract := c
        contractdex :=
          Book.file s.contractdex c tx.effectivePrice.toNat (tx.contractOrder c) } := by
  obtain ⟨hrc, -⟩ | ⟨reserve, hlocks, hexecute⟩ := logicMathContractDexTrade_cases h.accepted
  · exact absurd hrc (by decide)
  have hreserve : reserve = tx.lockedMargin sp := by
    rw [amountToReserve_eq_ok hlocks.margin, marginToLock, h.margin]
    rfl
  have hleverage : tx.leverage.toNat ≠ 0 := by
    obtain ⟨q, hq, -⟩ := bind_eq_ok.mp hlocks.margin
    exact (divide256_eq_ok.mp hq).1
  obtain ⟨m, hm, hadd⟩ := bind_eq_ok.mp hexecute
  have hposted := posted_of_assertTallies hm
  rw [h.contract] at hadd
  have hprice : 0 < tx.effectivePrice.toNat := by
    by_contra hzero
    rw [contractDexAdd, if_pos (by simpa using hzero)] at hadd
    cases hadd
  rw [contractDexAdd_eq hprice] at hadd
  obtain ⟨x, hx, hinsert⟩ := exists_ok_of_map hadd
  have hbook : m.contractdex = s.contractdex := by
    rw [hposted.1]
    rfl
  have hwalk : m.walk (tx.contractOrder c) = s.walk (tx.contractOrder c) := by
    rw [walk, hbook]
    rfl
  have hrest : x = (tx.contractOrder c, m) := by
    apply meetAll_of_unfilled hx
    change (tx.contractOrder c).fillsAlong ((m.walk (tx.contractOrder c)).map Prod.snd) = []
    rw [hwalk]
    exact h.unfilled
  subst hrest
  rcases insertRest_cases (r := (tx.contractOrder c, m)) with ⟨-, hrc⟩ | ⟨-, hnone, hfiled⟩
  · have hneg := hrc h.amount
    rw [hinsert] at hneg
    exact absurd hneg (lt_irrefl 0)
  · rw [hinsert] at hfiled
    dsimp only at hfiled hnone
    rw [hbook] at hfiled hnone
    refine ⟨hleverage, ?_, hnone, ?_⟩
    · have hledger : s'.ledger = m.ledger := by rw [hfiled]
      rw [hledger, ← h.collateral, ← hreserve]
      exact hposted.2
    · rw [hfiled]
      dsimp only
      rw [hposted.1, withContract, h.contract]
      rfl

theorem Rests.mem_level (h : Rests env c sp tx s s') : o ∈ Book.level s'.contractdex p r ↔
    o ∈ Book.level s.contractdex p r ∨
      p = c ∧ r = tx.effectivePrice.toNat ∧ o = tx.contractOrder c := by
  obtain ⟨-, -, hnone, hframe⟩ := h.cases
  rw [hframe]
  exact Book.mem_level_file hnone

theorem Rests.money_eq (h : Rests env c sp tx s s') : s'.ledger.money a p t =
    s.ledger.money a p t +
      ((if (⟨tx.sender, sp.collateralCurrency, .contractdexMargin⟩ : Account) = ⟨a, p, t⟩ then
          (tx.lockedMargin sp : Int) else 0) -
        if (⟨tx.sender, sp.collateralCurrency, .balance⟩ : Account) = ⟨a, p, t⟩ then
          (tx.lockedMargin sp : Int) else 0) := by
  obtain ⟨-, hposted, -, -⟩ := h.cases
  rw [hposted.money_eq]
  congr 1
  by_cases hlocked : 0 < (tx.lockedMargin sp : Int)
  · rw [if_pos hlocked]
    exact Posting.net_transfer_eq
  · rw [if_neg hlocked]
    have hzero : (tx.lockedMargin sp : Int) = 0 := by omega
    simp [hzero]

theorem Placed.spInfo_eq (h : Placed env sender c sp s txs s') : s'.spInfo = s.spInfo := by
  induction h with
  | nil => rfl
  | cons _ htx _ ih =>
    obtain ⟨-, -, -, hframe⟩ := htx.cases
    rw [ih, hframe]

theorem Placed.mem_level (h : Placed env sender c sp s txs s') :
    o ∈ Book.level s'.contractdex p r ↔ o ∈ Book.level s.contractdex p r ∨
      ∃ tx ∈ txs, p = c ∧ r = tx.effectivePrice.toNat ∧ o = tx.contractOrder c := by
  induction h with
  | nil => simp
  | cons _ htx _ ih =>
    rw [ih, htx.mem_level]
    simp [or_assoc]

theorem Placed.of_mem (h : Placed env sender c sp s txs s') (htx : tx ∈ txs) :
    tx.sender = sender ∧ tx.leverage.toNat ≠ 0 ∧ 0 < asInt64 tx.amount := by
  induction h with
  | nil => cases htx
  | cons hsender h _ ih =>
    cases htx with
    | head => exact ⟨hsender, h.cases.1, h.amount⟩
    | tail _ htx => exact ih htx

theorem Placed.margin_eq (h : Placed env sender c sp s txs s') :
    s'.ledger.money sender sp.collateralCurrency .contractdexMargin =
      s.ledger.money sender sp.collateralCurrency .contractdexMargin +
        ((txs.map fun tx => tx.lockedMargin sp).sum : Nat) := by
  induction h with
  | nil => simp
  | cons hsender h _ ih =>
    rw [ih, h.money_eq, hsender]
    simp
    ring

theorem Placed.money_eq (h : Placed env sender c sp s txs s')
    (hnone : ∀ tx ∈ txs, tx.lockedMargin sp = 0) :
    s'.ledger.money a p t = s.ledger.money a p t := by
  induction h with
  | nil => rfl
  | cons hsender h _ ih =>
    obtain ⟨hzero, hnone⟩ := List.forall_mem_cons.mp hnone
    rw [ih hnone, h.money_eq, hzero]
    simp

end Placing

/-- The cancellation of a sender's orders for a contract takes out just them, and undoes what they
did to the sender's collateral. -/
def Restores (s₀ s : NodeState) (sender : Address) (ecosystem : Nat) (c : PropertyId)
    (sp : SPEntry) : Prop :=
  ∃ rc s', s.contractDexCancelEverything sender ecosystem c = .ok (rc, s') ∧
    (∀ p r o, o ∈ Book.level s'.contractdex p r ↔
      o ∈ Book.level s.contractdex p r ∧ ¬ (o.addr = sender ∧ o.property = c)) ∧
    (∀ t, t = .balance ∨ t = .contractdexMargin →
      s'.ledger.money sender sp.collateralCurrency t =
        s₀.ledger.money sender sp.collateralCurrency t) ∧
    ∀ a p t, ¬ (a = sender ∧ p = sp.collateralCurrency ∧ (t = .balance ∨ t = .contractdexMargin)) →
      s'.ledger.money a p t = s.ledger.money a p t

section Cancelling

theorem redeemed_eq {n : Nat} :
    redeemed sp n = convertTo64 (n * sp.marginRequirement / factorE) := by
  have hone : notionalChange = 1 := if_neg (not_not.mpr rfl)
  have hn : convertTo256 (n : Int) = .ok n := convertTo256_eq_ok.mpr rfl
  have hnum : convertTo256 (notionalChange.num) = .ok 1 := by
    rw [hone]
    rfl
  rw [redeemed, hn, ok_bind, hnum, ok_bind, hone, mul_one, Rat.den_one, one_mul]

/-- An order redeems nothing when its amount is too small, or more than the balance. -/
def RedeemsNothing (sp : SPEntry) (balance : Int) (o : ContractDex) : Prop :=
  ∃ n, redeemed sp o.amountForSale = .ok n ∧ (n = 0 ∨ balance ≤ n)

variable {l l' : Ledger} {n : Int} {entries : List (PropertyId × Nat × ContractDex)}
variable {e : PropertyId × Nat × ContractDex}

theorem redeemed_nonneg {amount : Int} (h : redeemed sp amount = .ok n) : 0 ≤ n := by
  obtain ⟨amount', -, h⟩ := bind_eq_ok.mp h
  obtain ⟨num, -, h⟩ := bind_eq_ok.mp h
  rw [(convertTo64_eq_ok.mp h).1]
  exact Int.natCast_nonneg _

structure Redeems (sp : SPEntry) (sender : Address)
    (entries : List (PropertyId × Nat × ContractDex)) (s s' : NodeState) : Prop where
  le : s.ledger.money sender sp.collateralCurrency .balance ≤
    s'.ledger.money sender sp.collateralCurrency .balance
  nothing : s'.ledger.money sender sp.collateralCurrency .balance ≤
      s.ledger.money sender sp.collateralCurrency .balance →
    ∀ e ∈ entries, RedeemsNothing sp (s.ledger.money sender sp.collateralCurrency .balance) e.2.2
  margin : s'.ledger.money sender sp.collateralCurrency .contractdexMargin =
    s.ledger.money sender sp.collateralCurrency .contractdexMargin

theorem redeems_of_cancelContract (hsp : s.spInfo.getSP c = some sp)
    (he : e.2.2.addr = sender ∧ e.2.2.property = c) (h : s.cancelContract e = .ok s') :
    Redeems sp sender [e] s s' := by
  obtain ⟨rfl, rfl⟩ := he
  obtain ⟨sp', n, hsp', hn, hposted, -⟩ := cancelContract_cases h
  rw [hsp] at hsp'
  cases hsp'
  have hnonneg := redeemed_nonneg hn
  have hread : s.ledger.getTokenBalance e.2.2.addr sp.collateralCurrency .balance =
    s.ledger.money e.2.2.addr sp.collateralCurrency .balance := rfl
  constructor
  all_goals rw [hposted.money_eq, redeemPostings, hread]
  · split_ifs <;> simp
    omega
  · intro hback
    refine List.forall_mem_singleton.mpr ⟨n, hn, ?_⟩
    split_ifs at hback with hredeems
    · simp at hback
      omega
    · omega
  · split_ifs <;> simp

theorem redeems_of_cancelContracts (hsp : s.spInfo.getSP c = some sp)
    (hentries : ∀ e ∈ entries, e.2.2.addr = sender ∧ e.2.2.property = c)
    (h : entries.foldlM cancelContract s = .ok s') : Redeems sp sender entries s s' := by
  induction entries generalizing s with
  | nil =>
    cases h
    exact ⟨le_rfl, fun _ => List.forall_mem_nil _, rfl⟩
  | cons e entries ih =>
    rw [List.foldlM_cons] at h
    obtain ⟨m, hm, hnext⟩ := bind_eq_ok.mp h
    obtain ⟨he, hentries⟩ := List.forall_mem_cons.mp hentries
    obtain ⟨hle, hnothing, hmargin⟩ := redeems_of_cancelContract hsp he hm
    have hspm : m.spInfo.getSP c = some sp := by
      obtain ⟨-, -, -, -, -, hframe⟩ := cancelContract_cases hm
      rw [hframe]
      exact hsp
    obtain ⟨hle', hnothing', hmargin'⟩ := ih hspm hentries hnext
    refine ⟨hle.trans hle', ?_, hmargin'.trans hmargin⟩
    intro hback
    have hsame : m.ledger.money sender sp.collateralCurrency .balance =
        s.ledger.money sender sp.collateralCurrency .balance :=
      le_antisymm (hle'.trans hback) hle
    rw [hsame] at hnothing'
    exact List.forall_mem_cons.mpr ⟨hnothing hsame.le e List.mem_cons_self, hnothing' hback⟩

theorem cancelContracts_of_redeemsNothing (hsp : s.spInfo.getSP c = some sp)
    (hentries : ∀ e ∈ entries, e.2.2.addr = sender ∧ e.2.2.property = c)
    (hnothing : ∀ e ∈ entries,
      RedeemsNothing sp (s.ledger.money sender sp.collateralCurrency .balance) e.2.2) :
    ∃ s', entries.foldlM cancelContract s = .ok s' ∧ s'.ledger = s.ledger := by
  induction entries generalizing s with
  | nil => exact ⟨s, rfl, rfl⟩
  | cons e entries ih =>
    obtain ⟨⟨haddr, hproperty⟩, hentries⟩ := List.forall_mem_cons.mp hentries
    obtain ⟨⟨n, hn, hsmall⟩, hnothing⟩ := List.forall_mem_cons.mp hnothing
    have hpostings : redeemPostings s.ledger e.2.2 sp n = [] := by
      apply if_neg
      rw [haddr]
      change ¬ (n < s.ledger.money sender sp.collateralCurrency .balance ∧ _ ∧ _)
      omega
    have hstep : s.cancelContract e = .ok { s with
        contractdex := Book.remove s.contractdex e.1 e.2.1 e.2.2.position } := by
      rw [cancelContract, hproperty, hsp]
      dsimp only
      rw [hn, ok_bind, hpostings]
      rfl
    rw [List.foldlM_cons, hstep, ok_bind]
    exact ih hsp hentries hnothing

end Cancelling

section Refund

variable {s₀ : NodeState} {ecosystem : Nat} {b : Int}

theorem redeemsNothing_contractOrder (hpos : 0 < asInt64 tx.amount) :
    RedeemsNothing sp b (tx.contractOrder c) ↔
      ((tx.fullMargin sp / factorE : Nat) : Int) ≤ int64Max ∧
        (tx.fullMargin sp / factorE = 0 ∨ b ≤ (tx.fullMargin sp / factorE : Nat)) := by
  have hredeemed : redeemed sp (tx.contractOrder c).amountForSale =
      convertTo64 (tx.fullMargin sp / factorE) := by
    rw [CMPTransaction.contractOrder, asInt64_of_pos hpos]
    exact redeemed_eq
  rw [RedeemsNothing, hredeemed]
  constructor
  · rintro ⟨n, hn, hsmall⟩
    obtain ⟨rfl, hmax⟩ := convertTo64_eq_ok.mp hn
    exact ⟨hmax, by exact_mod_cast hsmall⟩
  · rintro ⟨hmax, hsmall⟩
    exact ⟨_, convertTo64_eq_ok.mpr ⟨rfl, hmax⟩, by exact_mod_cast hsmall⟩

theorem Placed.lockedMargin_eq_zero (h : Placed env sender c sp s txs s') (htx : tx ∈ txs) :
    tx.lockedMargin sp = 0 ↔ tx.fullMargin sp < tx.leverage.toNat := by
  obtain ⟨-, hleverage, -⟩ := h.of_mem htx
  rw [CMPTransaction.lockedMargin, Nat.div_eq_zero_iff]
  exact or_iff_right hleverage

theorem mem_cancelled_of_placed (hplaced : Placed env sender c sp s₀ txs s)
    (hnone : ∀ p r, ∀ o ∈ Book.level s₀.contractdex p r, ¬ (o.addr = sender ∧ o.property = c))
    (heco : selectsEcosystem ecosystem c = true) :
    (p, r, o) ∈ s.cancelled sender ecosystem c ↔
      ∃ tx ∈ txs, p = c ∧ r = tx.effectivePrice.toNat ∧ o = tx.contractOrder c := by
  rw [cancelled, List.mem_filter, Book.mem_entries, hplaced.mem_level]
  constructor
  · rintro ⟨ho | htx, hselected⟩
    · simp only [Bool.and_eq_true, decide_eq_true_eq] at hselected
      exact absurd ⟨hselected.1.1.2, hselected.1.2⟩ (hnone p r o ho)
    · exact htx
  · rintro ⟨tx, htx, rfl, rfl, rfl⟩
    obtain ⟨hsender, -, hpos⟩ := hplaced.of_mem htx
    refine ⟨.inr ⟨tx, htx, rfl, rfl, rfl⟩, ?_⟩
    simp [heco, CMPTransaction.contractOrder, hsender, hpos.ne']

/-- The cancellation of orders that rest as they were placed restores the sender's collateral just
when none of them had locked a margin and none of them redeems anything. -/
theorem restores_iff (hplaced : Placed env sender c sp s₀ txs s)
    (hsp : s₀.spInfo.getSP c = some sp)
    (hnone : ∀ p r, ∀ o ∈ Book.level s₀.contractdex p r, ¬ (o.addr = sender ∧ o.property = c))
    (heco : selectsEcosystem ecosystem c = true) :
    Restores s₀ s sender ecosystem c sp ↔ ∀ tx ∈ txs,
      tx.fullMargin sp < tx.leverage.toNat ∧
        ((tx.fullMargin sp / factorE : Nat) : Int) ≤ int64Max ∧
        (tx.fullMargin sp / factorE = 0 ∨
          s₀.ledger.money sender sp.collateralCurrency .balance ≤
            (tx.fullMargin sp / factorE : Nat)) := by
  have hsps : s.spInfo.getSP c = some sp := by
    rw [hplaced.spInfo_eq]
    exact hsp
  have hentries : ∀ e ∈ s.cancelled sender ecosystem c,
      e.2.2.addr = sender ∧ e.2.2.property = c := by
    rintro ⟨p, r, o⟩ he
    obtain ⟨tx, htx, rfl, rfl, rfl⟩ := (mem_cancelled_of_placed hplaced hnone heco).mp he
    exact ⟨(hplaced.of_mem htx).1, rfl⟩
  constructor
  · rintro ⟨rc, s', hcancel, -, hback, -⟩
    obtain ⟨m, hm, hend⟩ := bind_eq_ok.mp hcancel
    cases hend
    obtain ⟨-, hnothing, hmargin⟩ := redeems_of_cancelContracts hsps hentries hm
    -- the margin can only come back if it never left
    have hlocked : ∀ tx ∈ txs, tx.lockedMargin sp = 0 := by
      have hsum := hplaced.margin_eq
      rw [← hmargin, hback _ (.inr rfl), left_eq_add] at hsum
      intro tx htx
      exact List.sum_eq_zero_iff.mp (Int.natCast_eq_zero.mp hsum) _ (List.mem_map_of_mem htx)
    have hbalance := hplaced.money_eq (a := sender) (p := sp.collateralCurrency) (t := .balance)
      hlocked
    rw [hback _ (.inl rfl), hbalance] at hnothing
    intro tx htx
    refine ⟨(hplaced.lockedMargin_eq_zero htx).mp (hlocked tx htx), ?_⟩
    rw [← redeemsNothing_contractOrder (hplaced.of_mem htx).2.2]
    exact hnothing (le_refl _) (c, tx.effectivePrice.toNat, tx.contractOrder c)
      ((mem_cancelled_of_placed hplaced hnone heco).mpr ⟨tx, htx, rfl, rfl, rfl⟩)
  · intro hall
    have hlocked : ∀ tx ∈ txs, tx.lockedMargin sp = 0 := fun tx htx =>
      (hplaced.lockedMargin_eq_zero htx).mpr (hall tx htx).1
    have hnothing : ∀ e ∈ s.cancelled sender ecosystem c, RedeemsNothing sp
        (s.ledger.money sender sp.collateralCurrency .balance) e.2.2 := by
      rintro ⟨p, r, o⟩ he
      obtain ⟨tx, htx, rfl, rfl, rfl⟩ := (mem_cancelled_of_placed hplaced hnone heco).mp he
      rw [hplaced.money_eq hlocked]
      exact (redeemsNothing_contractOrder (hplaced.of_mem htx).2.2).mpr (hall tx htx).2
    obtain ⟨s', hs', hledger⟩ := cancelContracts_of_redeemsNothing hsps hentries hnothing
    refine ⟨_, s', bind_eq_ok.mpr ⟨s', hs', rfl⟩, ?_, ?_, ?_⟩
    · intro p r o
      rw [mem_level_of_cancelled hs']
      apply and_congr_right
      intro ho
      apply not_congr
      constructor
      · exact hentries (p, r, o)
      · intro hown
        rcases hplaced.mem_level.mp ho with ho | htx
        · exact absurd hown (hnone p r o ho)
        · exact (mem_cancelled_of_placed hplaced hnone heco).mpr htx
    · intro t _
      rw [hledger]
      exact hplaced.money_eq hlocked
    · intro a p t _
      rw [hledger]

def sampleTrader (margin : Nat) : NodeState :=
  { sampleMarket with
    spInfo := { sampleMarket.spInfo with
      entries := OrderedMap.set sampleMarket.spInfo.entries 5 (sampleTerms margin) }
    ledger := .ofPostings [⟨⟨['a'], 3, .balance⟩, 100 * coin⟩]
    kycRegister := fun _ _ => true }

def sampleOrderTx (leverage : UInt64) : CMPTransaction :=
  { CMPTransaction.setNull with
    sender := ['a'], txid := 1, block := 100, txIdx := 1
    amount := 10, effectivePrice := 7, leverage, tradingAction := actionBuy }

theorem rests_of_accepted {margin : Nat} {leverage : UInt64} {m : NodeState}
    (hcontract : (sampleTrader margin).getFutureContractObject (.plain .test)
      (sampleOrderTx leverage) = ⟨5, allPropertyTypeContract, 1000, 3, margin, 0⟩)
    (h : (sampleTrader margin).logicMathContractDexTrade (.plain .test) (sampleOrderTx leverage) =
      .ok (0, m)) :
    Rests (.plain .test) 5 (sampleTerms margin) (sampleOrderTx leverage) (sampleTrader margin)
      m where
  record := rfl
  contract := by rw [hcontract]
  collateral := by
    rw [hcontract]
    rfl
  margin := by
    rw [hcontract]
    rfl
  accepted := h
  amount := (by decide : 0 < asInt64 10)
  unfilled := rfl

/-- An order that locked no margin is taken back. -/
theorem restores_of_sampleOrder :
    ∃ s, Placed (.plain .test) ['a'] 5 (sampleTerms 1) (sampleTrader 1) [sampleOrderTx 11] s ∧
      Restores (sampleTrader 1) s ['a'] 1 5 (sampleTerms 1) := by
  obtain ⟨⟨rc, m⟩, hrun, rfl⟩ := exists_ok_of_map (g := fun r => r.1)
    (x := (sampleTrader 1).logicMathContractDexTrade (.plain .test) (sampleOrderTx 11)) (b := 0)
    (by decide +kernel)
  have hplaced : Placed (.plain .test) ['a'] 5 (sampleTerms 1) (sampleTrader 1)
      [sampleOrderTx 11] m :=
    .cons rfl (rests_of_accepted (by decide +kernel) hrun) .nil
  refine ⟨m, hplaced, (restores_iff hplaced rfl ?_ (by decide)).mpr ?_⟩
  · intro p r o ho
    exact absurd ho Keyed.not_mem_empty
  · rw [List.forall_mem_singleton]
    decide +kernel

/-- The cancellation of an order that locked a margin crashes the node. -/
theorem cancel_of_sampleOrder :
    ∃ s, Placed (.plain .test) ['a'] 5 (sampleTerms coin) (sampleTrader coin) [sampleOrderTx 1] s ∧
      s.ledger.money ['a'] 3 .contractdexMargin = 10 * coin ∧
      s.contractDexCancelEverything ['a'] 1 5 = .error (.tallyAssert ['a'] 3 (-10)) ∧
      ¬ Restores (sampleTrader coin) s ['a'] 1 5 (sampleTerms coin) := by
  obtain ⟨⟨rc, m⟩, hrun, hend⟩ := exists_ok_of_map
    (g := fun r => (r.1, r.2.ledger.money ['a'] 3 .contractdexMargin,
      failure (r.2.contractDexCancelEverything ['a'] 1 5)))
    (x := (sampleTrader coin).logicMathContractDexTrade (.plain .test) (sampleOrderTx 1))
    (b := (0, 10 * coin, some (.tallyAssert ['a'] 3 (-10)))) (by decide +kernel)
  simp only [Prod.mk.injEq] at hend
  obtain ⟨rfl, hmargin, hfailure⟩ := hend
  have hcancel := eq_error_of_failure hfailure
  refine ⟨m, .cons rfl (rests_of_accepted (by decide +kernel) hrun) .nil, hmargin, hcancel, ?_⟩
  rintro ⟨rc, s', hok, -⟩
  rw [hcancel] at hok
  cases hok

end Refund

end NodeState

end TradeLayer
