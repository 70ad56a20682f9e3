import TradeLayer.Packet
import TradeLayer.SendMoves

namespace TradeLayer
open Library

inductive Send
  | simpleSend
  | sendVesting
  | sendPeggedCurrency
  | commitChannel
  | transfer
  deriving DecidableEq, Repr

namespace Send

def logicMath (kind : Send) (s : NodeState) (env : Environment) (allowed : PropertyId → Bool)
    (tx : CMPTransaction) : Except Abort (Int × NodeState) :=
  match kind with
  | simpleSend => s.logicMathSimpleSend allowed tx
  | sendVesting => s.logicMathSendVestingTokens tx
  | sendPeggedCurrency => s.logicMathSendPeggedCurrency allowed tx
  | commitChannel => s.logicMathCommitChannel env allowed tx
  | transfer => s.logicMathTransfer env allowed tx

def amount (kind : Send) (tx : CMPTransaction) : UInt64 :=
  match kind with
  | simpleSend | sendVesting => tx.nValue
  | sendPeggedCurrency | transfer => tx.amount
  | commitChannel => tx.amountCommited

def debited (kind : Send) (tx : CMPTransaction) : Account :=
  match kind with
  | simpleSend | sendVesting => ⟨tx.sender, tx.property, .balance⟩
  | sendPeggedCurrency | commitChannel => ⟨tx.sender, tx.propertyId, .balance⟩
  | transfer => ⟨tx.sender, tx.propertyId, .channelReserve⟩

def credited (kind : Send) (tx : CMPTransaction) : List Account :=
  match kind with
  | simpleSend => [⟨tx.receiver, tx.property, .balance⟩]
  | sendVesting => [⟨tx.receiver, tx.property, .balance⟩, ⟨tx.receiver, tlPropertyMsc, .unvested⟩]
  | sendPeggedCurrency => [⟨tx.receiverOrSender.receiver, tx.propertyId, .balance⟩]
  | commitChannel | transfer => [⟨tx.receiver, tx.propertyId, .channelReserve⟩]

end Send

def wirePostings (debited : Account) (credited : List Account) (amount : UInt64) :
    List (Posting Account) :=
  ⟨debited, asInt64 (-amount)⟩ :: credited.map fun k => ⟨k, asInt64 amount⟩

def Ledger.stored (l : Ledger) (k : Account) : Int := l.money k.owner k.property k.ttype

/-- What sending tokens is for: nobody but the sender loses anything, and the amount leaves one
account and arrives in the others. -/
structure TakesFromSender (sender : Address) (debited : Account) (credited : List Account)
    (amount : Nat) (l l' : Ledger) : Prop where
  others : ∀ k : Account, k.owner ≠ sender → l.stored k ≤ l'.stored k
  debit : debited ∉ credited → l'.stored debited = l.stored debited - amount
  credit : ∀ k ∈ credited, k ≠ debited → l'.stored k = l.stored k + amount

variable {s s' : NodeState} {env : Environment} {allowed : PropertyId → Bool}
variable {tx : CMPTransaction} {kind : Send} {l l' : Ledger} {d k : Account} {cs : List Account}
variable {a : UInt64} {rc : Int}

theorem Send.posted_of_logicMath (h : kind.logicMath s env allowed tx = .ok (0, s')) :
    s.ledger.Posted (wirePostings (kind.debited tx) (kind.credited tx) (kind.amount tx))
      s'.ledger := by
  have hzero : ∀ {s s' : NodeState}, ¬ NodeState.Rejected 0 s s' := fun h => absurd h.1 (by decide)
  cases kind with
  | simpleSend =>
    rcases NodeState.logicMathSimpleSend_cases h with h | ⟨-, -, h⟩
    · exact absurd h hzero
    · exact h.2
  | sendVesting => exact (NodeState.logicMathSendVestingTokens_cases h).2.2
  | sendPeggedCurrency =>
    rcases NodeState.logicMathSendPeggedCurrency_cases h with h | ⟨-, -, h⟩
    · exact absurd h hzero
    · exact h
  | commitChannel =>
    rcases NodeState.logicMathCommitChannel_cases h with h | ⟨-, h⟩
    · exact absurd h hzero
    · exact h.2
  | transfer =>
    rcases NodeState.logicMathTransfer_cases h with h | ⟨-, h⟩
    · exact absurd h hzero
    · exact h.2

theorem Send.owner_debited : (kind.debited tx).owner = tx.sender := by
  cases kind <;> rfl

theorem Send.nodup_credited : (kind.credited tx).Nodup := by
  cases kind <;> simp [Send.credited]

theorem net_credited (hn : cs.Nodup) (n : Int) :
    Posting.net (· = k) (cs.map fun c => ⟨c, n⟩) = if k ∈ cs then n else 0 := by
  induction cs with
  | nil => rfl
  | cons c cs ih =>
    obtain ⟨hc, hn⟩ := List.nodup_cons.mp hn
    rw [List.map_cons, Posting.net_cons, ih hn]
    by_cases hk : c = k
    · subst hk
      simp [hc]
    · simp [hk, Ne.symm hk]

theorem stored_of_posted (hn : cs.Nodup) (h : l.Posted (wirePostings d cs a) l') :
    l'.stored k = l.stored k + (if d = k then asInt64 (-a) else 0) +
      if k ∈ cs then asInt64 a else 0 := by
  have hm := h.money_eq k.owner k.property k.ttype
  rw [wirePostings, Posting.net_cons, net_credited hn, ← add_assoc] at hm
  exact hm

theorem takesFromSender_of_lt {sender : Address} (hd : d.owner = sender) (hn : cs.Nodup)
    (h : l.Posted (wirePostings d cs a) l') (ha : a.toNat < 2 ^ 63) :
    TakesFromSender sender d cs a.toNat l l' where
  others k hk := by
    have hdk : d ≠ k := fun he => hk (he ▸ hd)
    rw [stored_of_posted hn h, if_neg hdk, asInt64_of_lt ha]
    split_ifs <;> omega
  debit hdc := by
    rw [stored_of_posted hn h, if_pos rfl, if_neg hdc, asInt64_neg_of_lt ha]
    omega
  credit k hk hkd := by
    rw [stored_of_posted hn h, if_neg (Ne.symm hkd), if_pos hk, asInt64_of_lt ha]
    omega

theorem takesFromSender_of_eq {sender : Address} (hd : d.owner = sender) (hn : cs.Nodup)
    (hne : cs ≠ []) (h : l.Posted (wirePostings d cs a) l') (hcs : ∀ c ∈ cs, c = d) (n : Nat) :
    TakesFromSender sender d cs n l l' where
  others k hk := by
    have hdk : d ≠ k := fun he => hk (he ▸ hd)
    have hkc : k ∉ cs := fun hc => hdk (hcs k hc).symm
    rw [stored_of_posted hn h, if_neg hdk, if_neg hkc]
    omega
  debit hdc := by
    obtain ⟨c, hc⟩ := List.exists_mem_of_ne_nil cs hne
    exact absurd (hcs c hc ▸ hc) hdc
  credit k hk hkd := absurd (hcs k hk) hkd

/-- A send that succeeds takes from its sender alone, by the amount read as an unsigned number,
exactly when that amount fits a signed variable or the sender credits the debited account. -/
theorem send_takesFromSender_iff (kind : Send)
    (h : kind.logicMath s env allowed tx = .ok (0, s')) :
    TakesFromSender tx.sender (kind.debited tx) (kind.credited tx) (kind.amount tx).toNat
        s.ledger s'.ledger ↔
      (kind.amount tx).toNat < 2 ^ 63 ∨ ∀ k ∈ kind.credited tx, k = kind.debited tx := by
  have hp := Send.posted_of_logicMath h
  have hn : (kind.credited tx).Nodup := Send.nodup_credited
  constructor
  · intro ht
    by_contra hnot
    push Not at hnot
    obtain ⟨ha, k, hk, hkd⟩ := hnot
    have hstored := stored_of_posted (k := k) hn hp
    rw [if_neg (Ne.symm hkd), if_pos hk, asInt64_of_ge ha, ht.credit k hk hkd] at hstored
    omega
  · rintro (ha | hcs)
    · exact takesFromSender_of_lt Send.owner_debited hn hp ha
    · refine takesFromSender_of_eq Send.owner_debited hn ?_ hp hcs _
      cases kind <;> simp [Send.credited]

def sampleAmount (type : UInt8) (amount : List UInt8) (sender receiver : Address) (block : Int) :
    CMPTransaction :=
  (CMPTransaction.set sender receiver 0 0 block 0 ([0, 0, 0, type, 0, 0, 0, 3] ++ amount)
    0).unlockLogic

def sampleVested : Except Abort NodeState :=
  (NodeState.oneManaged .regtest ['i']).process (.plain .regtest) .none
    [sampleAmount 55 [0, 0, 0, 0, 0, 0, 0, 10] ['i'] ['c'] 100,
      sampleAmount 5 [0, 0, 0, 0, 0, 0, 0, 1] ['c'] ['b'] 101]

theorem send_takesFromSender_of_sampleVested :
    ∃ s s', sampleVested = .ok s ∧
      let tx := { sampleAmount 5 [] ['c'] ['b'] 102 with property := 3, nValue := 2 }
      Send.sendVesting.logicMath s (.plain .regtest) (fun _ => true) tx = .ok (0, s') ∧
        TakesFromSender ['c'] ⟨['c'], 3, .balance⟩
          [⟨['b'], 3, .balance⟩, ⟨['b'], 1, .unvested⟩] 2 s.ledger s'.ledger := by
  let tx := { sampleAmount 5 [] ['c'] ['b'] 102 with property := 3, nValue := 2 }
  obtain ⟨⟨s, rc, s'⟩, hrun, hrc⟩ := exists_ok_of_map (g := fun r => r.2.1) (b := 0)
    (x := do
      let s ← sampleVested
      let r ← Send.sendVesting.logicMath s (.plain .regtest) (fun _ => true) tx
      return (s, r)) (by decide +kernel)
  obtain ⟨s, hs, hrun⟩ := bind_eq_ok.mp hrun
  obtain ⟨r, hr, hrun⟩ := bind_eq_ok.mp hrun
  cases hrun
  dsimp only at hrc
  subst hrc
  exact ⟨s, s', hs, hr, (send_takesFromSender_iff .sendVesting hr).mpr (.inl (by decide))⟩

/-- An amount that reads as minus one takes a vested token from the receiver. -/
theorem vesting_takes_from_receiver :
    (do
      let s ← sampleVested
      let (rc, s') ← s.interpretPacket (.plain .regtest) .none
        (sampleAmount 5 [255, 255, 255, 255, 255, 255, 255, 255] ['a'] ['b'] 102)
      return (rc, s.ledger.money ['b'] 3 .balance, s'.ledger.money ['b'] 3 .balance)) =
    .ok (0, 1, 0) := by
  decide +kernel

end TradeLayer
