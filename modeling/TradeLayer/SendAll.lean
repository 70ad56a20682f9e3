import Mathlib.Data.List.TakeWhile
import TradeLayer.SendMoves

namespace TradeLayer
open Library

/-- What the transaction list keeps of a property that `SendAll` moved. -/
structure SendAllSubRecord where
  subRecordNumber : Nat
  propertyId : PropertyId
  nValue : Int
  deriving DecidableEq, Repr

namespace NodeState

variable {s s' m : NodeState} {tx : CMPTransaction} {keys moved : List PropertyId}
  {sent sent' : Nat} {records : List SendAllSubRecord} {p q : PropertyId}
variable {a : Address} {t : TallyType} {allowed : PropertyId → Bool}

def sendAllLoopRecorded (tx : CMPTransaction) : List PropertyId → Nat → NodeState →
    Except Abort (Nat × NodeState × List SendAllSubRecord)
  | [], sent, s => .ok (sent, s, [])
  | propertyId :: rest, sent, s =>
    if propertyId = 0 then .ok (sent, s, [])
    else if s.sendAllSkips tx propertyId then sendAllLoopRecorded tx rest sent s
    else
      let moneyAvailable := s.ledger.money tx.sender propertyId .balance
      if 0 < moneyAvailable then do
        let s ← s.assertTallies (Posting.transfer ⟨tx.sender, propertyId, .balance⟩
          ⟨tx.receiver, propertyId, .balance⟩ moneyAvailable)
        let (sent', s, records) ← sendAllLoopRecorded tx rest (sent + 1) s
        .ok (sent', s, ⟨sent + 1, propertyId, moneyAvailable⟩ :: records)
      else sendAllLoopRecorded tx rest sent s

/-- `SendAll` with the number of the moved properties and the records. -/
def logicMathSendAllRecorded (s : NodeState) (allowed : PropertyId → Bool) (tx : CMPTransaction) :
    Except Abort (Int × NodeState × Nat × List SendAllSubRecord) :=
  if ¬ allowed tx.ecosystem then .ok (pktErrorSendAll - 22, s, 0, [])
  else
    match s.ledger.mpTallyMap.get? tx.sender with
    | none => .ok (pktErrorSendAll - 54, s, 0, [])
    | some tally => do
      let (numberOfPropertiesSent, s, records) ←
        sendAllLoopRecorded tx (tally.toList.map Prod.fst) 0 s
      if numberOfPropertiesSent = 0 then return (pktErrorSendAll - 55, s, 0, records)
      else return (0, s, numberOfPropertiesSent, records)

theorem sendAllLoop_eq_map : sendAllLoop tx keys sent s =
    (sendAllLoopRecorded tx keys sent s).map fun r => (r.1, r.2.1) := by
  induction keys generalizing sent s with
  | nil => rfl
  | cons p keys ih =>
    simp only [sendAllLoop, sendAllLoopRecorded]
    split_ifs with hzero hskip hpos
    · rfl
    · exact ih
    · cases s.assertTallies (Posting.transfer ⟨tx.sender, p, .balance⟩
        ⟨tx.receiver, p, .balance⟩ (s.ledger.money tx.sender p .balance)) with
      | error e => rfl
      | ok m =>
        rw [ok_bind, ok_bind, ih]
        cases sendAllLoopRecorded tx keys (sent + 1) m <;> rfl
    · exact ih

theorem logicMathSendAll_eq_map : s.logicMathSendAll allowed tx =
    (s.logicMathSendAllRecorded allowed tx).map fun r => (r.1, r.2.1) := by
  rw [logicMathSendAll, logicMathSendAllRecorded]
  split_ifs
  · cases s.ledger.mpTallyMap.get? tx.sender with
    | none => rfl
    | some tally =>
      simp only [sendAllLoop_eq_map]
      cases sendAllLoopRecorded tx (tally.toList.map Prod.fst) 0 s with
      | error e => rfl
      | ok r =>
        simp only [Except.map, ok_bind]
        split_ifs <;> rfl
  · rfl

def sendAllMoves (s : NodeState) (tx : CMPTransaction) (propertyId : PropertyId) : Bool :=
  !s.sendAllSkips tx propertyId && 0 < s.ledger.money tx.sender propertyId .balance

def sendAllPostings (s : NodeState) (tx : CMPTransaction) (p : PropertyId) :
    List (Posting Account) :=
  Posting.transfer ⟨tx.sender, p, .balance⟩ ⟨tx.receiver, p, .balance⟩
    (s.ledger.money tx.sender p .balance)

def sendAllRecords (s : NodeState) (tx : CMPTransaction) (sent : Nat) (moved : List PropertyId) :
    List SendAllSubRecord :=
  (moved.zipIdx (sent + 1)).map fun e => ⟨e.2, e.1, s.ledger.money tx.sender e.1 .balance⟩

theorem money_of_sendAllPostings (h : s.Posted (s.sendAllPostings tx p) m) (hne : q ≠ p) :
    m.ledger.money a q t = s.ledger.money a q t := by
  rw [h.2.money_eq, sendAllPostings, Posting.net_transfer_eq]
  simp [Ne.symm hne]

/-- The loop moves the balances of the properties up to the identifier zero that it does not
pass over, and records each of them. -/
theorem sendAllLoopRecorded_spec (hnodup : keys.Nodup)
    (h : sendAllLoopRecorded tx keys sent s = .ok (sent', s', records)) :
    ∃ moved, moved = (keys.takeWhile (· ≠ 0)).filter (s.sendAllMoves tx) ∧
      sent' = sent + moved.length ∧ s.Posted (moved.flatMap (s.sendAllPostings tx)) s' ∧
      records = s.sendAllRecords tx sent moved := by
  induction keys generalizing sent s records with
  | nil =>
    cases h
    exact ⟨[], rfl, rfl, .nil _, rfl⟩
  | cons p keys ih =>
    obtain ⟨hp, hnodup⟩ := List.nodup_cons.mp hnodup
    rw [sendAllLoopRecorded] at h
    dsimp only at h
    by_cases hzero : p = 0
    · rw [if_pos hzero] at h
      cases h
      exact ⟨[], by simp [hzero], rfl, .nil _, rfl⟩
    rw [if_neg hzero] at h
    have htake : (p :: keys).takeWhile (· ≠ 0) = p :: keys.takeWhile (· ≠ 0) := by simp [hzero]
    rw [htake]
    by_cases hmoves : s.sendAllMoves tx p = true
    · obtain ⟨hskip, hpos⟩ := (Bool.and_eq_true _ _).mp hmoves
      rw [if_neg (by simpa using hskip), if_pos (of_decide_eq_true hpos)] at h
      obtain ⟨m, hm, h⟩ := bind_eq_ok.mp h
      obtain ⟨⟨n, m', records'⟩, hrest, h⟩ := bind_eq_ok.mp h
      cases h
      have hposted : s.Posted (s.sendAllPostings tx p) m := posted_of_assertTallies hm
      obtain ⟨moved, hmoved, hsent, hrestposted, hrecords⟩ := ih hnodup hrest
      have hsame : ∀ q ∈ keys, m.ledger.money tx.sender q .balance =
          s.ledger.money tx.sender q .balance := by
        intro q hq
        apply money_of_sendAllPostings hposted
        rintro rfl
        exact hp hq
      have hsub : ∀ q ∈ moved, q ∈ keys := by
        intro q hq
        rw [hmoved] at hq
        exact List.takeWhile_sublist _ |>.subset (List.mem_filter.mp hq).1
      have hfilter : (keys.takeWhile (· ≠ 0)).filter (m.sendAllMoves tx) =
          (keys.takeWhile (· ≠ 0)).filter (s.sendAllMoves tx) := by
        apply List.filter_congr
        intro q hq
        rw [sendAllMoves, sendAllMoves, hsame q ((List.takeWhile_sublist _).subset hq),
          sendAllSkips, sendAllSkips, hposted.2.freeze_eq]
      have hflat : moved.flatMap (m.sendAllPostings tx) =
          moved.flatMap (s.sendAllPostings tx) := by
        apply List.flatMap_congr
        intro q hq
        rw [sendAllPostings, sendAllPostings, hsame q (hsub q hq)]
      have hrecordsEq : m.sendAllRecords tx (sent + 1) moved =
          s.sendAllRecords tx (sent + 1) moved := by
        apply List.map_congr_left
        intro e he
        rw [hsame e.1 (hsub e.1 (List.fst_mem_of_mem_zipIdx he))]
      refine ⟨p :: moved, ?_, ?_, ?_, ?_⟩
      · rw [List.filter_cons_of_pos hmoves, ← hfilter, hmoved]
      · rw [hsent, List.length_cons]
        omega
      · rw [List.flatMap_cons, ← hflat]
        exact hposted.trans hrestposted
      · rw [hrecords, hrecordsEq]
        rfl
    · have hnext : sendAllLoopRecorded tx keys sent s = .ok (sent', s', records) := by
        rw [sendAllMoves, Bool.and_eq_true, not_and, Bool.not_eq_true', decide_eq_true_eq]
          at hmoves
        split_ifs at h with hskip hpos
        · exact h
        · exact absurd hpos (hmoves (by simpa using hskip))
        · exact h
      obtain ⟨moved, hmoved, hrest⟩ := ih hnodup hnext
      refine ⟨moved, ?_, hrest⟩
      rw [hmoved, List.filter_cons_of_neg hmoves]

/-- The properties of the ecosystem that the sender holds and is not frozen for. -/
def SendAllFor (s : NodeState) (tx : CMPTransaction) (q : PropertyId) : Prop :=
  (tx.ecosystem = tlPropertyMsc ∧ isMainEcosystemProperty q = true ∨
      tx.ecosystem = tlPropertyTmsc ∧ isTestEcosystemProperty q = true) ∧
    0 < s.ledger.money tx.sender q .balance ∧
    s.ledger.freeze.isAddressFrozen tx.sender q = false

/-- The balances of exactly one ecosystem go from the sender to the receiver, and the records list
them once each. -/
structure SendsOneEcosystem (s : NodeState) (tx : CMPTransaction) (nNewValue : Nat)
    (records : List SendAllSubRecord) (s' : NodeState) : Prop where
  ecosystem : tx.ecosystem = tlPropertyMsc ∨ tx.ecosystem = tlPropertyTmsc
  moved : ∀ q, s.SendAllFor tx q → s'.ledger.money tx.sender q .balance = 0 ∧
    s'.ledger.money tx.receiver q .balance =
      s.ledger.money tx.receiver q .balance + s.ledger.money tx.sender q .balance
  others : ∀ a q t, ¬ (s.SendAllFor tx q ∧ t = .balance ∧ (a = tx.sender ∨ a = tx.receiver)) →
    s'.ledger.money a q t = s.ledger.money a q t
  numbers : records.map SendAllSubRecord.subRecordNumber = List.range' 1 nNewValue
  recorded : ∀ q x, (∃ r ∈ records, r.propertyId = q ∧ r.nValue = x) ↔
    s.SendAllFor tx q ∧ x = s.ledger.money tx.sender q .balance
  once : (records.map SendAllSubRecord.propertyId).Nodup

theorem sendAllMoves_iff (heco : tx.ecosystem = tlPropertyMsc ∨ tx.ecosystem = tlPropertyTmsc)
    (hq : q ≠ 0) : s.sendAllMoves tx q = true ↔ s.SendAllFor tx q := by
  have hmain : isMainEcosystemProperty q = !isTestEcosystemProperty q := by
    simp [isMainEcosystemProperty, tlPropertyBtc, hq]
  have hne : tlPropertyMsc ≠ tlPropertyTmsc := by decide
  rw [sendAllMoves, sendAllSkips, SendAllFor, hmain]
  rcases heco with heco | heco
  · cases isTestEcosystemProperty q <;> simp [heco, hne, and_comm]
  · cases isTestEcosystemProperty q <;> simp [heco, hne.symm, and_comm]

theorem net_sendAllPostings :
    Posting.net (· = ⟨a, q, t⟩) (s.sendAllPostings tx p) = if p = q ∧ t = .balance then
      (if tx.receiver = a then s.ledger.money tx.sender p .balance else 0) -
        (if tx.sender = a then s.ledger.money tx.sender p .balance else 0) else 0 := by
  rw [sendAllPostings, Posting.net_transfer_eq]
  simp only [Account.mk.injEq, eq_comm (a := TallyType.balance)]
  by_cases hk : p = q ∧ t = .balance
  · simp [hk]
  · rw [if_neg hk, if_neg fun h => hk h.2, if_neg fun h => hk h.2, sub_zero]

theorem money_of_moved (h : s.Posted (moved.flatMap (s.sendAllPostings tx)) s')
    (hnodup : moved.Nodup) :
    s'.ledger.money a q t = s.ledger.money a q t + if q ∈ moved ∧ t = .balance then
      (if tx.receiver = a then s.ledger.money tx.sender q .balance else 0) -
        (if tx.sender = a then s.ledger.money tx.sender q .balance else 0) else 0 := by
  rw [h.2.money_eq]
  by_cases hq : q ∈ moved
  · rw [Posting.net_flatMap_of_mem hnodup hq, net_sendAllPostings]
    · simp [hq]
    · intro p _ hp
      rw [net_sendAllPostings, if_neg fun h => hp h.1]
  · rw [Posting.net_flatMap_eq_zero, if_neg fun h => hq h.1]
    intro p hp
    rw [net_sendAllPostings, if_neg]
    rintro ⟨rfl, -⟩
    exact hq hp

theorem logicMathSendAllRecorded_cases {nNewValue : Nat}
    (h : s.logicMathSendAllRecorded allowed tx = .ok (0, s', nNewValue, records)) :
    ∃ tally moved, s.ledger.mpTallyMap.get? tx.sender = some tally ∧
      (∀ p, p ∈ moved ↔ p ≠ 0 ∧ p ∈ tally.toList.map Prod.fst ∧ s.sendAllMoves tx p = true) ∧
      (∀ p ∈ tally.toList.map Prod.fst, p ≠ 0) ∧ moved.Nodup ∧ nNewValue = moved.length ∧
      s.Posted (moved.flatMap (s.sendAllPostings tx)) s' ∧
      records = s.sendAllRecords tx 0 moved := by
  unfold logicMathSendAllRecorded at h
  split_ifs at h with hallowed
  · cases htally : s.ledger.mpTallyMap.get? tx.sender with
    | none =>
      rw [htally] at h
      cases h
    | some tally =>
      rw [htally] at h
      obtain ⟨⟨sent, m, records'⟩, hloop, h⟩ := bind_eq_ok.mp h
      dsimp only at h
      split_ifs at h with hsent
      · cases h
      cases h
      have hsorted : (tally.toList.map Prod.fst).Pairwise (· < ·) :=
        List.pairwise_map.mpr tally.sorted
      have hnodup : (tally.toList.map Prod.fst).Nodup := hsorted.imp fun h => h.ne
      obtain ⟨moved, hmoved, hlength, hposted, hrecords⟩ := sendAllLoopRecorded_spec hnodup hloop
      -- identifier zero would be the first one and end the loop at once
      have hzero : ∀ p ∈ tally.toList.map Prod.fst, p ≠ 0 := by
        rintro p hp rfl
        cases hkeys : tally.toList.map Prod.fst with
        | nil => simp [hkeys] at hp
        | cons first keys =>
          rw [hkeys] at hp hsorted hmoved
          have hfirst : first = 0 := by
            rcases List.mem_cons.mp hp with hp | hp
            · exact hp.symm
            · exact absurd ((List.pairwise_cons.mp hsorted).1 0 hp) (Nat.not_lt_zero _)
          simp only [hfirst, ne_eq, not_true_eq_false, decide_false, Bool.false_eq_true,
            not_false_eq_true, List.takeWhile_cons_of_neg, List.filter_nil] at hmoved
          rw [hmoved] at hlength
          exact hsent hlength
      have htake : (tally.toList.map Prod.fst).takeWhile (· ≠ 0) = tally.toList.map Prod.fst :=
        List.takeWhile_eq_self_iff.mpr fun p hp => decide_eq_true (hzero p hp)
      rw [htake] at hmoved
      refine ⟨tally, moved, rfl, ?_, hzero, hmoved ▸ hnodup.filter _, by omega, hposted, hrecords⟩
      intro p
      rw [hmoved, List.mem_filter]
      exact ⟨fun hp => ⟨hzero p hp.1, hp⟩, And.right⟩
  · cases h

/-- Where `SendAll` returns zero, it moves exactly one ecosystem if and only if it was asked for
one of the two. -/
theorem sendsOneEcosystem_iff {nNewValue : Nat} (hne : tx.receiver ≠ tx.sender)
    (h : s.logicMathSendAllRecorded (s.typeAllowed tx) tx = .ok (0, s', nNewValue, records)) :
    SendsOneEcosystem s tx nNewValue records s' ↔
      tx.ecosystem = tlPropertyMsc ∨ tx.ecosystem = tlPropertyTmsc := by
  refine ⟨SendsOneEcosystem.ecosystem, fun heco => ?_⟩
  obtain ⟨tally, moved, htally, hmem, hzero, hnodup, hlength, hposted, hrecords⟩ :=
    logicMathSendAllRecorded_cases h
  have hmoved : ∀ q, q ∈ moved ↔ s.SendAllFor tx q := by
    intro q
    rw [hmem]
    constructor
    · rintro ⟨hq, -, hmoves⟩
      exact (sendAllMoves_iff heco hq).mp hmoves
    · intro hq
      have hkey : q ∈ tally.toList.map Prod.fst := by
        by_contra hkey
        have hnone : tally.get? q = none := by
          rw [OrderedMap.get?_eq_none, Keyed.find?_eq_none]
          rintro e he rfl
          exact hkey (List.mem_map_of_mem he)
        have hmoney : s.ledger.money tx.sender q .balance = 0 := by
          simp [Ledger.money, Ledger.tally, htally, Tally.getMoney, hnone]
        exact absurd hq.2.1 (by rw [hmoney]; exact lt_irrefl 0)
      exact ⟨hzero q hkey, hkey, (sendAllMoves_iff heco (hzero q hkey)).mpr hq⟩
  have hmoney {a : Address} {q : PropertyId} {t : TallyType} :=
    money_of_moved (a := a) (q := q) (t := t) hposted hnodup
  refine ⟨heco, ?_, ?_, ?_, ?_, ?_⟩
  · intro q hq
    have hq := (hmoved q).mpr hq
    rw [hmoney, hmoney]
    simp [hq, hne, hne.symm]
  · intro a q t hother
    rw [hmoney]
    by_cases hq : q ∈ moved ∧ t = .balance
    · have ha : ¬ (a = tx.sender ∨ a = tx.receiver) :=
        fun ha => hother ⟨(hmoved q).mp hq.1, hq.2, ha⟩
      rw [not_or] at ha
      simp [Ne.symm ha.1, Ne.symm ha.2]
    · rw [if_neg hq, add_zero]
  · rw [hrecords, sendAllRecords, List.map_map, hlength]
    exact List.zipIdx_map_snd ..
  · intro q x
    rw [hrecords, ← hmoved]
    constructor
    · rintro ⟨r, hr, rfl, rfl⟩
      obtain ⟨e, he, rfl⟩ := List.mem_map.mp hr
      exact ⟨List.fst_mem_of_mem_zipIdx he, rfl⟩
    · rintro ⟨hq, rfl⟩
      obtain ⟨i, hi, rfl⟩ := List.mem_iff_getElem.mp hq
      exact ⟨_, List.mem_map_of_mem (List.mk_add_mem_zipIdx_iff_getElem?.mpr
        (List.getElem?_eq_getElem hi)), rfl, rfl⟩
  · rw [hrecords, sendAllRecords, List.map_map]
    exact (List.zipIdx_map_fst 1 moved).symm ▸ hnodup

def sampleSender : NodeState :=
  { NodeState.initial .main .zero with
    ledger := .ofPostings [⟨⟨['a'], 3, .balance⟩, 7⟩, ⟨⟨['a'], 2147483651, .balance⟩, 9⟩] }

def sampleSendAll (ecosystem : Nat) : CMPTransaction :=
  { CMPTransaction.setNull with
    block := 400000
    sender := ['a']
    receiver := ['b']
    type := 4
    ecosystem }

theorem sendsOneEcosystem_sampleSender : ∃ s' nNewValue records,
    sampleSender.logicMathSendAllRecorded (sampleSender.typeAllowed (sampleSendAll 1))
        (sampleSendAll 1) = .ok (0, s', nNewValue, records) ∧
      SendsOneEcosystem sampleSender (sampleSendAll 1) nNewValue records s' := by
  obtain ⟨⟨rc, s', nNewValue, records⟩, hresult, hrc⟩ := exists_ok_of_map (by decide +kernel :
    (sampleSender.logicMathSendAllRecorded (sampleSender.typeAllowed (sampleSendAll 1))
      (sampleSendAll 1)).map Prod.fst = .ok 0)
  obtain rfl : rc = 0 := hrc
  exact ⟨s', nNewValue, records, hresult,
    (sendsOneEcosystem_iff (by decide) hresult).mpr (.inl rfl)⟩

/-- A request for the ecosystem 3 moves the tokens of both. -/
theorem sendAll_of_sampleSender :
    (sampleSender.logicMathSendAllRecorded (sampleSender.typeAllowed (sampleSendAll 3))
        (sampleSendAll 3)).map (fun r => (r.1, r.2.2,
          r.2.1.ledger.money ['b'] 3 .balance, r.2.1.ledger.money ['b'] 2147483651 .balance)) =
      .ok (0, (2, [⟨1, 3, 7⟩, ⟨2, 2147483651, 9⟩]), 7, 9) := by decide +kernel

end NodeState

end TradeLayer
