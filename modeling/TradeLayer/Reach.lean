import TradeLayer.DisableFreezing
import TradeLayer.FreezeHistory
import TradeLayer.Handlers

namespace TradeLayer
open Library

theorem FreezeState.frozen_of_disableFreezing {f f' : FreezeState} {p : PropertyId}
    (h : f.disableFreezing p = .ok f') : f'.setFrozenAddresses = f.setFrozenAddresses := by
  by_cases hpos : 0 < f.lastLiveBlock p
  · obtain ⟨-, -, rfl⟩ := (disableFreezing_eq_ok hpos).mp h
    rfl
  · rw [disableFreezing, if_neg hpos] at h
    cases h

theorem frozen_of_freezeLogic {kind : TransactionType} {f f' : FreezeState} {liveBlock rc : Int}
    {tx : CMPTransaction} {a : Address} {p : PropertyId}
    (h : freezeLogic kind f liveBlock tx = .ok (rc, f')) (hfrozen : f'.isAddressFrozen a p = true) :
    f.isAddressFrozen a p = true ∨ p = tx.property := by
  rw [FreezeState.isAddressFrozen_iff] at hfrozen ⊢
  unfold freezeLogic at h
  split_ifs at h
  · cases h
    exact .inl hfrozen
  · rw [FreezeState.enableFreezing_eq] at h
    cases h
    exact .inl hfrozen
  · obtain ⟨f'', hf'', heq⟩ := exists_ok_of_map h
    cases heq
    exact .inl (FreezeState.frozen_of_disableFreezing hf'' ▸ hfrozen)
  · cases h
    exact .inl hfrozen
  · rw [FreezeState.freezeAddress_eq] at h
    cases h
    rcases Keyed.mem_insert.mp hfrozen with hf | ⟨heq, -⟩
    · exact .inl hf
    · exact .inr (Prod.mk.inj heq).2
  · rw [FreezeState.unfreezeAddress_eq] at h
    cases h
    exact .inl (Keyed.mem_erase.mp hfrozen).1
  · cases h
    exact .inl hfrozen
  · cases h
    exact .inl hfrozen

namespace NodeState

variable {s s' : NodeState} {env : Environment} {others : OtherTypes}
variable {place place' : Int ×ₗ Nat} {raw : RawTransaction} {kind : TransactionType}
variable {block rc : Int} {idx : Nat}

/-- What every message finds: orders rest at places that have passed, and nobody is frozen for
a base property. -/
structure Sound (place : Int ×ₗ Nat) (s : NodeState) : Prop where
  metadex : ∀ k ∈ Book.positions s.metadex, k ≤ place
  contractdex : ∀ k ∈ Book.positions s.contractdex, k ≤ place
  unmanaged : ∀ a p, s.ledger.freeze.isAddressFrozen a p = true →
    p ≠ tlPropertyMsc ∧ p ≠ tlPropertyTmsc

namespace Sound

theorem metadex_fresh (hs : Sound place s) (h : place < place') :
    place' ∉ Book.positions s.metadex :=
  fun hk => absurd (hs.metadex _ hk) (not_le.mpr h)

theorem contractdex_fresh (hs : Sound place s) (h : place < place') :
    place' ∉ Book.positions s.contractdex :=
  fun hk => absurd (hs.contractdex _ hk) (not_le.mpr h)

theorem initial {network : Network} {garbage : SPEntry} :
    Sound place (.initial network garbage) where
  metadex := by simp [NodeState.initial]
  contractdex := by simp [NodeState.initial]
  unmanaged a p h := by
    rw [FreezeState.isAddressFrozen_iff] at h
    exact absurd h Keyed.not_mem_empty

theorem mono (hs : Sound place s) (h : place ≤ place') : Sound place' s :=
  ⟨fun k hk => (hs.metadex k hk).trans h, fun k hk => (hs.contractdex k hk).trans h, hs.unmanaged⟩

theorem keeps (hs : Sound place s) (hle : place ≤ place') (h : Keeps place' s s') :
    Sound place' s' where
  metadex k hk := by
    rcases h.metadex hk with rfl | hk
    · exact le_refl _
    · exact (hs.metadex k hk).trans hle
  contractdex k hk := by
    rcases h.contractdex hk with rfl | hk
    · exact le_refl _
    · exact (hs.contractdex k hk).trans hle
  unmanaged := by
    rw [h.spares.freeze_eq]
    exact hs.unmanaged

theorem freezing (hs : Sound place s) (hkind : TransactionType.ofCode raw.type = some kind)
    (hf : kind.IsFreezing = true)
    (h : s.interpretPacket env others (raw.parse block idx).unlockLogic = .ok (rc, s')) :
    Sound place s' := by
  rcases interpretPacket_freezing_cases hkind hf h with
    ⟨-, rfl⟩ | ⟨-, tx, f, -, -, -, -, hm, hlogic, rfl⟩
  · exact hs
  · obtain ⟨sp, hsp, hmanual, -⟩ := hm.record
    refine ⟨hs.metadex, hs.contractdex, fun a p hfrozen => ?_⟩
    rcases frozen_of_freezeLogic hlogic hfrozen with hf | rfl
    · exact hs.unmanaged a p hf
    · exact SPInfo.manual_of_getSP hsp hmanual

theorem keeps_of_logicMath {tx : CMPTransaction} (hs : Sound place s)
    (hplace : place < toLex (tx.block, tx.txIdx))
    (hkind : TransactionType.ofCode tx.type = some kind) (hmodelled : kind.Modelled = true)
    (hf : kind.IsFreezing = false) (h : s.logicMath env others tx = .ok (rc, s')) :
    Keeps (toLex (tx.block, tx.txIdx)) s s' := by
  by_cases hoffer : kind = .tradeOffer
  · rw [logicMath, hkind, hoffer] at h
    exact keeps_of_logicMathTradeOffer h
  by_cases hcontract : kind = .contractdexTrade
  · rw [logicMath, hkind, hcontract] at h
    exact keeps_of_logicMathContractDexTrade (hs.contractdex_fresh hplace) h
  have hplain : kind.IsPlain = true := by
    simp [TransactionType.IsPlain, hmodelled, hf, hoffer, hcontract]
  exact (answered_of_logicMath hkind hplain (hs.metadex_fresh hplace) h).keeps

theorem message (hs : Sound place s) (hplace : place < toLex (block, idx))
    (hkind : TransactionType.ofCode raw.type = some kind) (hmodelled : kind.Modelled = true)
    (h : s.interpretPacket env others (raw.parse block idx).unlockLogic = .ok (rc, s')) :
    Sound (toLex (block, idx)) s' := by
  by_cases hf : kind.IsFreezing = true
  · exact (hs.freezing hkind hf h).mono hplace.le
  have hpkt : CMPTransaction.readNat (raw.parse block idx).unlockLogic.pkt 2 2 = raw.type := rfl
  rcases interpretPacket_cases ((congrArg _ hpkt).trans hkind) hmodelled h with
    ⟨-, rfl⟩ | ⟨tx, -, -, hheader, -, h⟩
  · exact hs.mono hplace.le
  have htx : TransactionType.ofCode tx.type = some kind := (congrArg _ hheader.type).trans hkind
  have htxPlace : toLex (tx.block, tx.txIdx) = toLex (block, idx) := by
    rw [hheader.block, hheader.txIdx]
    rfl
  apply hs.keeps hplace.le
  rw [← htxPlace] at hplace ⊢
  exact hs.keeps_of_logicMath hplace htx hmodelled (Bool.not_eq_true _ ▸ hf) h

theorem clearFreezeState (hs : Sound place s) : Sound place s.clearFreezeState where
  metadex := hs.metadex
  contractdex := hs.contractdex
  unmanaged a p h := by
    rw [FreezeState.isAddressFrozen_iff] at h
    exact absurd h Keyed.not_mem_empty

theorem loadFreezeLoop {rs : List TxRecord} {tip : Int} {n n' : Nat} (hs : Sound place s)
    (hrs : ∀ r ∈ rs, isFreezing r = true)
    (h : NodeState.loadFreezeLoop env others tip rs n s = .ok (some (n', s'))) :
    Sound place s' := by
  induction rs generalizing s n with
  | nil =>
    cases h
    exact hs
  | cons r rs ih =>
    obtain ⟨hr, hrs⟩ := List.forall_mem_cons.mp hrs
    unfold NodeState.loadFreezeLoop at h
    split_ifs at h
    · exact ih hs hrs h
    · obtain ⟨⟨rc, m⟩, hm, h⟩ := bind_eq_ok.mp h
      dsimp only at h
      split_ifs at h
      · obtain ⟨-, kind, hkind, hf⟩ := isFreezing_iff.mp hr
        exact ih (hs.freezing hkind hf hm) hrs h
      · cases h

theorem loadFreezeState {txList : List TxRecord} {tip : Int} (hs : Sound place s)
    (h : s.loadFreezeState env others txList tip = .ok (some s')) : Sound place s' := by
  obtain ⟨r, hr, h⟩ := bind_eq_ok.mp h
  rcases r with _ | ⟨n, m⟩
  · cases h
  · dsimp only at h
    split_ifs at h
    cases h
    refine hs.loadFreezeLoop (fun r hr => ?_) hr
    exact (List.mem_filter.mp ((List.mem_insertionSort _).mp hr)).2

end Sound

/-- The states that a node reaches at a place of the chain: by the messages that it interprets,
each at a later place than the one before, by restarts that load the freeze sets, and by
anything else that leaves the freeze sets alone and files orders at places that have passed. -/
inductive Reached (env : Environment) (others : OtherTypes) : Int ×ₗ Nat → NodeState → Prop
  | start {place : Int ×ₗ Nat} {network : Network} {garbage : SPEntry} :
      Reached env others place (.initial network garbage)
  | message {place : Int ×ₗ Nat} {s s' : NodeState} {raw : RawTransaction}
      {kind : TransactionType} {block rc : Int} {idx : Nat} (hs : Reached env others place s)
      (hplace : place < toLex (block, idx))
      (hkind : TransactionType.ofCode raw.type = some kind) (hmodelled : kind.Modelled = true)
      (h : s.interpretPacket env others (raw.parse block idx).unlockLogic = .ok (rc, s')) :
      Reached env others (toLex (block, idx)) s'
  | restart {place : Int ×ₗ Nat} {s s' : NodeState} {txList : List TxRecord} {tip : Int}
      (hs : Reached env others place s)
      (h : s.clearFreezeState.loadFreezeState env others txList tip = .ok (some s')) :
      Reached env others place s'
  | other {place place' : Int ×ₗ Nat} {s s' : NodeState} (hs : Reached env others place s)
      (hplace : place ≤ place') (hfreeze : s'.ledger.freeze = s.ledger.freeze)
      (hmetadex : ∀ k ∈ Book.positions s'.metadex, k ≤ place')
      (hcontractdex : ∀ k ∈ Book.positions s'.contractdex, k ≤ place') :
      Reached env others place' s'

def handle (s : NodeState) (env : Environment) (others : OtherTypes) (block : Int) (idx : Nat)
    (raw : RawTransaction) : NodeState :=
  s.after (s.interpretPacket env others (raw.parse block idx).unlockLogic)

theorem Reached.handle (hs : Reached env others place s) (hplace : place < toLex (block, idx))
    (hkind : TransactionType.ofCode raw.type = some kind) (hmodelled : kind.Modelled = true)
    (h : (s.interpretPacket env others (raw.parse block idx).unlockLogic).toBool = true) :
    Reached env others (toLex (block, idx)) (s.handle env others block idx raw) := by
  obtain ⟨rc, hrc⟩ := eq_ok_after (s := s) h
  exact hs.message hplace hkind hmodelled hrc

theorem Reached.sound (h : Reached env others place s) : Sound place s := by
  induction h with
  | start => exact .initial
  | message _ hplace hkind hmodelled h ih => exact ih.message hplace hkind hmodelled h
  | restart _ h ih => exact ih.clearFreezeState.loadFreezeState h
  | other _ hplace hfreeze hmetadex hcontractdex ih =>
    exact ⟨hmetadex, hcontractdex, hfreeze ▸ ih.unmanaged⟩

end NodeState

end TradeLayer
