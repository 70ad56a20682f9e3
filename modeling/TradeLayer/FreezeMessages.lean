import TradeLayer.Chain
import TradeLayer.ManagedMoves

namespace TradeLayer
open Library

variable {kind : TransactionType} {env : Environment} {others : OtherTypes}

def TransactionType.IsFreezing : TransactionType → Bool
  | .enableFreezing | .disableFreezing | .freezePropertyTokens | .unfreezePropertyTokens => true
  | _ => false

def freezeLogic (kind : TransactionType) (f : FreezeState) (liveBlock : Int)
    (tx : CMPTransaction) : Except Abort (Int × FreezeState) :=
  if kind = .enableFreezing then
    if f.isFreezingEnabled tx.property tx.block then .ok (pktErrorTokens - 49, f)
    else (f.enableFreezing tx.property liveBlock).map ((0, ·))
  else if ¬ f.isFreezingEnabled tx.property tx.block then .ok (pktErrorTokens - 47, f)
  else if kind = .disableFreezing then (f.disableFreezing tx.property).map ((0, ·))
  else if kind = .freezePropertyTokens then
    if f.isAddressFrozen tx.receiver tx.property then .ok (pktErrorTokens - 50, f)
    else (f.freezeAddress tx.receiver tx.property).map ((0, ·))
  else if ¬ f.isAddressFrozen tx.receiver tx.property then .ok (pktErrorTokens - 48, f)
  else (f.unfreezeAddress tx.receiver tx.property).map ((0, ·))

theorem freezeLogic_cases {f f' : FreezeState} {liveBlock rc : Int}
    {tx : CMPTransaction} (h : freezeLogic kind f liveBlock tx = .ok (rc, f')) :
    rc < 0 ∧ f' = f ∨ rc = 0 := by
  have hmap : ∀ {x : Except Abort FreezeState}, x.map ((0, ·)) = .ok (rc, f') → rc = 0 := by
    intro x hx
    obtain ⟨_, -, hr⟩ := exists_ok_of_map hx
    cases hr
    rfl
  have hrefused : ∀ {r : Int}, r < 0 → (.ok (r, f) : Except Abort _) = .ok (rc, f') →
      rc < 0 ∧ f' = f := by
    intro r hr hx
    cases hx
    exact ⟨hr, rfl⟩
  unfold freezeLogic at h
  split_ifs at h
  all_goals first
    | exact .inr (hmap h)
    | exact .inl (hrefused (by decide) h)

theorem CMPTransaction.interpretPayload_txIdx {tx tx' : CMPTransaction} {idx : Nat}
    (hkind : TransactionType.ofCode tx.type = some kind) (hf : kind.IsFreezing = true)
    (h : tx.interpretPayload env others = some tx') :
    { tx with txIdx := idx }.interpretPayload env others = some { tx' with txIdx := idx } := by
  rw [interpretPayload, hkind] at h ⊢
  cases kind <;> cases hf
  all_goals
    simp only [interpretEnableFreezing, interpretDisableFreezing, interpretProperty,
      interpretFreezeTokens, interpretUnfreezeTokens, interpretAddress] at h ⊢
    split_ifs at h ⊢
    cases h
    rfl

def RawTransaction.property (raw : RawTransaction) : PropertyId :=
  CMPTransaction.readNat raw.pkt 4 4

theorem CMPTransaction.property_of_interpretPayload {tx tx' : CMPTransaction}
    (hkind : TransactionType.ofCode tx.type = some kind)
    (hk : kind.IsFreezing = true ∨ kind = .changeIssuerAddress)
    (h : tx.interpretPayload env others = some tx') : tx'.property = readNat tx.pkt 4 4 := by
  rw [interpretPayload, hkind] at h
  rcases hk with hk | rfl
  · cases kind <;> cases hk
    all_goals
      simp only [interpretEnableFreezing, interpretDisableFreezing, interpretProperty,
        interpretFreezeTokens, interpretUnfreezeTokens, interpretAddress] at h
      split_ifs at h
      cases h
      rfl
  · simp only [interpretChangeIssuer, interpretProperty] at h
    split_ifs at h
    cases h
    rfl

namespace NodeState

variable {s s' t : NodeState} {env : Environment} {others : OtherTypes} {tx : CMPTransaction}
variable {kind : TransactionType} {raw : RawTransaction} {block : Int} {idx : Nat} {rc : Int}

theorem setFreeze_eq_map {freeze : Except Abort FreezeState} :
    s.setFreeze freeze = (freeze.map ((0, ·))).map fun r => (r.1, s.withFreeze r.2) := by
  cases freeze <;> rfl

theorem logicMath_freezing (hkind : TransactionType.ofCode tx.type = some kind)
    (hf : kind.IsFreezing = true) :
    s.logicMath env others tx = s.managedByIssuer env (s.typeAllowed tx) tx
      ((freezeLogic kind s.ledger.freeze (s.liveBlock tx) tx).map
        fun r => (r.1, s.withFreeze r.2)) := by
  rw [logicMath, hkind]
  cases kind <;> cases hf
  all_goals
    simp only [logicMathEnableFreezing, logicMathDisableFreezing, logicMathFreezeTokens,
      logicMathUnfreezeTokens, freezeLogic, reduceCtorEq, if_true, if_false]
    congr 1
    split_ifs
    all_goals first
      | rfl
      | exact setFreeze_eq_map

theorem interpretPacket_freezing_cases (hkind : TransactionType.ofCode raw.type = some kind)
    (hf : kind.IsFreezing = true)
    (h : s.interpretPacket env others (raw.parse block idx).unlockLogic = .ok (rc, s')) :
    Rejected rc s s' ∨ rc = 0 ∧ ∃ tx f, ¬ raw.pkt.length < 4 ∧
      (raw.parse block idx).unlockLogic.withHeader.interpretPayload env others = some tx ∧
      (raw.parse block idx).unlockLogic.withHeader.SameHeader tx ∧
      s.ledger.freeze.isAddressFrozen tx.sender tx.property = false ∧
      s.IssuerManages env (s.typeAllowed tx) tx ∧
      freezeLogic kind s.ledger.freeze (s.liveBlock tx) tx = .ok (0, f) ∧
      s' = s.withFreeze f := by
  have hmodelled : kind.Modelled = true := by cases kind <;> first | rfl | cases hf
  have hpkt : CMPTransaction.readNat (raw.parse block idx).unlockLogic.pkt 2 2 = raw.type := rfl
  rcases interpretPacket_cases ((congrArg _ hpkt).trans hkind) hmodelled h with
    h | ⟨tx, hlen, hparse, hheader, hfrozen, h⟩
  · exact .inl h
  · have htx : TransactionType.ofCode tx.type = some kind := (congrArg _ hheader.type).trans hkind
    rw [logicMath_freezing htx hf] at h
    rcases managedByIssuer_cases h with h | ⟨hm, h⟩
    · exact .inl h
    · obtain ⟨⟨rc', f⟩, hlogic, hr⟩ := exists_ok_of_map h
      cases hr
      rcases freezeLogic_cases hlogic with ⟨hrc, rfl⟩ | rfl
      · exact .inl ⟨hrc, rfl⟩
      · exact .inr ⟨rfl, tx, f, hlen, hparse, hheader, hfrozen, hm, hlogic, rfl⟩

/-- What the checks of a freezing message read, apart from the freeze sets. -/
structure Admits (s t : NodeState) (tx : CMPTransaction) : Prop where
  params : t.params = s.params
  property_valid : t.spInfo.isPropertyIdValid tx.property = s.spInfo.isPropertyIdValid tx.property
  record : ∀ sp, s.spInfo.getSP tx.property = some sp → sp.manual = true →
    ∃ sp', t.spInfo.getSP tx.property = some sp' ∧ sp'.manual = true ∧
      sp'.getIssuer tx.block = sp.getIssuer tx.block

/-- A freezing message that was valid is valid again, wherever it stands in the block, for a
node with the same freeze sets that knows the same issuer. -/
theorem interpretPacket_freezing_again (hkind : TransactionType.ofCode raw.type = some kind)
    (hf : kind.IsFreezing = true)
    (h : s.interpretPacket env others (raw.parse block idx).unlockLogic = .ok (0, s'))
    (hfreeze : t.ledger.freeze = s.ledger.freeze)
    (hadmits : ∀ tx : CMPTransaction, tx.property = raw.property → tx.block = block →
      tx.sender = raw.sender → s.IssuerManages env (s.typeAllowed tx) tx → s.Admits t tx) :
    t.interpretPacket env others (raw.parse block 0).unlockLogic =
      .ok (0, t.withFreeze s'.ledger.freeze) := by
  rcases interpretPacket_freezing_cases hkind hf h with
    h | ⟨-, tx, f, hlen, hparse, hheader, hfrozen, hm, hlogic, rfl⟩
  · exact absurd h.1 (lt_irrefl _)
  have hkind' : TransactionType.ofCode (raw.parse block idx).unlockLogic.withHeader.type =
    some kind := hkind
  let tx₀ := { tx with txIdx := 0 }
  have hint : (raw.parse block 0).unlockLogic.interpretTransaction env others = some tx₀ := by
    rw [CMPTransaction.interpretTransaction_eq]
    exact (if_neg hlen).trans (CMPTransaction.interpretPayload_txIdx hkind' hf hparse)
  have hproperty := CMPTransaction.property_of_interpretPayload hkind' (.inl hf) hparse
  have ha := hadmits tx hproperty hheader.block hheader.sender hm
  have hmt : t.IssuerManages env (t.typeAllowed tx₀) tx₀ := by
    obtain ⟨sp, hsp, hmanual, hissuer⟩ := hm.record
    obtain ⟨sp', hsp', hmanual', hissuer'⟩ := ha.record sp hsp hmanual
    refine ⟨hm.block_active, ?_, ha.property_valid.trans hm.property_valid, sp', hsp', hmanual', ?_⟩
    · have hallowed := hm.allowed_property
      rw [typeAllowed, ← ha.params] at hallowed
      exact hallowed
    · exact hissuer.trans hissuer'.symm
  have hlive : t.liveBlock tx₀ = s.liveBlock tx := by
    rw [liveBlock, liveBlock, isFeatureActivated, isFeatureActivated, ha.params]
  have htx : TransactionType.ofCode tx₀.type = some kind := (congrArg _ hheader.type).trans hkind
  rw [interpretPacket_of_interpret rfl hint, hfreeze,
    show s.ledger.freeze.isAddressFrozen tx₀.sender tx₀.property = false from hfrozen,
    logicMath_freezing htx hf, managedByIssuer_eq hmt, hlive, hfreeze]
  have hlogic' : freezeLogic kind s.ledger.freeze (s.liveBlock tx) tx₀ = .ok (0, f) := hlogic
  rw [hlogic']
  rfl

theorem interpretPacket_changeIssuer_cases
    (hkind : TransactionType.ofCode raw.type = some .changeIssuerAddress)
    (h : s.interpretPacket env others (raw.parse block idx).unlockLogic = .ok (rc, s')) :
    Rejected rc s s' ∨ rc = 0 ∧
      (raw.property ≠ tlPropertyMsc ∧ raw.property ≠ tlPropertyTmsc) ∧
      ∃ sp sp' a, s.spInfo.getSP raw.property = some sp ∧ sp'.manual = sp.manual ∧
        sp'.historicalIssuers = (sp.updateIssuer block idx a).historicalIssuers ∧
        s' = { s with spInfo := (s.spInfo.updateSP raw.property sp').2 } := by
  have hpkt : CMPTransaction.readNat (raw.parse block idx).unlockLogic.pkt 2 2 = raw.type := rfl
  rcases interpretPacket_cases ((congrArg _ hpkt).trans hkind) rfl h with
    h | ⟨tx, -, hparse, hheader, -, h⟩
  · exact .inl h
  · have hkind' : TransactionType.ofCode (raw.parse block idx).unlockLogic.withHeader.type =
      some .changeIssuerAddress := hkind
    have hread := CMPTransaction.property_of_interpretPayload hkind' (.inr rfl) hparse
    have hproperty : tx.property = raw.property := hread
    have htype : tx.type = raw.type := hheader.type
    rw [logicMath, htype, hkind] at h
    rcases logicMathChangeIssuer_cases h with h | ⟨rfl, hp, sp, blockHash, hsp, rfl⟩
    · exact .inl h
    · rw [hproperty] at hp hsp
      refine .inr ⟨rfl, hp, sp, withIssuer sp tx blockHash, tx.receiver, hsp, rfl, ?_,
        by rw [hproperty]⟩
      have hblock : tx.block = block := hheader.block
      have hidx : tx.txIdx = idx := hheader.txIdx
      rw [← hblock, ← hidx]
      rfl

end NodeState

end TradeLayer
