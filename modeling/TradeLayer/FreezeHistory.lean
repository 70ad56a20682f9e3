import TradeLayer.FreezeMessages

namespace TradeLayer
open Library

def RawTransaction.IsFreezeMessage (raw : RawTransaction) : Prop :=
  ∃ kind, TransactionType.ofCode raw.type = some kind ∧
    (kind.IsFreezing = true ∨ kind = .changeIssuerAddress)

def TxRecord.ChangesIssuer (r : TxRecord) : Prop :=
  r.valid = true ∧ TransactionType.ofCode r.raw.type = some .changeIssuerAddress

instance {r : TxRecord} : Decidable r.ChangesIssuer := inferInstanceAs (Decidable (_ ∧ _))

namespace NodeState

variable {s s' m : NodeState} {env : Environment} {others : OtherTypes} {r : TxRecord}
variable {rs : List TxRecord} {p : PropertyId} {b tip : Int} {a : Address}

theorem isFreezing_iff : isFreezing r = true ↔ r.valid = true ∧
    ∃ kind, TransactionType.ofCode r.raw.type = some kind ∧ kind.IsFreezing = true := by
  simp only [isFreezing, TransactionType.ofCode_eq_some, Bool.and_eq_true, Bool.or_eq_true,
    decide_eq_true_eq, and_comm (b := r.valid = true)]
  refine and_congr_right fun _ => ⟨?_, ?_⟩
  · rintro (((h | h) | h) | h)
    all_goals exact ⟨_, h, rfl⟩
  · rintro ⟨kind, h, hf⟩
    cases kind <;> cases hf <;> simp only [h, true_or, or_true]

theorem not_changesIssuer (hf : isFreezing r = true) : ¬ r.ChangesIssuer := by
  rintro ⟨-, hc⟩
  obtain ⟨-, kind, hkind, hfk⟩ := isFreezing_iff.mp hf
  rw [hkind, Option.some.injEq] at hc
  rw [hc] at hfk
  cases hfk

def Manages (s : NodeState) (p : PropertyId) (b : Int) (a : Address) : Prop :=
  ∃ sp, s.spInfo.getSP p = some sp ∧ sp.manual = true ∧ sp.getIssuer b = a

inductive Recorded (env : Environment) (others : OtherTypes) :
    NodeState → TxRecord → NodeState → Prop
  | refused {s : NodeState} {r : TxRecord} (hr : r.valid = false) : Recorded env others s r s
  | done {s s' : NodeState} {r : TxRecord} (hr : r.valid = true) (hmsg : r.raw.IsFreezeMessage)
      (h : s.interpretPacket env others (r.raw.parse r.block r.position).unlockLogic =
        .ok (0, s')) : Recorded env others s r s'

/-- Recorded messages one after the other. A new block may complete pending activations, which
changes no parameter. -/
inductive History (env : Environment) (others : OtherTypes) :
    NodeState → List TxRecord → NodeState → Prop
  | nil {s : NodeState} : History env others s [] s
  | newBlock {s s' : NodeState} {rs : List TxRecord} {features : FeatureState}
      (hparams : features.params = s.params)
      (h : History env others { s with features } rs s') : History env others s rs s'
  | cons {s m s' : NodeState} {r : TxRecord} {rs : List TxRecord}
      (hr : Recorded env others s r m) (h : History env others m rs s') :
      History env others s (r :: rs) s'

theorem Recorded.cases (h : Recorded env others s r s') :
    r.valid = false ∧ s' = s ∨
    isFreezing r = true ∧ (∃ f, s' = s.withFreeze f) ∨
    r.ChangesIssuer ∧ (r.raw.property ≠ tlPropertyMsc ∧ r.raw.property ≠ tlPropertyTmsc) ∧
      ∃ sp sp' a, s.spInfo.getSP r.raw.property = some sp ∧ sp'.manual = sp.manual ∧
        sp'.historicalIssuers = (sp.updateIssuer r.block r.position a).historicalIssuers ∧
        s' = { s with spInfo := (s.spInfo.updateSP r.raw.property sp').2 } := by
  cases h with
  | refused hr => exact .inl ⟨hr, rfl⟩
  | done hr hmsg h =>
    obtain ⟨kind, hkind, hf | rfl⟩ := hmsg
    · rcases interpretPacket_freezing_cases hkind hf h with h | ⟨-, _, f, -, -, -, -, -, -, rfl⟩
      · exact absurd h.1 (lt_irrefl _)
      · exact .inr (.inl ⟨isFreezing_iff.mpr ⟨hr, kind, hkind, hf⟩, f, rfl⟩)
    · rcases interpretPacket_changeIssuer_cases hkind h with h | ⟨-, hchange⟩
      · exact absurd h.1 (lt_irrefl _)
      · exact .inr (.inr ⟨⟨hr, hkind⟩, hchange⟩)

structure SameRules (s s' : NodeState) : Prop where
  params : s'.params = s.params
  property_valid : ∀ p, s'.spInfo.isPropertyIdValid p = s.spInfo.isPropertyIdValid p

theorem SameRules.refl : SameRules s s := ⟨rfl, fun _ => rfl⟩

theorem SameRules.trans (h : SameRules s m) (h' : SameRules m s') : SameRules s s' :=
  ⟨h'.params.trans h.params, fun p => (h'.property_valid p).trans (h.property_valid p)⟩

theorem Recorded.sameRules (h : Recorded env others s r s') : SameRules s s' := by
  rcases h.cases with ⟨-, rfl⟩ | ⟨-, f, rfl⟩ | ⟨-, hp, _, _, _, -, -, -, rfl⟩
  · exact .refl
  · exact ⟨rfl, fun _ => rfl⟩
  · exact ⟨rfl, (SPInfo.updateSP_eq _ _ hp).2.2⟩

theorem History.sameRules (h : History env others s rs s') : SameRules s s' := by
  induction h with
  | nil => exact .refl
  | @newBlock s s' rs features hparams _ ih =>
    have hblock : SameRules s { s with features } := ⟨hparams, fun _ => rfl⟩
    exact hblock.trans ih
  | cons hr _ ih => exact hr.sameRules.trans ih

theorem Recorded.appointed (h : Recorded env others s r s') (hs : s.spInfo.Appointed p b) :
    s'.spInfo.Appointed p b := by
  rcases h.cases with ⟨-, rfl⟩ | ⟨-, f, rfl⟩ | ⟨-, hp, sp, sp', a, hsp, -, hissuers, rfl⟩
  · exact hs
  · exact hs
  · obtain ⟨sq, hsq, hissued⟩ := hs
    rw [SPInfo.Appointed]
    dsimp only
    rw [(SPInfo.updateSP_eq _ _ hp).2.1]
    by_cases hpq : p = r.raw.property
    · subst hpq
      rw [hsp, Option.some.injEq] at hsq
      subst hsq
      have hissued' : (sp.updateIssuer r.block r.position a).IssuedBy b := hissued.updateIssuer
      rw [SPEntry.IssuedBy, ← hissuers] at hissued'
      exact ⟨sp', if_pos rfl, hissued'⟩
    · exact ⟨sq, (if_neg hpq).trans hsq, hissued⟩

theorem Recorded.appoints (h : Recorded env others s r s') (hc : r.ChangesIssuer)
    (hb : r.block ≤ b) : s'.spInfo.Appointed r.raw.property b := by
  rcases h.cases with ⟨hinvalid, -⟩ | ⟨hf, -⟩ | ⟨-, hp, sp, sp', a, -, -, hissuers, rfl⟩
  · rw [hc.1] at hinvalid
    cases hinvalid
  · exact absurd hc (not_changesIssuer hf)
  · refine ⟨sp', ?_, ?_⟩
    · dsimp only
      rw [(SPInfo.updateSP_eq _ _ hp).2.1, if_pos rfl]
    · rw [SPEntry.IssuedBy, hissuers]
      exact SPEntry.issuedBy_updateIssuer hb

theorem Recorded.manages (h : Recorded env others s r s') (hs : s.Manages p b a)
    (hr : r.ChangesIssuer → r.raw.property = p → b < r.block ∧ s.spInfo.Appointed p b) :
    s'.Manages p b a := by
  rcases h.cases with ⟨-, rfl⟩ | ⟨-, f, rfl⟩ | ⟨hc, hp, sp, sp', a', hsp, hmanual, hissuers, rfl⟩
  · exact hs
  · exact hs
  · obtain ⟨sq, hsq, hm, hissuer⟩ := hs
    unfold Manages
    dsimp only
    rw [(SPInfo.updateSP_eq _ _ hp).2.1]
    by_cases hpq : p = r.raw.property
    · subst hpq
      obtain ⟨hlt, sp₀, hsp₀, hissued⟩ := hr hc rfl
      rw [hsp, Option.some.injEq] at hsq hsp₀
      subst hsq hsp₀
      refine ⟨sp', if_pos rfl, hmanual.trans hm, ?_⟩
      rw [SPEntry.getIssuer_of_appointed hissued hlt hissuers, hissuer]
    · exact ⟨sq, (if_neg hpq).trans hsq, hm, hissuer⟩

theorem History.manages (h : History env others s rs s') (hs : s.Manages p b a)
    (hrs : ∀ r ∈ rs, r.ChangesIssuer → r.raw.property = p →
      b < r.block ∧ s.spInfo.Appointed p b) : s'.Manages p b a := by
  induction h with
  | nil => exact hs
  | newBlock _ _ ih => exact ih hs hrs
  | cons hr _ ih =>
    obtain ⟨hr', hrs⟩ := List.forall_mem_cons.mp hrs
    exact ih (hr.manages hs hr') fun r' hr' hc hp =>
      (hrs r' hr' hc hp).imp_right hr.appointed

def ChainOrder (r r' : TxRecord) : Prop :=
  r.block < r'.block ∨ r.block = r'.block ∧ r.position < r'.position

/-- A change of the issuer of a property that follows a freezing message of the property comes in
a later block, and up to the block of the message an issuer is on record, from the start or by an
earlier change. -/
def IssuerKept (db : SPInfo) (rs : List TxRecord) : Prop :=
  ∀ r ∈ rs, ∀ r' ∈ rs, isFreezing r = true → r'.ChangesIssuer → r'.raw.property = r.raw.property →
    ChainOrder r r' → r.block < r'.block ∧ (db.Appointed r.raw.property r.block ∨
      ∃ r₀ ∈ rs, r₀.ChangesIssuer ∧ r₀.raw.property = r.raw.property ∧ ChainOrder r₀ r)

theorem IssuerKept.later (h : IssuerKept s.spInfo (r :: rs)) (hf : isFreezing r = true)
    (hord : ∀ r' ∈ rs, ChainOrder r r') :
    ∀ r' ∈ rs, r'.ChangesIssuer → r'.raw.property = r.raw.property →
      r.block < r'.block ∧ s.spInfo.Appointed r.raw.property r.block := by
  intro r' hr' hc hp
  obtain ⟨hlt, happointed | ⟨r₀, hr₀, -, -, hbefore⟩⟩ :=
    h r List.mem_cons_self r' (List.mem_cons_of_mem _ hr') hf hc hp (hord r' hr')
  · exact ⟨hlt, happointed⟩
  · -- no message of the list comes before its first one
    rw [ChainOrder] at hbefore
    rcases List.mem_cons.mp hr₀ with rfl | hr₀
    · omega
    · have hafter := hord r₀ hr₀
      rw [ChainOrder] at hafter
      omega

theorem IssuerKept.tail (h : IssuerKept s.spInfo (r :: rs)) (hr : Recorded env others s r m) :
    IssuerKept m.spInfo rs := by
  intro r₁ hr₁ r₂ hr₂ hf hc hp hord
  obtain ⟨hlt, hnamed⟩ :=
    h r₁ (List.mem_cons_of_mem _ hr₁) r₂ (List.mem_cons_of_mem _ hr₂) hf hc hp hord
  refine ⟨hlt, ?_⟩
  rcases hnamed with happointed | ⟨r₀, hr₀, hc₀, hp₀, hord₀⟩
  · exact .inl (hr.appointed happointed)
  · rcases List.mem_cons.mp hr₀ with rfl | hr₀
    · left
      rw [← hp₀]
      refine hr.appoints hc₀ ?_
      rw [ChainOrder] at hord₀
      omega
    · exact .inr ⟨r₀, hr₀, hc₀, hp₀, hord₀⟩

theorem Recorded.again (hr : Recorded env others s r m) (hf : isFreezing r = true)
    (hrest : History env others m rs s')
    (hlater : ∀ r' ∈ rs, r'.ChangesIssuer → r'.raw.property = r.raw.property →
      r.block < r'.block ∧ s.spInfo.Appointed r.raw.property r.block) :
    (s'.withFreeze s.ledger.freeze).interpretPacket env others (r.raw.parse r.block 0).unlockLogic =
      .ok (0, s'.withFreeze m.ledger.freeze) := by
  obtain ⟨hvalid, kind, hkind, hfk⟩ := isFreezing_iff.mp hf
  have hsame := hr.sameRules.trans hrest.sameRules
  have happointed := fun h => hr.appointed (p := r.raw.property) (b := r.block) h
  cases hr with
  | refused hr => exact absurd hvalid (by rw [hr]; decide)
  | done _ hmsg h =>
    refine interpretPacket_freezing_again hkind hfk h rfl ?_
    intro tx hproperty hblock _ hm
    refine ⟨hsame.params, hsame.property_valid _, ?_⟩
    intro sp hsp hmanual
    rw [hproperty] at hsp
    have hmanages : s.Manages r.raw.property r.block (sp.getIssuer r.block) :=
      ⟨sp, hsp, hmanual, rfl⟩
    have hm' := (Recorded.done hvalid hmsg h).manages hmanages fun hc =>
      absurd hc (not_changesIssuer hf)
    obtain ⟨sp', hsp', hmanual', hissuer⟩ := hrest.manages hm' fun r' hr' hc hp =>
      (hlater r' hr' hc hp).imp_right happointed
    rw [hproperty, hblock]
    exact ⟨sp', hsp', hmanual', hissuer⟩

theorem loadFreezeLoop_of_history (h : History env others s rs s')
    (htip : ∀ r ∈ rs, r.block ≤ tip) (hord : rs.Pairwise ChainOrder)
    (hkept : IssuerKept s.spInfo rs) (txnsLoaded : Nat) :
    loadFreezeLoop env others tip (rs.filter isFreezing) txnsLoaded
        (s'.withFreeze s.ledger.freeze) =
      .ok (some (txnsLoaded + (rs.filter isFreezing).length, s')) := by
  induction h generalizing txnsLoaded with
  | nil => rfl
  | newBlock _ _ ih => exact ih htip hord hkept txnsLoaded
  | @cons s m s' r rs hr hrest ih =>
    obtain ⟨htipr, htip⟩ := List.forall_mem_cons.mp htip
    obtain ⟨hordr, hord⟩ := List.pairwise_cons.mp hord
    have ih := ih htip hord (hkept.tail hr)
    by_cases hf : isFreezing r = true
    · rw [List.filter_cons_of_pos hf, loadFreezeLoop, if_neg (not_lt.mpr htipr), TxRecord.stored,
        hr.again hf hrest (hkept.later hf hordr), ok_bind]
      dsimp only
      rw [if_pos rfl, ih, List.length_cons, Nat.add_assoc, Nat.add_comm 1]
    · rw [List.filter_cons_of_neg hf]
      have hfreeze : m.ledger.freeze = s.ledger.freeze := by
        rcases hr.cases with ⟨-, rfl⟩ | ⟨hf', -⟩ | ⟨-, -, _, _, _, -, -, -, rfl⟩
        · rfl
        · exact absurd hf' hf
        · rfl
      rw [← hfreeze]
      exact ih txnsLoaded

theorem History.append {rs' : List TxRecord} (h : History env others s rs m)
    (h' : History env others m rs' s') : History env others s (rs ++ rs') s' := by
  induction h with
  | nil => exact h'
  | newBlock hparams _ ih => exact .newBlock hparams (ih h')
  | cons hr _ ih => exact .cons hr (ih h')

theorem rejected_or_of_freezeMessage {raw : RawTransaction} {block rc : Int} {idx : Nat}
    (hmsg : raw.IsFreezeMessage)
    (h : s.interpretPacket env others (raw.parse block idx).unlockLogic = .ok (rc, s')) :
    Rejected rc s s' ∨ rc = 0 := by
  obtain ⟨kind, hkind, hf | rfl⟩ := hmsg
  · exact (interpretPacket_freezing_cases hkind hf h).imp_right And.left
  · exact (interpretPacket_changeIssuer_cases hkind h).imp_right And.left

end NodeState

end TradeLayer
