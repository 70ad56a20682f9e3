import TradeLayer.WalletEncoding

namespace TradeLayer
open Library

def mpErrCreateTx : Int := -211
def mpInputsInvalid : Int := -212

structure WalletTx where
  txid : Nat
  vout : List CTxOut
  isTrusted : Bool
  availableCredit : Int

structure Wallet where
  transactions : List WalletTx
  isSpendable : CTxDestination → Bool
  isSpent : COutPoint → Bool
  isLockedCoin : COutPoint → Bool

abbrev SelectedCoins := Keyed fun outpoint : COutPoint => toLex (outpoint.hash, outpoint.n)

/-- What the wallet settles when it funds a transaction: its inputs in some order, and the value of
the change if there is any. -/
structure Funding where
  vin : List COutPoint
  change : Option Int

def checkInput (rules : ScriptRules) (code : KeyCode) (txOut : CTxOut) (nHeight : Int) :
    Option CTxDestination := do
  let whichType ← getOutputType txOut.scriptPubKey
  if rules.isAllowedInputType whichType nHeight then
    extractDestination code.hash160 txOut.scriptPubKey
  else none

def selectOutput (rules : ScriptRules) (code : KeyCode) (wallet : Wallet) (nHeight : Int)
    (fromAddress : Address) (txid : Nat) (state : SelectedCoins × Int) (entry : CTxOut × Nat) :
    SelectedCoins × Int :=
  let outpoint : COutPoint := ⟨txid, entry.2⟩
  match checkInput rules code entry.1 nHeight with
  | none => state
  | some dest =>
    if wallet.isSpendable dest && !wallet.isSpent outpoint && !wallet.isLockedCoin outpoint &&
        fromAddress = code.encodeDestination dest then
      (state.1.insert outpoint, state.2 + entry.1.nValue)
    else state

def selectAllCoins (rules : ScriptRules) (code : KeyCode) (wallet : Wallet) (nHeight : Int)
    (fromAddress : Address) : SelectedCoins × Int :=
  wallet.transactions.foldl
    (fun state it =>
      if !it.isTrusted || it.availableCredit = 0 then state
      else it.vout.zipIdx.foldl (selectOutput rules code wallet nHeight fromAddress it.txid) state)
    (∅, 0)

/-- The transaction that reaches the signing step, for what the wallet settles about its coins.
Where the wallet creates none, the empty pointer is used. -/
def createFundedTransaction (rules : ScriptRules) (code : KeyCode) (wallet : Wallet)
    (settings : RelaySettings) (senderAddress receiverAddress feeAddress : Address)
    (payload : List UInt8) (created : Option Funding) : Except Abort (Except Int CTransaction) :=
  if ¬ useEncodingClassC rules settings payload.length then .ok (.error mpEncodingError)
  else
    match tradeLayerEncodeClassC settings payload with
    | none => .ok (.error mpEncodingError)
    | some dataOutput =>
      let reference :=
        if receiverAddress ≠ feeAddress then receiverOutput code settings receiverAddress 0 else []
      let selected := selectAllCoins rules code wallet settings.getHeight senderAddress
      if selected.2 = 0 then .ok (.error mpInputsInvalid)
      else
        match created with
        | none => .error .undefined
        | some funding =>
          if funding.change = none ∧ receiverAddress = feeAddress then .ok (.error mpErrCreateTx)
          else
            let scriptChange := getScriptForDestination (code.decodeDestination feeAddress)
            let change := funding.change.toList.map fun nValue => ⟨nValue, scriptChange⟩
            let others := funding.vin.filter fun txIn => txIn ∉ selected.1.toList
            .ok (.ok ⟨selected.1.toList ++ others, change ++ dataOutput :: reference⟩)

section Selection

variable (rules : ScriptRules) (code : KeyCode) (wallet : Wallet) (nHeight : Int)
  (fromAddress : Address)
variable {state : SelectedCoins × Int}

def IsCoinOf (outpoint : COutPoint) : Prop :=
  ∃ it ∈ wallet.transactions, ∃ txOut dest, it.txid = outpoint.hash ∧
    it.vout[outpoint.n]? = some txOut ∧ checkInput rules code txOut nHeight = some dest ∧
    code.encodeDestination dest = fromAddress

/-- The coins selected so far are coins of the address, and without one there is no value. -/
def SelectedFrom (state : SelectedCoins × Int) : Prop :=
  (∀ outpoint ∈ state.1, IsCoinOf rules code wallet nHeight fromAddress outpoint) ∧
    (state.1 = ∅ → state.2 = 0)

variable {rules code wallet nHeight fromAddress}

theorem outpoint_key_injective :
    Function.Injective fun outpoint : COutPoint => toLex (outpoint.hash, outpoint.n) := by
  rintro ⟨_, _⟩ ⟨_, _⟩ h
  simpa using h

theorem selectedFrom_insert {outpoint : COutPoint} {nValue : Int}
    (hcoin : IsCoinOf rules code wallet nHeight fromAddress outpoint)
    (h : SelectedFrom rules code wallet nHeight fromAddress state) :
    SelectedFrom rules code wallet nHeight fromAddress
      (state.1.insert outpoint, state.2 + nValue) := by
  constructor
  · intro other hmem
    rcases Keyed.mem_insert.mp hmem with hmem | ⟨rfl, -⟩
    · exact h.1 other hmem
    · exact hcoin
  · intro hempty
    have hmem : outpoint ∈ state.1.insert outpoint := Keyed.mem_insert_self outpoint_key_injective
    have hnone : state.1.insert outpoint = ∅ := hempty
    rw [hnone] at hmem
    exact absurd hmem Keyed.not_mem_empty

theorem selectedFrom_selectOutput {it : WalletTx}
    {entry : CTxOut × Nat} (hit : it ∈ wallet.transactions) (hentry : entry ∈ it.vout.zipIdx)
    (h : SelectedFrom rules code wallet nHeight fromAddress state) :
    SelectedFrom rules code wallet nHeight fromAddress
      (selectOutput rules code wallet nHeight fromAddress it.txid state entry) := by
  rw [selectOutput]
  cases hcheck : checkInput rules code entry.1 nHeight with
  | none => exact h
  | some dest =>
    dsimp only
    split_ifs with hselect
    · have hfrom : fromAddress = code.encodeDestination dest := by
        simp only [Bool.and_eq_true, decide_eq_true_eq] at hselect
        exact hselect.2
      have hvout := List.mk_mem_zipIdx_iff_getElem?.mp hentry
      exact selectedFrom_insert ⟨it, hit, entry.1, dest, rfl, hvout, hcheck, hfrom.symm⟩ h
    · exact h

theorem selectedFrom_selectAllCoins : SelectedFrom rules code wallet nHeight fromAddress
    (selectAllCoins rules code wallet nHeight fromAddress) := by
  have hstart : SelectedFrom rules code wallet nHeight fromAddress ((∅ : SelectedCoins), 0) :=
    ⟨fun _ hmem => absurd hmem Keyed.not_mem_empty, fun _ => rfl⟩
  refine List.foldlRecOn wallet.transactions _ hstart fun state hstate it hit => ?_
  split_ifs
  · exact hstate
  · exact List.foldlRecOn it.vout.zipIdx _ hstate fun state hstate entry hentry =>
      selectedFrom_selectOutput hit hentry hstate

theorem exists_selected (h : (selectAllCoins rules code wallet nHeight fromAddress).2 ≠ 0) :
    ∃ outpoint rest,
      (selectAllCoins rules code wallet nHeight fromAddress).1.toList = outpoint :: rest ∧
        IsCoinOf rules code wallet nHeight fromAddress outpoint := by
  have hfrom : SelectedFrom rules code wallet nHeight fromAddress
    (selectAllCoins rules code wallet nHeight fromAddress) := selectedFrom_selectAllCoins
  cases hlist : (selectAllCoins rules code wallet nHeight fromAddress).1.toList with
  | nil => exact absurd (hfrom.2 (Keyed.toList_injective hlist)) h
  | cons outpoint rest =>
    refine ⟨outpoint, rest, rfl, hfrom.1 outpoint ?_⟩
    rw [Keyed.mem_def, hlist]
    exact List.mem_cons_self

end Selection

section Addresses

variable {rules : ScriptRules} {code : KeyCode} {nBlock : Int}

def KeyCode.IsAddress (code : KeyCode) (address : Address) : Prop :=
  (code.decodeDestination address).HasAddress ∧
    code.encodeDestination (code.decodeDestination address) = address

def ScriptRules.notices (rules : ScriptRules) (code : KeyCode) (nBlock : Int)
    (address : Address) : Bool :=
  (code.decodeDestination address).outputType.any fun whichType =>
    rules.isAllowedOutputType whichType nBlock

def ScriptRules.outputAddress (rules : ScriptRules) (code : KeyCode) (nBlock : Int)
    (output : CTxOut) : Option Address := do
  let whichType ← getOutputType output.scriptPubKey
  if rules.isAllowedOutputType whichType nBlock then
    (extractDestination code.hash160 output.scriptPubKey).map code.encodeDestination
  else none

theorem addressData_eq (tx : CTransaction) :
    rules.addressData code tx nBlock = tx.vout.filterMap (rules.outputAddress code nBlock) := rfl

theorem outputAddress_of_isAddress {address : Address} (h : code.IsAddress address)
    (nValue : Int) :
    rules.outputAddress code nBlock
        ⟨nValue, getScriptForDestination (code.decodeDestination address)⟩ =
      if rules.notices code nBlock address then some address else none := by
  obtain ⟨hdest, hencode⟩ := h
  rw [ScriptRules.outputAddress, ScriptRules.notices,
    getOutputType_getScriptForDestination hdest]
  cases hdecode : code.decodeDestination address with
  | keyId hash =>
    rw [hdecode] at hencode
    cases hallowed : rules.isAllowedOutputType .pubkeyhash nBlock <;>
      simp [CTxDestination.outputType, extractDestination_keyId, hencode, hallowed]
  | scriptId hash =>
    rw [hdecode] at hencode
    cases hallowed : rules.isAllowedOutputType .scripthash nBlock <;>
      simp [CTxDestination.outputType, extractDestination_scriptId, hencode, hallowed]
  | _ => simp [CTxDestination.outputType, ScriptRules.isAllowedOutputType]

theorem solver_opReturn (rest : CScript) : solver (opReturn :: rest) =
    if isPushOnly rest then (.nullData, []) else (.nonstandard, []) := by
  have hpubkey : matchPayToPubkey (opReturn :: rest) = none := by
    simp [matchPayToPubkey, opReturn]
  have hhash : matchPayToPubkeyHash (opReturn :: rest) = none := by
    simp [matchPayToPubkeyHash, opReturn, opDup]
  have hmultisig : matchMultisig (opReturn :: rest) = none := by
    have hsmall : isSmallInteger opReturn = false := by decide
    rw [matchMultisig, scriptOps_cons_of_lt (by decide)]
    cases (scriptOps rest).2 with
    | false => rfl
    | true => simp [hsmall]
  rw [solver, isPayToScriptHash_eq_false (by simp [opReturn, opHash160]),
    if_neg Bool.false_ne_true, isWitnessProgram_eq_none (by decide)]
  simp only [List.head?_cons, List.tail_cons, true_and, hpubkey, hhash, hmultisig]

theorem outputAddress_data (nValue : Int) (rest : CScript) :
    rules.outputAddress code nBlock ⟨nValue, opReturn :: rest⟩ = none := by
  have hextract : extractDestination code.hash160 (opReturn :: rest) = none := by
    rw [extractDestination, solver_opReturn]
    split_ifs <;> rfl
  rw [ScriptRules.outputAddress]
  cases getOutputType (opReturn :: rest) with
  | none => rfl
  | some whichType => simp [hextract]

end Addresses

section Reference

variable {strSender receiver fee : Address}

theorem identifyReference_singleton : identifyReference strSender [receiver] = receiver := rfl

theorem identifyReference_pair : identifyReference strSender [fee, receiver] =
    if receiver = strSender ∧ fee ≠ strSender then fee else receiver := by
  have hfish : identifyReference strSender [fee, receiver] =
      ([fee, receiver].foldl (fishReference strSender) ([], false)).1 := rfl
  rw [hfish]
  by_cases hfee : fee = strSender
  · simp [fishReference, hfee]
  · by_cases hreceiver : receiver = strSender <;> simp [fishReference, hfee, hreceiver]

/-- The reference among the addresses of the change, if there is one that is noticed, and of the
receiver, if they are not the same and it is noticed. -/
theorem identifyReference_funded {changed noticedFee noticedReceiver : Bool}
    (hne : receiver ≠ []) (hself : receiver = fee → changed = true)
    (hsame : receiver = fee → noticedReceiver = noticedFee) :
    identifyReference strSender ((if changed ∧ noticedFee then [fee] else []) ++
        if receiver ≠ fee ∧ noticedReceiver then [receiver] else []) = receiver ↔
      noticedReceiver = true ∧
        ¬ (changed = true ∧ receiver = strSender ∧ receiver ≠ fee ∧ noticedFee = true) := by
  by_cases heq : receiver = fee
  · have hnone : identifyReference strSender [] ≠ fee := fun h => hne (heq.trans h.symm)
    cases noticedFee with
    | false => simp [heq, hsame heq, hnone]
    | true => simp [heq, hsame heq, hself heq, identifyReference_singleton]
  · have hfee : fee ≠ receiver := fun h => heq h.symm
    have hnone : identifyReference strSender [] ≠ receiver := fun h => hne h.symm
    cases noticedReceiver with
    | false => cases changed <;> cases noticedFee <;>
        simp [hfee, hnone, identifyReference_singleton]
    | true =>
      by_cases hboth : changed = true ∧ noticedFee = true
      · obtain ⟨rfl, rfl⟩ := hboth
        by_cases hsender : receiver = strSender
        · subst hsender
          simp [heq, hfee, identifyReference_pair]
        · simp [heq, hsender, identifyReference_pair]
      · have hchange : ¬ (changed = true ∧ receiver = strSender ∧ receiver ≠ fee ∧
            noticedFee = true) := fun h => hboth ⟨h.1, h.2.2.2⟩
        rw [if_neg hboth, if_pos ⟨heq, rfl⟩, List.nil_append, identifyReference_singleton]
        exact ⟨fun _ => ⟨rfl, hchange⟩, fun _ => rfl⟩

end Reference

theorem createFundedTransaction_eq_ok {rules : ScriptRules} {code : KeyCode} {wallet : Wallet}
    {settings : RelaySettings} {sender receiver fee : Address} {payload : List UInt8}
    {created : Option Funding} {tx : CTransaction}
    (h : createFundedTransaction rules code wallet settings sender receiver fee payload created =
      .ok (.ok tx)) :
    ∃ funding rest others, created = some funding ∧
      (selectAllCoins rules code wallet settings.getHeight sender).2 ≠ 0 ∧
      ¬ (funding.change = none ∧ receiver = fee) ∧
      tx.vin = (selectAllCoins rules code wallet settings.getHeight sender).1.toList ++ others ∧
      tx.vout = funding.change.toList.map
          (fun nValue => ⟨nValue, getScriptForDestination (code.decodeDestination fee)⟩) ++
        ⟨0, opReturn :: rest⟩ ::
          if receiver ≠ fee then receiverOutput code settings receiver 0 else [] := by
  have hclass : useEncodingClassC rules settings payload.length = true := by
    by_contra hclass
    simp [createFundedTransaction, hclass] at h
  obtain ⟨output, hdata⟩ : ∃ output, tradeLayerEncodeClassC settings payload = some output := by
    cases hdata : tradeLayerEncodeClassC settings payload with
    | none => simp [createFundedTransaction, hclass, hdata] at h
    | some output => exact ⟨output, rfl⟩
  have hcoins : (selectAllCoins rules code wallet settings.getHeight sender).2 ≠ 0 := by
    intro hcoins
    simp [createFundedTransaction, hclass, hdata, hcoins] at h
  obtain ⟨funding, rfl⟩ : ∃ funding, created = some funding := by
    cases created with
    | none => simp [createFundedTransaction, hclass, hdata, hcoins] at h
    | some funding => exact ⟨funding, rfl⟩
  have hchange : ¬ (funding.change = none ∧ receiver = fee) := by
    intro hchange
    simp [createFundedTransaction, hclass, hdata, hcoins, hchange] at h
  have houtput : output = ⟨0, opReturn :: pushData (getTLMarker ++ payload)⟩ := by
    simp only [tradeLayerEncodeClassC, Option.ite_none_left_eq_some, Option.some.injEq] at hdata
    exact hdata.2.symm
  simp only [createFundedTransaction, hclass, not_true_eq_false, if_false, hdata, if_neg hcoins,
    if_neg hchange, Except.ok.injEq] at h
  subst h houtput
  exact ⟨funding, _, _, rfl, hcoins, hchange, rfl, rfl⟩

section Parties

variable {rules : ScriptRules} {code : KeyCode} {wallet : Wallet} {settings : RelaySettings}
  {sender receiver fee : Address} {payload : List UInt8} {funding : Funding} {tx : CTransaction}
  {view : COutPoint → Option CTxOut} {nBlock : Int}

/-- The node finds the outputs of the transactions in its wallet. -/
def Wallet.KnownTo (wallet : Wallet) (view : COutPoint → Option CTxOut) : Prop :=
  ∀ it ∈ wallet.transactions, ∀ n txOut, it.vout[n]? = some txOut → view ⟨it.txid, n⟩ = some txOut

theorem isAllowedInputType_mono {whichType : TxnOutType} {nHeight : Int} (hle : nHeight ≤ nBlock)
    (h : rules.isAllowedInputType whichType nHeight = true) :
    rules.isAllowedInputType whichType nBlock = true := by
  unfold ScriptRules.isAllowedInputType at h ⊢
  split at h
  · exact decide_eq_true ((of_decide_eq_true h).trans hle)
  · exact decide_eq_true ((of_decide_eq_true h).trans hle)
  · exact absurd h Bool.false_ne_true

theorem identifySender_of_isCoinOf {outpoint : COutPoint} {rest : List COutPoint} {nHeight : Int}
    (hview : wallet.KnownTo view) (hle : nHeight ≤ nBlock) (hvin : tx.vin = outpoint :: rest)
    (h : IsCoinOf rules code wallet nHeight sender outpoint) :
    identifySender rules code view tx nBlock = .ok (.ok sender) := by
  obtain ⟨it, hit, txOut, dest, htxid, hvout, hcheck, hsender⟩ := h
  have hcoin : view outpoint = some txOut := by
    have hknown := hview it hit _ _ hvout
    rwa [htxid] at hknown
  simp only [checkInput, Option.bind_eq_bind, Option.bind_eq_some_iff,
    Option.ite_none_right_eq_some] at hcheck
  obtain ⟨whichType, htype, hallowed, hextract⟩ := hcheck
  simp only [identifySender, hvin, hcoin, htype, isAllowedInputType_mono hle hallowed, hextract,
    hsender, not_true_eq_false, if_false]

theorem addressData_of_funded {rest : CScript} (hreceiver : code.IsAddress receiver)
    (hfee : code.IsAddress fee) (hne : receiver ≠ [])
    (hvout : tx.vout = funding.change.toList.map
        (fun nValue => ⟨nValue, getScriptForDestination (code.decodeDestination fee)⟩) ++
      ⟨0, opReturn :: rest⟩ ::
        if receiver ≠ fee then receiverOutput code settings receiver 0 else []) :
    rules.addressData code tx nBlock =
      (if funding.change.isSome ∧ rules.notices code nBlock fee then [fee] else []) ++
        if receiver ≠ fee ∧ rules.notices code nBlock receiver then [receiver] else [] := by
  have hchange : (funding.change.toList.map fun nValue => (⟨nValue, getScriptForDestination
      (code.decodeDestination fee)⟩ : CTxOut)).filterMap (rules.outputAddress code nBlock) =
      if funding.change.isSome ∧ rules.notices code nBlock fee then [fee] else [] := by
    cases funding.change with
    | none => simp
    | some nValue =>
      cases hnotices : rules.notices code nBlock fee <;>
        simp [outputAddress_of_isAddress hfee, hnotices]
  have hreference : (if receiver ≠ fee then receiverOutput code settings receiver 0
      else []).filterMap (rules.outputAddress code nBlock) =
      if receiver ≠ fee ∧ rules.notices code nBlock receiver then [receiver] else [] := by
    by_cases heq : receiver = fee
    · simp [heq]
    · cases hnotices : rules.notices code nBlock receiver <;>
        simp [heq, receiverOutput, hne, outputAddress_of_isAddress hreceiver, hnotices]
  rw [addressData_eq, hvout, List.filterMap_append, hchange, List.filterMap_cons_none
    (outputAddress_data 0 rest), hreference]

/-- A funded transaction keeps its sender and its receiver exactly where the receiver has an
address of a kind that the parser takes notice of, and does not get tokens from themselves with the
change in front, paid to another such address. -/
theorem keepsParties_iff (hview : wallet.KnownTo view) (hle : settings.getHeight ≤ nBlock)
    (hreceiver : code.IsAddress receiver) (hfee : code.IsAddress fee) (hne : receiver ≠ [])
    (h : createFundedTransaction rules code wallet settings sender receiver fee payload
      (some funding) = .ok (.ok tx)) :
    (identifySender rules code view tx nBlock = .ok (.ok sender) ∧
      identifyReference sender (rules.addressData code tx nBlock) = receiver) ↔
      rules.notices code nBlock receiver = true ∧
        ¬ (funding.change.isSome = true ∧ receiver = sender ∧ receiver ≠ fee ∧
          rules.notices code nBlock fee = true) := by
  obtain ⟨funding', rest, others, hfunding, hcoins, hself, hvin, hvout⟩ :=
    createFundedTransaction_eq_ok h
  obtain rfl := Option.some.inj hfunding
  obtain ⟨outpoint, more, hselected, hcoin⟩ := exists_selected hcoins
  have hsender : identifySender rules code view tx nBlock = .ok (.ok sender) :=
    identifySender_of_isCoinOf hview hle (by rw [hvin, hselected]; rfl) hcoin
  have hself : receiver = fee → funding.change.isSome = true := by
    intro heq
    cases hchange : funding.change with
    | none => exact absurd ⟨hchange, heq⟩ hself
    | some nValue => rfl
  have hsame : receiver = fee →
      rules.notices code nBlock receiver = rules.notices code nBlock fee := by
    rintro rfl
    rfl
  rw [addressData_of_funded hreceiver hfee hne hvout, identifyReference_funded hne hself hsame]
  exact and_iff_right hsender

end Parties

section Samples

def sampleAddress (b : UInt8) : Address :=
  KeyCode.plain.encodeDestination (.keyId ⟨List.replicate 20 b, rfl⟩)

def sampleScript (b : UInt8) : CScript :=
  getScriptForDestination (.keyId ⟨List.replicate 20 b, rfl⟩)

theorem isAddress_sampleAddress (b : UInt8) : KeyCode.plain.IsAddress (sampleAddress b) := by
  have hdecode : KeyCode.plain.decodeDestination (sampleAddress b) =
      .keyId ⟨List.replicate 20 b, rfl⟩ := KeyCode.plain.decode_encode _ trivial
  rw [KeyCode.IsAddress, hdecode]
  exact ⟨trivial, rfl⟩

def sampleWallet : Wallet where
  transactions := [⟨1, [⟨100000, sampleScript 1⟩], true, 100000⟩]
  isSpendable := fun _ => true
  isSpent := fun _ => false
  isLockedCoin := fun _ => false

def sampleView (outpoint : COutPoint) : Option CTxOut :=
  if outpoint = ⟨1, 0⟩ then some ⟨100000, sampleScript 1⟩ else none

theorem knownTo_sampleView : sampleWallet.KnownTo sampleView := by
  intro it hit n txOut htxOut
  obtain rfl := List.mem_singleton.mp hit
  cases n with
  | zero => simpa [sampleView] using htxOut
  | succ n => simp at htxOut

def sampleTx (receiver : UInt8) : CTransaction where
  vin := [⟨1, 0⟩]
  vout := [⟨90000, sampleScript 2⟩, ⟨0, opReturn :: pushData (getTLMarker ++ [0, 0, 0, 0])⟩,
    ⟨546, sampleScript receiver⟩]

theorem createFundedTransaction_sampleTx : ∀ receiver ∈ [(1 : UInt8), 3],
    createFundedTransaction ⟨.main, consensusParams .main⟩ .plain sampleWallet .plain
      (sampleAddress 1) (sampleAddress receiver) (sampleAddress 2) [0, 0, 0, 0]
      (some ⟨[⟨1, 0⟩], some 90000⟩) = .ok (.ok (sampleTx receiver)) := by
  decide +kernel

theorem keepsParties_of_sampleTx :
    identifySender ⟨.main, consensusParams .main⟩ .plain sampleView (sampleTx 3) 400000 =
        .ok (.ok (sampleAddress 1)) ∧
      identifyReference (sampleAddress 1) (ScriptRules.addressData ⟨.main, consensusParams .main⟩
        .plain (sampleTx 3) 400000) = sampleAddress 3 :=
  (keepsParties_iff knownTo_sampleView (by decide) (isAddress_sampleAddress 3)
    (isAddress_sampleAddress 2) (by decide)
    (createFundedTransaction_sampleTx 3 (by decide))).mpr (by decide +kernel)

/-- Tokens sent to oneself with change to another address go to that address. -/
theorem identifyReference_sampleTx :
    createFundedTransaction ⟨.main, consensusParams .main⟩ .plain sampleWallet .plain
        (sampleAddress 1) (sampleAddress 1) (sampleAddress 2) [0, 0, 0, 0]
        (some ⟨[⟨1, 0⟩], some 90000⟩) = .ok (.ok (sampleTx 1)) ∧
      identifyReference (sampleAddress 1) (ScriptRules.addressData ⟨.main, consensusParams .main⟩
        .plain (sampleTx 1) 400000) = sampleAddress 2 := by
  decide +kernel

end Samples

end TradeLayer
