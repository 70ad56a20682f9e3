import TradeLayer.FundedParties

namespace TradeLayer
open Library

section Operations

variable {script rest : List UInt8} {op : ScriptOp} {width : Nat} {opcode : UInt8}

theorem data_infix_of_sizedData (h : sizedData opcode width script = some (op, rest)) :
    op.data <:+: script ∧ rest <:+ script := by
  simp only [sizedData, Option.ite_none_left_eq_some, Option.some.injEq, Prod.mk.injEq] at h
  obtain ⟨-, -, rfl, rfl⟩ := h
  have hbody : script.drop width <:+ script := List.drop_suffix ..
  exact ⟨(List.take_prefix ..).isInfix.trans hbody.isInfix, (List.drop_suffix ..).trans hbody⟩

theorem data_infix_of_getScriptOp (h : getScriptOp script = some (op, rest)) :
    op.data <:+: script ∧ rest <:+ script := by
  cases script with
  | nil => exact absurd h (by simp [getScriptOp])
  | cons opcode script =>
    have htail : script <:+ opcode :: script := List.suffix_cons ..
    have hsized {width : Nat} (h : sizedData opcode width script = some (op, rest)) :
        op.data <:+: opcode :: script ∧ rest <:+ opcode :: script := by
      obtain ⟨hdata, hrest⟩ := data_infix_of_sizedData h
      exact ⟨hdata.trans htail.isInfix, hrest.trans htail⟩
    simp only [getScriptOp] at h
    split_ifs at h with hdirect hfits h1 h2 h4
    · simp only [Option.some.injEq, Prod.mk.injEq] at h
      obtain ⟨rfl, rfl⟩ := h
      exact ⟨(List.take_prefix ..).isInfix.trans htail.isInfix,
        (List.drop_suffix ..).trans htail⟩
    · exact hsized h
    · exact hsized h
    · exact hsized h
    · simp only [Option.some.injEq, Prod.mk.injEq] at h
      obtain ⟨rfl, rfl⟩ := h
      exact ⟨List.nil_infix, htail⟩

theorem data_infix_of_readOps {fuel : Nat} (h : op ∈ (readOps fuel script).1) :
    op.data <:+: script := by
  induction fuel generalizing script with
  | zero => cases script <;> exact absurd h List.not_mem_nil
  | succ fuel ih =>
    cases script with
    | nil => exact absurd h List.not_mem_nil
    | cons opcode script =>
      rw [readOps] at h
      cases hop : getScriptOp (opcode :: script) with
      | none =>
        rw [hop] at h
        exact absurd h List.not_mem_nil
      | some found =>
        obtain ⟨first, rest⟩ := found
        obtain ⟨hdata, hrest⟩ := data_infix_of_getScriptOp hop
        rw [hop] at h
        rcases List.mem_cons.mp h with rfl | h
        · exact hdata
        · exact (ih h).trans hrest.isInfix

theorem exists_infix_of_getScriptPushes {pushes : List (List Char)} {push : List Char}
    (h : getScriptPushes script = some pushes) (hmem : push ∈ pushes) :
    ∃ data, push = hexStr data ∧ data <:+: script := by
  simp only [getScriptPushes, Option.ite_none_right_eq_some, Option.some.injEq] at h
  obtain ⟨-, rfl⟩ := h
  obtain ⟨op, hop, rfl⟩ := List.mem_map.mp hmem
  exact ⟨op.data, rfl, data_infix_of_readOps (List.mem_filter.mp hop).1⟩

end Operations

namespace ScriptRules

variable {rules : ScriptRules} {nBlock : Int} {output : CTxOut} {tx : CTransaction}

/-- An allowed data output whose pushes can be read and whose first push starts with the
marker. -/
def CarriesMarker (rules : ScriptRules) (nBlock : Int) (output : CTxOut) : Prop :=
  getOutputType output.scriptPubKey = some .nullData ∧
    rules.isAllowedOutputType .nullData nBlock = true ∧
    ∃ data pushes, getScriptPushes output.scriptPubKey = some (hexStr data :: pushes) ∧
      getTLMarker <+: data

theorem isSome_markedPushes :
    (rules.markedPushes nBlock output).isSome = true ↔ rules.CarriesMarker nBlock output := by
  rw [markedPushes, CarriesMarker, ← and_assoc]
  by_cases hdata : getOutputType output.scriptPubKey = some .nullData ∧
      rules.isAllowedOutputType .nullData nBlock = true
  · rw [if_pos hdata]
    cases hpushes : getScriptPushes output.scriptPubKey with
    | none => simp
    | some pushes =>
      cases pushes with
      | nil => simp
      | cons first pushes =>
        obtain ⟨data, rfl, -⟩ := exists_infix_of_getScriptPushes hpushes List.mem_cons_self
        have hfirst : getTLMarker.isPrefixOf (parseHex (hexStr data)) = true ↔
            getTLMarker <+: data := by
          rw [parseHex_hexStr, List.isPrefixOf_iff_prefix]
        simp [hdata, hexStr_injective.eq_iff, ← hfirst]
  · rw [if_neg hdata]
    simp [hdata]

theorem CarriesMarker.infix_hexStr (h : rules.CarriesMarker nBlock output) :
    "6f6d6e69".toList <:+: hexStr output.scriptPubKey := by
  obtain ⟨-, -, data, pushes, hpushes, hmarker⟩ := h
  obtain ⟨piece, hpiece, hinfix⟩ := exists_infix_of_getScriptPushes hpushes List.mem_cons_self
  obtain rfl := hexStr_injective hpiece
  have htext : "6f6d6e69".toList = hexStr getTLMarker := by decide
  rw [htext]
  exact hexStr_isInfix (hmarker.isInfix.trans hinfix)

/-- The search in the texts and its height do not change what is recognised. -/
theorem getEncodingClass_eq_classC_iff
    (hnulldata : rules.network = .main → 395000 ≤ rules.params.nulldataBlock) :
    rules.getEncodingClass tx nBlock = .classC ↔
      ∃ output ∈ tx.vout, rules.CarriesMarker nBlock output := by
  have hmarked : tx.vout.any (fun output => (rules.markedPushes nBlock output).isSome) = true ↔
      ∃ output ∈ tx.vout, rules.CarriesMarker nBlock output := by
    simp only [List.any_eq_true, isSome_markedPushes]
  have hsearch (h : ∃ output ∈ tx.vout, rules.CarriesMarker nBlock output) :
      tx.vout.any (fun output => "6f6d6e69".toList <:+: hexStr output.scriptPubKey) = true := by
    obtain ⟨output, hmem, hcarries⟩ := h
    exact List.any_eq_true.mpr ⟨output, hmem, decide_eq_true hcarries.infix_hexStr⟩
  have hheight (h : ∃ output ∈ tx.vout, rules.CarriesMarker nBlock output)
      (hmain : rules.network = .main) : decide (nBlock < 395000) = false := by
    obtain ⟨output, -, -, hallowed, -⟩ := h
    have hallowed : rules.params.nulldataBlock ≤ nBlock := of_decide_eq_true hallowed
    exact decide_eq_false (not_lt.mpr ((hnulldata hmain).trans hallowed))
  rw [getEncodingClass]
  constructor
  · intro h
    by_contra hnone
    rw [← hmarked, Bool.not_eq_true] at hnone
    simp only [hnone, Bool.and_false] at h
    exact absurd h (by decide)
  · intro h
    by_cases hmain : rules.network = .main
    · simp only [hmarked.mpr h, hsearch h, hheight h hmain]
      rfl
    · simp only [hmarked.mpr h, ne_eq, hmain, not_false_eq_true, decide_true, Bool.or_true]
      rfl

/-- The rules of the main network recognise a data output that pushes the marker alone. -/
theorem getEncodingClass_sampleOutput :
    getEncodingClass ⟨.main, consensusParams .main⟩ ⟨[], [⟨0, opReturn :: pushData getTLMarker⟩]⟩
      395000 = .classC :=
  (getEncodingClass_eq_classC_iff fun _ => by decide).mpr
    ⟨_, List.mem_cons_self, by decide, by decide, getTLMarker, [], by decide, List.prefix_refl _⟩

end ScriptRules

/-- The loop that looks for a single address: the reference so far, whether it was found, and the
number of candidates. -/
def countReference (state : Address × Bool × Nat) (addr : Address) : Address × Bool × Nat :=
  if state.2.2 + 1 = 1 then (addr, true, state.2.2 + 1) else ([], false, state.2.2 + 1)

def identifyReferenceLoops (strSender : Address) (addressData : List Address) : Address :=
  let (strReference, referenceFound, _) := addressData.foldl countReference ([], false, 0)
  if referenceFound then strReference
  else (addressData.foldl (fishReference strSender) (strReference, false)).1

/-- The only address, or else the last one when the first of the sender is left out. -/
def referenceOf (strSender : Address) (addresses : List Address) : Address :=
  match addresses with
  | [addr] => addr
  | _ => (addresses.erase strSender).getLastD []

def pushedData (script : CScript) : List (List UInt8) :=
  if (scriptOps script).2 then
    ((scriptOps script).1.filter fun op => op.opcode ≤ opPushdata4).map ScriptOp.data
  else []

namespace ScriptRules

/-- What an output adds to the payload: its pushes, the first without the marker, where it is an
allowed data output whose first push starts with the marker. -/
def markedData (rules : ScriptRules) (nBlock : Int) (output : CTxOut) : List (List UInt8) :=
  match pushedData output.scriptPubKey with
  | first :: pushes =>
    if getOutputType output.scriptPubKey = some .nullData ∧
        rules.isAllowedOutputType .nullData nBlock ∧ getTLMarker <+: first then
      first.drop getTLMarker.length :: pushes
    else []
  | [] => []

def payloadOf (rules : ScriptRules) (tx : CTransaction) (nBlock : Int) : List UInt8 :=
  (tx.vout.flatMap (rules.markedData nBlock)).flatten.take maxPayload

end ScriptRules

section Reference

variable {strSender r : Address} {addresses : List Address}

theorem foldl_countReference (addresses : List Address) {n : Nat} (hn : 1 ≤ n) :
    (addresses.foldl countReference ([], false, n)).1 = [] ∧
      (addresses.foldl countReference ([], false, n)).2.1 = false := by
  induction addresses generalizing n with
  | nil => exact ⟨rfl, rfl⟩
  | cons addr addresses ih =>
    have hstep : countReference ([], false, n) addr = ([], false, n + 1) := by
      rw [countReference, if_neg (by simp; omega)]
    rw [List.foldl_cons, hstep]
    exact ih (by omega)

theorem foldl_fishReference_removed :
    addresses.foldl (fishReference strSender) (r, true) = (addresses.getLastD r, true) := by
  induction addresses generalizing r with
  | nil => rfl
  | cons addr addresses ih =>
    rw [List.foldl_cons, fishReference, if_neg (by simp), ih, List.getLastD_cons]

theorem foldl_fishReference : (addresses.foldl (fishReference strSender) (r, false)).1 =
    (addresses.erase strSender).getLastD r := by
  induction addresses generalizing r with
  | nil => rfl
  | cons addr addresses ih =>
    rw [List.foldl_cons, fishReference, List.erase_cons]
    by_cases haddr : addr = strSender
    · simp [haddr, foldl_fishReference_removed]
    · simp only [haddr, false_and, if_false, beq_iff_eq, List.getLastD_cons]
      exact ih

theorem identifyReference_eq : identifyReference strSender addresses =
    referenceOf strSender addresses := by
  rcases addresses with _ | ⟨first, _ | ⟨second, rest⟩⟩
  · rfl
  · rfl
  · exact foldl_fishReference

theorem identifyReferenceLoops_eq : identifyReferenceLoops strSender addresses =
    identifyReference strSender addresses := by
  rcases addresses with _ | ⟨first, _ | ⟨second, rest⟩⟩
  · rfl
  · rfl
  · obtain ⟨href, hfound⟩ := foldl_countReference rest (n := 2) (by decide)
    have hloops : (first :: second :: rest).foldl countReference ([], false, 0) =
      rest.foldl countReference ([], false, 2) := rfl
    rw [identifyReferenceLoops, hloops]
    dsimp only
    rw [href, hfound]
    rfl

end Reference

section Payload

variable {rules : ScriptRules} {code : KeyCode} {view : COutPoint → Option CTxOut}
variable {wtx : CTransaction} {nBlock : Int}

theorem opReturnScriptData_eq : rules.opReturnScriptData wtx nBlock =
    (wtx.vout.flatMap (rules.markedData nBlock)).map hexStr := by
  rw [ScriptRules.opReturnScriptData, List.map_flatMap]
  congr
  funext output
  rw [ScriptRules.markedPushes, ScriptRules.markedData, getScriptPushes, pushedData]
  by_cases hread : (scriptOps output.scriptPubKey).2 = true
  · rw [if_pos hread, if_pos hread]
    cases (scriptOps output.scriptPubKey).1.filter fun op => op.opcode ≤ opPushdata4 with
    | nil => split_ifs <;> rfl
    | cons op ops =>
      have hmarker : getTLMarker.isPrefixOf (parseHex (hexStr op.data)) = true ↔
          getTLMarker <+: op.data := by
        rw [parseHex_hexStr, List.isPrefixOf_iff_prefix]
      have hdrop := drop_hexStr getTLMarker.length op.data
      rw [mul_comm] at hdrop
      simp only [List.map_cons, Option.filter_some, List.headD_cons, ne_eq, reduceCtorEq,
        not_false_eq_true, decide_true, Bool.true_and, hmarker]
      split_ifs <;> simp_all
  · rw [if_neg hread, if_neg hread]
    split_ifs <;> rfl

theorem appendPush_hexStr {pkt data : List UInt8} (h : pkt.length ≤ maxPayload) :
    appendPush pkt (hexStr data) = .ok ((pkt ++ data).take maxPayload) := by
  rw [appendPush, List.take_append, List.take_of_length_le h]
  split_ifs with hfull hhex
  · rcases hfull with hfull | hnil
    · rw [hfull, Nat.sub_self, List.take_zero, List.append_nil]
    · rw [hexStr_eq_nil.mp hnil, List.take_nil, List.append_nil]
  · rw [parseHex_hexStr]
  · exact absurd (isHex_hexStr fun hnil => hfull (.inr (hexStr_eq_nil.mpr hnil))) hhex

theorem foldlM_appendPush {pkt : List UInt8} {pieces : List (List UInt8)}
    (h : pkt.length ≤ maxPayload) : (pieces.map hexStr).foldlM appendPush pkt =
      .ok ((pkt ++ pieces.flatten).take maxPayload) := by
  induction pieces generalizing pkt with
  | nil => rw [List.flatten_nil, List.append_nil, List.take_of_length_le h]; rfl
  | cons data pieces ih =>
    rw [List.map_cons, List.foldlM_cons, appendPush_hexStr h, List.flatten_cons]
    refine (ih (by simp)).trans ?_
    rw [← List.append_assoc, List.take_append, List.take_take, min_self,
      @List.take_append _ (pkt ++ data), List.length_take]
    congr 3
    omega

/-- Every transaction with the marker, of known coins and a sender, is parsed to the reference and
the payload that its outputs stand for. -/
theorem parseTransaction_of_classC {strSender : Address}
    (hclass : rules.getEncodingClass wtx nBlock = .classC)
    (hcoins : ∀ txIn ∈ wtx.vin, (view txIn).isSome = true)
    (hsender : identifySender rules code view wtx nBlock = .ok (.ok strSender))
    (hne : strSender ≠ []) :
    ∃ parsed, parseTransaction rules code view wtx nBlock = .ok (.ok parsed) ∧
      parsed.sender = strSender ∧
      parsed.reference = identifyReferenceLoops strSender (rules.addressData code wtx nBlock) ∧
      parsed.reference = referenceOf strSender (rules.addressData code wtx nBlock) ∧
      parsed.payload = rules.payloadOf wtx nBlock := by
  have hpayload : extractPayload rules wtx nBlock = .ok (rules.payloadOf wtx nBlock) := by
    rw [extractPayload, opReturnScriptData_eq]
    exact foldlM_appendPush (Nat.zero_le _)
  have hknown : ¬ (wtx.vin.any fun txIn => (view txIn).isNone) = true := by
    simpa [Option.isSome_iff_ne_none] using hcoins
  rw [parseTransaction, hclass, if_neg nofun, if_neg hknown, hsender, hpayload]
  exact ⟨_, if_neg hne, rfl, identifyReferenceLoops_eq.symm, identifyReference_eq, rfl⟩

theorem parseTransaction_of_sampleTx :
    ∃ parsed, parseTransaction ⟨.main, consensusParams .main⟩ .plain sampleView (sampleTx 3)
      400000 =
        .ok (.ok parsed) ∧
      parsed.reference = referenceOf (sampleAddress 1) [sampleAddress 2, sampleAddress 3] ∧
      parsed.payload = [0, 0, 0, 0] := by
  obtain ⟨parsed, hparsed, -, -, href, hpayload⟩ :=
    @parseTransaction_of_classC ⟨.main, consensusParams .main⟩ .plain sampleView (sampleTx 3) 400000
      (sampleAddress 1) (by decide +kernel) (by decide) (by decide +kernel) (by decide)
  exact ⟨parsed, hparsed, href.trans (by decide +kernel), hpayload.trans (by decide +kernel)⟩

end Payload

end TradeLayer
