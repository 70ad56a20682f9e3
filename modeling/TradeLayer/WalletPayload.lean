import TradeLayer.WalletEncoding

namespace TradeLayer
open Library

section Parsing

variable {rules : ScriptRules} {nBlock : Int} {output : CTxOut} {payload : List UInt8}
  {tx : CTransaction}
variable {others : List CTxOut}

theorem markedPushes_eq_none (h : output.scriptPubKey.head? ≠ some opReturn) :
    rules.markedPushes nBlock output = none :=
  if_neg fun hdata => h (head?_of_safeSolver_nullData hdata.1)

theorem suffix_pushData (data : List UInt8) : data <:+ pushData data := by
  unfold pushData
  split_ifs
  · exact List.suffix_cons ..
  · exact (List.suffix_cons ..).trans (List.suffix_cons ..)
  · exact (List.suffix_append ..).trans (List.suffix_cons ..)
  · exact (List.suffix_append ..).trans (List.suffix_cons ..)

def dataOutput (payload : List UInt8) : CTxOut :=
  ⟨0, opReturn :: pushData (getTLMarker ++ payload)⟩

theorem infix_hexStr_dataOutput (payload : List UInt8) :
    "6f6d6e69".toList <:+: hexStr (dataOutput payload).scriptPubKey := by
  have hmarker : "6f6d6e69".toList = hexStr getTLMarker := by decide
  have hstart : getTLMarker <+: getTLMarker ++ payload := List.prefix_append ..
  rw [hmarker]
  exact hexStr_isInfix (hstart.isInfix.trans
    ((suffix_pushData _).trans (List.suffix_cons opReturn _)).isInfix)

theorem markedPushes_dataOutput (hsize : payload.length ≤ maxPayload)
    (hallowed : rules.isAllowedOutputType .nullData nBlock = true) :
    rules.markedPushes nBlock (dataOutput payload) = some [hexStr (getTLMarker ++ payload)] := by
  have hdata : (getTLMarker ++ payload).length < 2 ^ 32 := by
    rw [List.length_append]
    have hmarker : getTLMarker.length = 4 := rfl
    have hmax : maxPayload = 7905 := rfl
    omega
  have hpushes : getScriptPushes (dataOutput payload).scriptPubKey =
      some [hexStr (getTLMarker ++ payload)] := getScriptPushes_nullData hdata
  have hfirst : getTLMarker.isPrefixOf (parseHex (hexStr (getTLMarker ++ payload))) = true := by
    rw [parseHex_hexStr, List.isPrefixOf_iff_prefix]
    exact List.prefix_append ..
  rw [ScriptRules.markedPushes, if_pos ⟨safeSolver_nullData hdata, hallowed⟩, hpushes]
  simp [Option.filter, hfirst]

theorem getEncodingClass_of_mem (hsize : payload.length ≤ maxPayload)
    (hallowed : rules.isAllowedOutputType .nullData nBlock = true) (hblock : 395000 ≤ nBlock)
    (hmem : dataOutput payload ∈ tx.vout) : rules.getEncodingClass tx nBlock = .classC := by
  have hsearch : tx.vout.any (fun output =>
      "6f6d6e69".toList <:+: hexStr output.scriptPubKey) = true :=
    List.any_eq_true.mpr ⟨_, hmem, decide_eq_true (infix_hexStr_dataOutput payload)⟩
  have hmarked : tx.vout.any (fun output => (rules.markedPushes nBlock output).isSome) = true :=
    List.any_eq_true.mpr ⟨_, hmem, by rw [markedPushes_dataOutput hsize hallowed]; rfl⟩
  have hheight : decide (nBlock < 395000) = false := decide_eq_false (by omega)
  rw [ScriptRules.getEncodingClass]
  simp only [hsearch, hmarked, hheight]
  rfl

theorem getEncodingClass_eq_noMarker
    (h : ∀ output ∈ tx.vout, output.scriptPubKey.head? ≠ some opReturn) :
    rules.getEncodingClass tx nBlock = .noMarker := by
  have hmarked : tx.vout.any (fun output => (rules.markedPushes nBlock output).isSome) = false := by
    rw [List.any_eq_false]
    intro output hmem
    rw [markedPushes_eq_none (h output hmem)]
    exact Bool.false_ne_true
  rw [ScriptRules.getEncodingClass]
  simp only [hmarked, Bool.and_false]
  rfl

theorem opReturnScriptData_of_perm (hsize : payload.length ≤ maxPayload)
    (hallowed : rules.isAllowedOutputType .nullData nBlock = true)
    (hothers : ∀ output ∈ others, output.scriptPubKey.head? ≠ some opReturn)
    (hvout : tx.vout.Perm (dataOutput payload :: others)) :
    rules.opReturnScriptData tx nBlock = [hexStr payload] := by
  have hstrip : (hexStr (getTLMarker ++ payload)).drop (getTLMarker.length * 2) =
      hexStr payload := by
    rw [Nat.mul_comm, drop_hexStr, List.drop_left]
  apply List.perm_singleton.mp
  refine (hvout.flatMap_right _).trans ?_
  rw [List.flatMap_cons, markedPushes_dataOutput hsize hallowed, List.flatMap_eq_nil_iff.mpr]
  · simp only [hstrip, List.append_nil]
    rfl
  · intro output hmem
    rw [markedPushes_eq_none (hothers output hmem)]

theorem extractPayload_of_perm (hpos : payload ≠ []) (hsize : payload.length ≤ maxPayload)
    (hallowed : rules.isAllowedOutputType .nullData nBlock = true)
    (hothers : ∀ output ∈ others, output.scriptPubKey.head? ≠ some opReturn)
    (hvout : tx.vout.Perm (dataOutput payload :: others)) :
    extractPayload rules tx nBlock = .ok payload := by
  have hpush : appendPush [] (hexStr payload) = .ok payload := by
    have hfirst : ¬ (([] : List UInt8).length = maxPayload ∨ hexStr payload = []) := by
      rintro (h | h)
      · exact absurd h (by decide)
      · exact hpos (hexStr_eq_nil.mp h)
    rw [appendPush, if_neg hfirst, if_pos (isHex_hexStr hpos), parseHex_hexStr,
      List.length_nil, Nat.sub_zero, List.take_of_length_le hsize, List.nil_append]
  rw [extractPayload, opReturnScriptData_of_perm hsize hallowed hothers hvout, List.foldlM_cons,
    hpush, ok_bind]
  rfl

end Parsing

structure SendRequest where
  senderAddress : Address
  receiverAddress : Address
  redemptionAddress : Address
  referenceAmount : Int
  payload : List UInt8

namespace SendRequest

variable (request : SendRequest) (rules : ScriptRules) (code : KeyCode) (keys : WalletKeys)
  (settings : RelaySettings)

def dataOutputs : Except Abort (Except Int (List CTxOut)) :=
  encodeDataOutputs rules code keys settings request.senderAddress request.redemptionAddress
    request.payload

/-- The encoder stays in its arrays, and the payload comes back from every transaction with the
outputs it makes, at every height from which the marker is searched for and data outputs are
allowed. -/
def CarriesPayload : Prop :=
  request.dataOutputs rules code keys settings ≠ .error .undefined ∧
    ∀ outputs, request.dataOutputs rules code keys settings = .ok (.ok outputs) →
      ∀ (change : CTxDestination) (changeValue : Int) (tx : CTransaction) (parser : ScriptRules)
        (nBlock : Int),
        tx.vout.Perm (outputs ++
          receiverOutput code settings request.receiverAddress request.referenceAmount ++
            [⟨changeValue, getScriptForDestination change⟩]) →
        395000 ≤ nBlock → parser.isAllowedOutputType .nullData nBlock = true →
        parser.getEncodingClass tx nBlock ≠ .noMarker ∧
          extractPayload parser tx nBlock = .ok request.payload

def redeemer : Address :=
  if request.redemptionAddress = [] then request.senderAddress else request.redemptionAddress

variable {request rules code keys settings}

theorem head?_of_mem_receiverOutput {output : CTxOut} {receiver : Address} {amount : Int}
    (h : output ∈ receiverOutput code settings receiver amount) :
    output.scriptPubKey.head? ≠ some opReturn := by
  rw [receiverOutput] at h
  split_ifs at h
  · exact absurd h List.not_mem_nil
  · rw [List.mem_singleton.mp h]
    exact head?_getScriptForDestination _
  · rw [List.mem_singleton.mp h]
    exact head?_getScriptForDestination _

theorem dataOutputs_of_classC (h : useEncodingClassC rules settings request.payload.length = true) :
    request.dataOutputs rules code keys settings = .ok (.ok [dataOutput request.payload]) := by
  have hsize : ¬ settings.nMaxDatacarrierBytes < (getTLMarker ++ request.payload).length := by
    rw [useEncodingClassC, Bool.and_eq_true, Bool.and_eq_true, decide_eq_true_eq] at h
    rw [List.length_append]
    omega
  have houtput : tradeLayerEncodeClassC settings request.payload =
      some (dataOutput request.payload) := if_neg hsize
  rw [dataOutputs, encodeDataOutputs, if_pos h, houtput]

theorem carriesPayload_of_classC (hpos : request.payload ≠ [])
    (hsize : request.payload.length ≤ maxPayload)
    (h : useEncodingClassC rules settings request.payload.length = true) :
    request.CarriesPayload rules code keys settings := by
  rw [CarriesPayload, dataOutputs_of_classC h]
  refine ⟨by simp, ?_⟩
  intro outputs houtputs change changeValue tx parser nBlock hvout hblock hallowed
  obtain rfl : [dataOutput request.payload] = outputs := by simpa using houtputs
  have hothers : ∀ output ∈ receiverOutput code settings request.receiverAddress
      request.referenceAmount ++ [⟨changeValue, getScriptForDestination change⟩],
      output.scriptPubKey.head? ≠ some opReturn := by
    intro output hmem
    rcases List.mem_append.mp hmem with hmem | hmem
    · exact head?_of_mem_receiverOutput hmem
    · rw [List.mem_singleton.mp hmem]
      exact head?_getScriptForDestination change
  have hdata : dataOutput request.payload ∈ tx.vout := hvout.mem_iff.mpr List.mem_cons_self
  exact ⟨by rw [getEncodingClass_of_mem hsize hallowed hblock hdata]; decide,
    extractPayload_of_perm hpos hsize hallowed hothers hvout⟩

theorem dataOutputs_of_classB
    (h : useEncodingClassC rules settings request.payload.length = false) :
    request.dataOutputs rules code keys settings =
      match addressToPubKey code keys request.redeemer with
      | none => .ok (.error mpRedempBadValidation)
      | some redeemingPubKey =>
        tradeLayerEncodeClassB code settings request.senderAddress redeemingPubKey
          request.payload >>= fun outputs => .ok (.ok outputs) := by
  rw [dataOutputs, encodeDataOutputs, h, if_neg Bool.false_ne_true]
  rfl

/-- Outputs of class B are not recognised by any node. -/
theorem not_carriesPayload_of_classB {redeemingPubKey : List UInt8}
    (hclass : useEncodingClassC rules settings request.payload.length = false)
    (hkey : addressToPubKey code keys request.redeemer = some redeemingPubKey)
    (hsender : request.senderAddress.length < 128) :
    ¬ request.CarriesPayload rules code keys settings := by
  have hencode : request.dataOutputs rules code keys settings =
      (multisigOutputs code settings request.senderAddress redeemingPubKey request.payload.length
        request.payload 1 >>= fun outputs => .ok (.ok outputs)) := by
    rw [dataOutputs_of_classB hclass, hkey]
    simp only [tradeLayerEncodeClassB, if_neg (Nat.not_le.mpr hsender)]
  obtain ⟨hok, herror⟩ := multisigOutputs_spec code settings request.senderAddress redeemingPubKey
    (le_refl request.payload.length) 1
  rintro ⟨hbounds, hcarries⟩
  by_cases hsize : request.payload.length ≤ 30 * numbersLeft 1
  · obtain ⟨outputs, houtputs, hheads⟩ := hok hsize
    rw [houtputs] at hencode
    let nBlock := max 395000 rules.params.nulldataBlock
    let tx : CTransaction := ⟨[], outputs ++
      receiverOutput code settings request.receiverAddress request.referenceAmount ++
        [⟨0, getScriptForDestination .noDestination⟩]⟩
    have hnone : rules.getEncodingClass tx nBlock = .noMarker := by
      apply getEncodingClass_eq_noMarker
      intro output hmem
      rcases List.mem_append.mp hmem with hmem | hmem
      · rcases List.mem_append.mp hmem with hmem | hmem
        · exact hheads output hmem
        · exact head?_of_mem_receiverOutput hmem
      · rw [List.mem_singleton.mp hmem]
        exact head?_getScriptForDestination .noDestination
    exact (hcarries outputs hencode .noDestination 0 tx rules nBlock (List.Perm.refl _)
      (le_max_left ..) (decide_eq_true (le_max_right ..))).1 hnone
  · rw [herror (Nat.not_le.mp hsize)] at hencode
    exact hbounds hencode

/-- The payload of a request is carried exactly where it fits into a data output, or where no
transaction is built: no key redeems the outputs or the seed is too long for the hashes. -/
theorem carriesPayload_iff (hpos : request.payload ≠ [])
    (hsize : request.payload.length ≤ maxPayload) :
    request.CarriesPayload rules code keys settings ↔
      useEncodingClassC rules settings request.payload.length = true ∨
        addressToPubKey code keys request.redeemer = none ∨
          128 ≤ request.senderAddress.length := by
  cases hclass : useEncodingClassC rules settings request.payload.length with
  | true => exact ⟨fun _ => .inl rfl, fun _ => carriesPayload_of_classC hpos hsize hclass⟩
  | false =>
    cases hkey : addressToPubKey code keys request.redeemer with
    | none =>
      refine ⟨fun _ => .inr (.inl rfl), fun _ => ?_⟩
      rw [CarriesPayload, dataOutputs_of_classB hclass, hkey]
      exact ⟨by simp, fun outputs h => by simp at h⟩
    | some redeemingPubKey =>
      by_cases hsender : request.senderAddress.length < 128
      · have hnot := not_carriesPayload_of_classB hclass hkey hsender
        simpa [Nat.not_le.mpr hsender] using hnot
      · refine ⟨fun _ => .inr (.inr (Nat.not_lt.mp hsender)), fun _ => ?_⟩
        rw [CarriesPayload, dataOutputs_of_classB hclass, hkey]
        simp only [tradeLayerEncodeClassB, if_pos (Nat.not_lt.mp hsender), error_bind]
        exact ⟨by simp, fun outputs h => by simp at h⟩

def sampleKeys : WalletKeys where
  getKeyForDestination := fun _ => some ⟨List.replicate 20 1, rfl⟩
  getPubKey := fun _ => some (2 :: List.replicate 32 1)

def sampleRequest (size : Nat) : SendRequest where
  senderAddress := KeyCode.plain.encodeDestination (.keyId ⟨List.replicate 20 1, rfl⟩)
  receiverAddress := KeyCode.plain.encodeDestination (.keyId ⟨List.replicate 20 2, rfl⟩)
  redemptionAddress := []
  referenceAmount := 0
  payload := List.replicate size 0

theorem carriesPayload_of_sampleRequest : (sampleRequest 16).CarriesPayload
    ⟨.main, consensusParams .main⟩ .plain sampleKeys .plain :=
  (carriesPayload_iff (by decide) (by decide)).mpr (.inl (by decide))

/-- A payload of 100 bytes is not recognised, and one of 7651 bytes makes the encoder read behind
the end of an empty hash. -/
theorem not_carriesPayload_of_sampleRequest :
    ¬ (sampleRequest 100).CarriesPayload ⟨.main, consensusParams .main⟩ .plain sampleKeys
        .plain ∧
      (sampleRequest 7651).dataOutputs ⟨.main, consensusParams .main⟩ .plain sampleKeys
        .plain = .error .undefined := by
  have hkey (size : Nat) : addressToPubKey .plain sampleKeys (sampleRequest size).redeemer =
      some (2 :: List.replicate 32 1) := by
    have hredeemer : (sampleRequest size).redeemer = (sampleRequest 0).redeemer := rfl
    rw [hredeemer]
    decide +kernel
  have hlength : (sampleRequest 7651).payload.length = 7651 := List.length_replicate
  constructor
  · exact not_carriesPayload_of_classB (by decide) (hkey 100) (by decide)
  · have hclass : useEncodingClassC ⟨.main, consensusParams .main⟩ .plain
        (sampleRequest 7651).payload.length = false := by
      rw [hlength]
      decide
    have hwrap := (multisigOutputs_spec .plain .plain (sampleRequest 7651).senderAddress
      (2 :: List.replicate 32 1) (le_refl (sampleRequest 7651).payload.length) 1).2
      (by rw [hlength]; decide)
    rw [dataOutputs_of_classB hclass, hkey 7651]
    simp only [tradeLayerEncodeClassB]
    rw [if_neg (by decide), hwrap, error_bind]

end SendRequest

end TradeLayer
