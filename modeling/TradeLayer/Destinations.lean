import TradeLayer.Script

namespace TradeLayer
open Library

abbrev UInt160 := { bytes : List UInt8 // bytes.length = 20 }

abbrev UInt256 := { bytes : List UInt8 // bytes.length = 32 }

inductive CTxDestination
  | noDestination
  | keyId (hash : UInt160)
  | scriptId (hash : UInt160)
  | witnessV0ScriptHash (hash : UInt256)
  | witnessV0KeyHash (hash : UInt160)
  | witnessUnknown (version : Fin 17) (program : List UInt8)
  deriving DecidableEq

def CTxDestination.HasAddress : CTxDestination → Prop
  | .noDestination => False
  | .witnessUnknown version program => version ≠ 0 ∧ 2 ≤ program.length ∧ program.length ≤ 40
  | _ => True

def getScriptForDestination : CTxDestination → CScript
  | .noDestination => []
  | .keyId hash => [opDup, opHash160] ++ pushData hash ++ [opEqualverify, opChecksig]
  | .scriptId hash => [opHash160] ++ pushData hash ++ [opEqual]
  | .witnessV0KeyHash hash => [op0] ++ pushData hash
  | .witnessV0ScriptHash hash => [op0] ++ pushData hash
  | .witnessUnknown version program => [encodeOpN version] ++ pushData program

/-- The assertion on the numbers holds for the one to three keys that the encoder hands over. -/
def getScriptForMultisig (nRequired : Nat) (keys : List (List UInt8)) : CScript :=
  [encodeOpN nRequired] ++ keys.flatMap pushData ++ [encodeOpN keys.length, opCheckmultisig]

def getLen (header : UInt8) : Nat :=
  if header = 2 ∨ header = 3 then 33
  else if header = 4 ∨ header = 6 ∨ header = 7 then 65
  else 0

def validSize (key : List UInt8) : Bool :=
  key ≠ [] && getLen (key.headD 0) == key.length

def matchPayToPubkey (script : CScript) : Option (List UInt8) :=
  let key := script.tail.dropLast
  if (script.length = 67 ∧ script[0]? = some 65 ∨ script.length = 35 ∧ script[0]? = some 33) ∧
      script.getLast? = some opChecksig ∧ validSize key then some key
  else none

def matchPayToPubkeyHash (script : CScript) : Option (List UInt8) :=
  if script.length = 25 ∧ script[0]? = some opDup ∧ script[1]? = some opHash160 ∧
      script[2]? = some 20 ∧ script[23]? = some opEqualverify ∧ script[24]? = some opChecksig then
    some ((script.drop 3).take 20)
  else none

def matchMultisig (script : CScript) : Option (Nat × List (List UInt8)) :=
  match scriptOps script with
  | (first :: ops, true) =>
    let keys := ops.takeWhile fun op => validSize op.data
    let rest := ops.dropWhile fun op => validSize op.data
    let last := rest.headD ⟨opInvalidopcode, []⟩
    if isSmallInteger first.opcode ∧ isSmallInteger last.opcode ∧
        keys.length = decodeOpN last.opcode ∧ decodeOpN first.opcode ≤ keys.length ∧
        rest.tail = [⟨opCheckmultisig, []⟩] then
      some (decodeOpN first.opcode, keys.map ScriptOp.data)
    else none
  | _ => none

/-- The type of a script with its keys or hashes, as the code of the base node finds them. -/
def solver (script : CScript) : TxnOutType × List (List UInt8) :=
  if isPayToScriptHash script then (.scripthash, [(script.drop 2).take 20])
  else
    match isWitnessProgram script with
    | some (version, program) =>
      if version = 0 ∧ program.length = 20 then (.witnessV0Keyhash, [program])
      else if version = 0 ∧ program.length = 32 then (.witnessV0Scripthash, [program])
      else if version ≠ 0 then (.witnessUnknown, [[UInt8.ofNat version], program])
      else (.nonstandard, [])
    | none =>
      if script.head? = some opReturn ∧ isPushOnly script.tail then (.nullData, [])
      else
        match matchPayToPubkey script, matchPayToPubkeyHash script, matchMultisig script with
        | some key, _, _ => (.pubkey, [key])
        | none, some hash, _ => (.pubkeyhash, [hash])
        | none, none, some (required, keys) =>
          (.multisig, [UInt8.ofNat required] :: (keys ++ [[UInt8.ofNat keys.length]]))
        | none, none, none => (.nonstandard, [])

def extractDestination (hash160 : List UInt8 → UInt160) (script : CScript) :
    Option CTxDestination :=
  match solver script with
  | (.pubkey, [key]) => some (.keyId (hash160 key))
  | (.pubkeyhash, [hash]) => if h : hash.length = 20 then some (.keyId ⟨hash, h⟩) else none
  | (.scripthash, [hash]) => if h : hash.length = 20 then some (.scriptId ⟨hash, h⟩) else none
  | (.witnessV0Keyhash, [hash]) =>
    if h : hash.length = 20 then some (.witnessV0KeyHash ⟨hash, h⟩) else none
  | (.witnessV0Scripthash, [hash]) =>
    if h : hash.length = 32 then some (.witnessV0ScriptHash ⟨hash, h⟩) else none
  | (.witnessUnknown, [[version], program]) =>
    if h : version.toNat < 17 then some (.witnessUnknown ⟨version.toNat, h⟩ program) else none
  | _ => none

def CTxDestination.outputType : CTxDestination → Option TxnOutType
  | .keyId _ => some .pubkeyhash
  | .scriptId _ => some .scripthash
  | .witnessV0KeyHash _ => some .witnessV0Keyhash
  | .witnessV0ScriptHash _ => some .witnessV0Scripthash
  | _ => none

section Lemmas

variable {hash160 : List UInt8 → UInt160} {data : List UInt8}
variable {program : List UInt8}

theorem pushData_of_lt (h : data.length < 0x4c) : pushData data = UInt8.ofNat data.length :: data :=
  if_pos h

theorem pushData_hash (hash : UInt160) : pushData hash = 20 :: hash.1 := by
  rw [pushData_of_lt (by rw [hash.2]; decide), hash.2]
  rfl

theorem encodeOpN_lt (n : Fin 17) : encodeOpN n < opReturn := by
  revert n
  decide

theorem head?_getScriptForDestination (dest : CTxDestination) :
    (getScriptForDestination dest).head? ≠ some opReturn := by
  cases dest with
  | noDestination => decide
  | witnessUnknown version program =>
    intro h
    exact absurd (Option.some.inj h) (UInt8.ne_of_lt (encodeOpN_lt version))
  | _ => simp [getScriptForDestination, opDup, opHash160, op0, opReturn]

theorem head?_getScriptForMultisig (keys : List (List UInt8)) :
    (getScriptForMultisig 1 keys).head? ≠ some opReturn := by
  simp [getScriptForMultisig, encodeOpN, opReturn]

theorem scriptOps_keyId (hash : UInt160) : scriptOps (getScriptForDestination (.keyId hash)) =
    ([⟨opDup, []⟩, ⟨opHash160, []⟩, ⟨20, hash⟩, ⟨opEqualverify, []⟩, ⟨opChecksig, []⟩], true) := by
  have hpush : getScriptOp (20 :: (hash.1 ++ [opEqualverify, opChecksig])) =
      some (⟨20, hash⟩, [opEqualverify, opChecksig]) :=
    getScriptOp_direct (by decide) hash.2.symm
  rw [getScriptForDestination, pushData_hash]
  simp only [List.cons_append, List.nil_append]
  rw [scriptOps_cons_of_lt (by decide), scriptOps_cons_of_lt (by decide),
    scriptOps_of_getScriptOp hpush]
  rfl

theorem matchTemplate_keyId (hash : UInt160) :
    matchTemplate [opDup, opHash160, opPubkeyhash, opEqualverify, opChecksig]
      [⟨opDup, []⟩, ⟨opHash160, []⟩, ⟨20, hash⟩, ⟨opEqualverify, []⟩, ⟨opChecksig, []⟩] true =
      some [hash.1] := by
  have hhash : matchOp opPubkeyhash ⟨20, hash⟩ = some [hash.1] := by
    rw [matchOp, if_neg (by decide), if_pos rfl]
    exact if_pos hash.2
  have hdup : matchOp opDup ⟨opDup, []⟩ = some [] := by decide
  have hhash160 : matchOp opHash160 ⟨opHash160, []⟩ = some [] := by decide
  have hequal : matchOp opEqualverify ⟨opEqualverify, []⟩ = some [] := by decide
  have hcheck : matchOp opChecksig ⟨opChecksig, []⟩ = some [] := by decide
  have hkeys : opDup ≠ opPubkeys ∧ opHash160 ≠ opPubkeys ∧ opPubkeyhash ≠ opPubkeys ∧
      opEqualverify ≠ opPubkeys ∧ opChecksig ≠ opPubkeys := by decide
  simp [matchTemplate, hkeys, hdup, hhash160, hhash, hequal, hcheck]

theorem safeSolver_keyId (hash : UInt160) :
    safeSolver (getScriptForDestination (.keyId hash)) = some .pubkeyhash := by
  have hhead : (getScriptForDestination (.keyId hash)).head? = some opDup := rfl
  have hpubkey : matchTemplate [opPubkey, opChecksig] (scriptOps (getScriptForDestination
      (.keyId hash))).1 (scriptOps (getScriptForDestination (.keyId hash))).2 = none := by
    rw [scriptOps_keyId]
    rfl
  have hmatch : matchTemplate [opDup, opHash160, opPubkeyhash, opEqualverify, opChecksig]
      (scriptOps (getScriptForDestination (.keyId hash))).1
      (scriptOps (getScriptForDestination (.keyId hash))).2 = some [hash.1] := by
    rw [scriptOps_keyId]
    exact matchTemplate_keyId hash
  have hwitness : isWitnessProgram (getScriptForDestination (.keyId hash)) = none :=
    isWitnessProgram_eq_none (by decide)
  have hdata : ¬ (some opDup = some opReturn) := by decide
  rw [safeSolver, isPayToScriptHash_eq_false (by rw [hhead]; decide), if_neg Bool.false_ne_true,
    hwitness]
  simp only [hhead, hdata, false_and, and_false, if_false, templates, scanTemplates, hpubkey,
    hmatch, reduceCtorEq]

theorem solver_keyId (hash : UInt160) :
    solver (getScriptForDestination (.keyId hash)) = (.pubkeyhash, [hash.1]) := by
  have hhead : (getScriptForDestination (.keyId hash)).head? = some opDup := rfl
  have hwitness : isWitnessProgram (getScriptForDestination (.keyId hash)) = none :=
    isWitnessProgram_eq_none (by decide)
  have hdata : ¬ (some opDup = some opReturn) := by decide
  have hscript : getScriptForDestination (.keyId hash) =
      [opDup, opHash160, 20] ++ (hash.1 ++ [opEqualverify, opChecksig]) := by
    rw [getScriptForDestination, pushData_hash]
    rfl
  have hlength : (getScriptForDestination (.keyId hash)).length = 25 := by
    rw [hscript, List.length_append, List.length_append, hash.2]
    rfl
  have hpubkey : matchPayToPubkey (getScriptForDestination (.keyId hash)) = none := by
    rw [matchPayToPubkey]
    exact if_neg (by rw [hlength]; simp)
  have hmatch : matchPayToPubkeyHash (getScriptForDestination (.keyId hash)) = some hash.1 := by
    have htail (k : Nat) : (getScriptForDestination (.keyId hash))[k + 23]? =
        [opEqualverify, opChecksig][k]? := by
      rw [hscript, List.getElem?_append_right (by simp), List.getElem?_append_right
        (by rw [hash.2]; simp), hash.2]
      rfl
    have hbytes : ((getScriptForDestination (.keyId hash)).drop 3).take 20 = hash.1 := by
      rw [hscript]
      exact List.take_left' hash.2
    rw [matchPayToPubkeyHash, if_pos ⟨hlength, rfl, rfl, by rw [hscript]; rfl, htail 0, htail 1⟩,
      hbytes]
  rw [solver, isPayToScriptHash_eq_false (by rw [hhead]; decide), if_neg Bool.false_ne_true,
    hwitness]
  simp only [hhead, hdata, false_and, if_false, hpubkey, hmatch]

theorem isPayToScriptHash_scriptId (hash : UInt160) :
    isPayToScriptHash (getScriptForDestination (.scriptId hash)) = true := by
  have hscript : getScriptForDestination (.scriptId hash) =
      [opHash160, 20] ++ (hash.1 ++ [opEqual]) := by
    rw [getScriptForDestination, pushData_hash]
    rfl
  have hlast : (getScriptForDestination (.scriptId hash))[22]? = some opEqual := by
    rw [hscript, List.getElem?_append_right (by simp), List.getElem?_append_right
      (by rw [hash.2]; simp), hash.2]
    rfl
  have hlength : (getScriptForDestination (.scriptId hash)).length = 23 := by
    rw [hscript, List.length_append, List.length_append, hash.2]
    rfl
  rw [isPayToScriptHash, hlength, hlast, hscript]
  rfl

theorem extractDestination_keyId (hash : UInt160) :
    extractDestination hash160 (getScriptForDestination (.keyId hash)) = some (.keyId hash) := by
  rw [extractDestination, solver_keyId]
  exact dif_pos hash.2

theorem extractDestination_scriptId (hash : UInt160) :
    extractDestination hash160 (getScriptForDestination (.scriptId hash)) =
      some (.scriptId hash) := by
  have hhash : ((getScriptForDestination (.scriptId hash)).drop 2).take 20 = hash.1 := by
    rw [getScriptForDestination, pushData_hash]
    exact List.take_left' hash.2
  rw [extractDestination, solver, if_pos (isPayToScriptHash_scriptId hash), hhash]
  exact dif_pos hash.2

theorem isWitnessProgram_cons {version size : UInt8}
    (hversion : version = op0 ∨ op1 ≤ version ∧ version ≤ op16)
    (hlength : 2 ≤ program.length ∧ program.length ≤ 40) (hsize : size.toNat = program.length) :
    isWitnessProgram (version :: size :: program) = some (decodeOpN version, program) := by
  have hbad : ¬ (version ≠ op0 ∧ (version < op1 ∨ op16 < version)) := by
    rintro ⟨hne, hlt⟩
    rcases hversion with rfl | ⟨hle, hge⟩
    · exact hne rfl
    · rcases hlt with hlt | hlt
      · exact absurd hle (UInt8.not_le.mpr hlt)
      · exact absurd hge (UInt8.not_le.mpr hlt)
  rw [isWitnessProgram, if_neg (by omega), if_neg hbad, if_pos hsize]

theorem safeSolver_of_isWitnessProgram {script : List UInt8} {version : Nat}
    (hhead : script.head? ≠ some opHash160)
    (h : isWitnessProgram script = some (version, program)) :
    safeSolver script =
      if version = 0 ∧ program.length = 20 then some .witnessV0Keyhash
      else if version = 0 ∧ program.length = 32 then some .witnessV0Scripthash
      else none := by
  rw [safeSolver, isPayToScriptHash_eq_false hhead, if_neg Bool.false_ne_true, h]

theorem safeSolver_witnessUnknown {version : Fin 17} (hversion : version ≠ 0)
    (hlength : 2 ≤ program.length ∧ program.length ≤ 40) :
    safeSolver (getScriptForDestination (.witnessUnknown version program)) = none := by
  have hscript : getScriptForDestination (.witnessUnknown version program) =
      encodeOpN version :: UInt8.ofNat program.length :: program := by
    rw [getScriptForDestination, pushData_of_lt (by omega)]
    rfl
  have hcode : ∀ n : Fin 17, n ≠ 0 → encodeOpN n ≠ opHash160 ∧
      (op1 ≤ encodeOpN n ∧ encodeOpN n ≤ op16) ∧ decodeOpN (encodeOpN n) ≠ 0 := by decide
  obtain ⟨hhead, hsmall, hdecode⟩ := hcode version hversion
  have hsize : (UInt8.ofNat program.length).toNat = program.length := by
    rw [UInt8.toNat_ofNat', Nat.mod_eq_of_lt (by omega)]
  rw [hscript, safeSolver_of_isWitnessProgram (by simpa using hhead)
    (isWitnessProgram_cons (.inr hsmall) hlength hsize), if_neg (fun h => hdecode h.1),
    if_neg (fun h => hdecode h.1)]

theorem getOutputType_getScriptForDestination {dest : CTxDestination} (h : dest.HasAddress) :
    getOutputType (getScriptForDestination dest) = dest.outputType := by
  rw [getOutputType]
  cases dest with
  | noDestination => exact h.elim
  | keyId hash => exact safeSolver_keyId hash
  | scriptId hash => exact if_pos (isPayToScriptHash_scriptId hash)
  | witnessV0ScriptHash hash =>
    have hscript : getScriptForDestination (.witnessV0ScriptHash hash) = op0 :: 32 :: hash.1 := by
      rw [getScriptForDestination, pushData_of_lt (by rw [hash.2]; decide), hash.2]
      rfl
    rw [hscript, safeSolver_of_isWitnessProgram (by simp [op0, opHash160])
      (isWitnessProgram_cons (.inl rfl) (by rw [hash.2]; decide) (by rw [hash.2]; rfl)), hash.2]
    rfl
  | witnessV0KeyHash hash =>
    have hscript : getScriptForDestination (.witnessV0KeyHash hash) = op0 :: 20 :: hash.1 := by
      rw [getScriptForDestination, pushData_hash]
      rfl
    rw [hscript, safeSolver_of_isWitnessProgram (by simp [op0, opHash160])
      (isWitnessProgram_cons (.inl rfl) (by rw [hash.2]; decide) (by rw [hash.2]; rfl)), hash.2]
    rfl
  | witnessUnknown version program => exact safeSolver_witnessUnknown h.1 h.2

end Lemmas

end TradeLayer
