import TradeLayer.Library.Hex
import TradeLayer.Library.Words

namespace TradeLayer
open Library

abbrev CScript := List UInt8

def op0 : UInt8 := 0x00
def opPushdata1 : UInt8 := 0x4c
def opPushdata2 : UInt8 := 0x4d
def opPushdata4 : UInt8 := 0x4e
def op1 : UInt8 := 0x51
def op16 : UInt8 := 0x60
def opReturn : UInt8 := 0x6a
def opDup : UInt8 := 0x76
def opEqual : UInt8 := 0x87
def opEqualverify : UInt8 := 0x88
def opHash160 : UInt8 := 0xa9
def opChecksig : UInt8 := 0xac
def opCheckmultisig : UInt8 := 0xae
def opSmallinteger : UInt8 := 0xfa
def opPubkeys : UInt8 := 0xfb
def opPubkeyhash : UInt8 := 0xfd
def opPubkey : UInt8 := 0xfe
def opInvalidopcode : UInt8 := 0xff

def decodeOpN (opcode : UInt8) : Nat :=
  if opcode = op0 then 0 else opcode.toNat - 0x50

def encodeOpN (n : Nat) : UInt8 :=
  if n = 0 then op0 else UInt8.ofNat (0x50 + n)

def isSmallInteger (opcode : UInt8) : Bool :=
  op1 ≤ opcode && opcode ≤ op16

def pushData (data : List UInt8) : CScript :=
  if data.length < 0x4c then UInt8.ofNat data.length :: data
  else if data.length ≤ 0xff then opPushdata1 :: UInt8.ofNat data.length :: data
  else if data.length ≤ 0xffff then opPushdata2 :: (leBytes 2 data.length ++ data)
  else opPushdata4 :: (leBytes 4 data.length ++ data)

structure ScriptOp where
  opcode : UInt8
  data : List UInt8
  deriving DecidableEq, Repr

/-- The data of a push whose size stands in the next bytes. -/
def sizedData (opcode : UInt8) (width : Nat) (rest : CScript) : Option (ScriptOp × CScript) :=
  let body := rest.drop width
  let nSize := leNat (rest.take width)
  if rest.length < width then none
  else if body.length < nSize then none
  else some (⟨opcode, body.take nSize⟩, body.drop nSize)

def getScriptOp : CScript → Option (ScriptOp × CScript)
  | [] => none
  | opcode :: rest =>
    if opcode < opPushdata1 then
      if rest.length < opcode.toNat then none
      else some (⟨opcode, rest.take opcode.toNat⟩, rest.drop opcode.toNat)
    else if opcode = opPushdata1 then sizedData opcode 1 rest
    else if opcode = opPushdata2 then sizedData opcode 2 rest
    else if opcode = opPushdata4 then sizedData opcode 4 rest
    else some (⟨opcode, []⟩, rest)

/-- The operations that calls of `GetOp` find, and whether they end at the end of the script. -/
def readOps : Nat → CScript → List ScriptOp × Bool
  | _, [] => ([], true)
  | 0, _ :: _ => ([], false)
  | fuel + 1, opcode :: rest =>
    match getScriptOp (opcode :: rest) with
    | none => ([], false)
    | some (op, rest) => (op :: (readOps fuel rest).1, (readOps fuel rest).2)

def scriptOps (script : CScript) : List ScriptOp × Bool :=
  readOps script.length script

def getScriptPushes (script : CScript) : Option (List (List Char)) :=
  if (scriptOps script).2 then
    some (((scriptOps script).1.filter fun op => op.opcode ≤ opPushdata4).map
      fun op => hexStr op.data)
  else none

def isPushOnly (script : CScript) : Bool :=
  (scriptOps script).2 && (scriptOps script).1.all fun op => op.opcode ≤ op16

def isPayToScriptHash (script : CScript) : Bool :=
  script.length == 23 && script[0]? == some opHash160 && script[1]? == some 0x14 &&
    script[22]? == some opEqual

def isWitnessProgram : CScript → Option (Nat × List UInt8)
  | version :: size :: program =>
    if program.length < 2 ∨ 40 < program.length then none
    else if version ≠ op0 ∧ (version < op1 ∨ op16 < version) then none
    else if size.toNat = program.length then some (decodeOpN version, program)
    else none
  | _ => none

inductive TxnOutType
  | nonstandard
  | pubkey
  | pubkeyhash
  | scripthash
  | multisig
  | nullData
  | witnessV0Scripthash
  | witnessV0Keyhash
  | witnessUnknown
  deriving DecidableEq, Repr

def isKeySized (op : ScriptOp) : Bool :=
  33 ≤ op.data.length && op.data.length ≤ 65

/-- The solutions that an operation adds where it fits the operation of a template. -/
def matchOp (wanted : UInt8) (op : ScriptOp) : Option (List (List UInt8)) :=
  if wanted = opPubkey then
    if isKeySized op then some [op.data] else none
  else if wanted = opPubkeyhash then
    if op.data.length = 20 then some [op.data] else none
  else if wanted = opSmallinteger then
    if op.opcode = op0 ∨ op1 ≤ op.opcode ∧ op.opcode ≤ op16 then
      some [[UInt8.ofNat (decodeOpN op.opcode)]]
    else none
  else if op.opcode ≠ wanted ∨ op.data ≠ [] then none
  else some []

def matchTemplate : List UInt8 → List ScriptOp → Bool → Option (List (List UInt8))
  | [], [], complete => if complete then some [] else none
  | [], _ :: _, _ => none
  | _ :: _, [], _ => none
  | [wanted], op :: ops, complete =>
    if wanted = opPubkeys then none
    else do
      let found ← matchOp wanted op
      let more ← matchTemplate [] ops complete
      some (found ++ more)
  | wanted :: next :: template, op :: ops, complete =>
    if wanted = opPubkeys then do
      -- the keys are skipped, and the operation behind them meets the next one of the template
      let keys := (op :: ops).takeWhile isKeySized
      let rest := (op :: ops).dropWhile isKeySized
      let found ← matchOp next (rest.headD ⟨opInvalidopcode, []⟩)
      let more ← matchTemplate template rest.tail complete
      some (keys.map ScriptOp.data ++ found ++ more)
    else do
      let found ← matchOp wanted op
      let more ← matchTemplate (next :: template) ops complete
      some (found ++ more)

def templates : List (TxnOutType × List UInt8) :=
  [(.pubkey, [opPubkey, opChecksig]),
    (.pubkeyhash, [opDup, opHash160, opPubkeyhash, opEqualverify, opChecksig]),
    (.multisig, [opSmallinteger, opPubkeys, opSmallinteger, opCheckmultisig]),
    (.nullData, [opReturn])]

def isMultisig (solutions : List (List UInt8)) : Bool :=
  let m := ((solutions.headD []).headD 0).toNat
  let n := ((solutions.getLastD []).headD 0).toNat
  1 ≤ m && 1 ≤ n && m ≤ n && solutions.length - 2 == n

def scanTemplates (script : CScript) : List (TxnOutType × List UInt8) → Option TxnOutType
  | [] => none
  | (type, template) :: rest =>
    match matchTemplate template (scriptOps script).1 (scriptOps script).2 with
    | none => scanTemplates script rest
    | some solutions =>
      if type = .multisig ∧ ¬ isMultisig solutions then none else some type

def safeSolver (script : CScript) : Option TxnOutType :=
  if isPayToScriptHash script then some .scripthash
  else
    match isWitnessProgram script with
    | some (version, program) =>
      if version = 0 ∧ program.length = 20 then some .witnessV0Keyhash
      else if version = 0 ∧ program.length = 32 then some .witnessV0Scripthash
      else none
    | none =>
      if 2 ≤ script.length ∧ script.head? = some opReturn ∧ isPushOnly script.tail then
        some .nullData
      else scanTemplates script templates

def getOutputType (script : CScript) : Option TxnOutType :=
  safeSolver script

variable {ops : List ScriptOp}
variable {script rest data : List UInt8} {op : ScriptOp} {m n width : Nat} {opcode : UInt8}

theorem length_of_sizedData (h : sizedData opcode width script = some (op, rest)) :
    rest.length ≤ script.length := by
  simp only [sizedData, Option.ite_none_left_eq_some, Option.some.injEq, Prod.mk.injEq] at h
  obtain ⟨-, -, -, rfl⟩ := h
  simp only [List.length_drop]
  omega

theorem length_of_getScriptOp (h : getScriptOp script = some (op, rest)) :
    rest.length < script.length := by
  cases script with
  | nil => exact absurd h (by simp [getScriptOp])
  | cons opcode script =>
    rw [List.length_cons, Nat.lt_succ_iff]
    simp only [getScriptOp] at h
    split_ifs at h with hdirect hfits h1 h2 h4
    · simp only [Option.some.injEq, Prod.mk.injEq] at h
      rw [← h.2, List.length_drop]
      omega
    · exact length_of_sizedData h
    · exact length_of_sizedData h
    · exact length_of_sizedData h
    · simp only [Option.some.injEq, Prod.mk.injEq] at h
      rw [h.2]

theorem readOps_congr (hm : script.length ≤ m) (hn : script.length ≤ n) :
    readOps m script = readOps n script := by
  induction m generalizing n script with
  | zero =>
    obtain rfl := List.eq_nil_of_length_eq_zero (Nat.le_zero.mp hm)
    cases n <;> rfl
  | succ m ih =>
    cases script with
    | nil => cases n <;> rfl
    | cons opcode script =>
      rw [List.length_cons] at hm hn
      obtain ⟨n, rfl⟩ := Nat.exists_eq_add_of_le' (Nat.one_le_of_lt hn)
      simp only [readOps]
      cases hop : getScriptOp (opcode :: script) with
      | none => rfl
      | some found =>
        obtain ⟨op, rest⟩ := found
        have hlt := length_of_getScriptOp hop
        rw [List.length_cons] at hlt
        have hm : rest.length ≤ m := by omega
        have hn : rest.length ≤ n := by omega
        simp only [ih hm hn]

theorem scriptOps_of_getScriptOp (h : getScriptOp script = some (op, rest)) :
    scriptOps script = (op :: (scriptOps rest).1, (scriptOps rest).2) := by
  have hlt := length_of_getScriptOp h
  cases script with
  | nil => exact absurd hlt (Nat.not_lt_zero _)
  | cons opcode script =>
    rw [List.length_cons, Nat.lt_succ_iff] at hlt
    rw [scriptOps, List.length_cons, readOps, h]
    simp only [readOps_congr hlt le_rfl]
    rfl

theorem getScriptOp_of_lt (hopcode : opPushdata4 < opcode) :
    getScriptOp (opcode :: rest) = some (⟨opcode, []⟩, rest) := by
  have h1 : ¬ opcode < opPushdata1 :=
    UInt8.not_lt.mpr (UInt8.le_trans (by decide : opPushdata1 ≤ opPushdata4)
      (UInt8.le_of_lt hopcode))
  have hne {k : UInt8} (hk : k ≤ opPushdata4) : opcode ≠ k := by
    rintro rfl
    exact absurd (UInt8.lt_of_lt_of_le hopcode hk) (UInt8.lt_irrefl _)
  rw [getScriptOp, if_neg h1, if_neg (hne (by decide)), if_neg (hne (by decide)),
    if_neg (hne (by decide))]

theorem getScriptOp_direct (hopcode : opcode < opPushdata1) (hsize : opcode.toNat = data.length) :
    getScriptOp (opcode :: (data ++ rest)) = some (⟨opcode, data⟩, rest) := by
  rw [getScriptOp, if_pos hopcode, hsize, if_neg (by rw [List.length_append]; omega),
    List.take_left, List.drop_left]

theorem sizedData_append (width : Nat) (hsize : data.length < 256 ^ width) :
    sizedData opcode width (leBytes width data.length ++ (data ++ rest)) =
      some (⟨opcode, data⟩, rest) := by
  have htake : (leBytes width data.length ++ (data ++ rest)).take width =
      leBytes width data.length := List.take_left' (length_leBytes ..)
  have hdrop : (leBytes width data.length ++ (data ++ rest)).drop width = data ++ rest :=
    List.drop_left' (length_leBytes ..)
  have hlength : ¬ (leBytes width data.length ++ (data ++ rest)).length < width := by
    rw [List.length_append, length_leBytes]
    omega
  have hbody : ¬ (data ++ rest).length < data.length := by
    rw [List.length_append]
    omega
  simp only [sizedData, htake, hdrop, leNat_leBytes, Nat.mod_eq_of_lt hsize, if_neg hlength,
    if_neg hbody, List.take_left, List.drop_left]

theorem getScriptOp_pushData (hsize : data.length < 2 ^ 32) (rest : CScript) :
    ∃ opcode ≤ opPushdata4,
      getScriptOp (pushData data ++ rest) = some (⟨opcode, data⟩, rest) := by
  unfold pushData
  split_ifs with h1 h2 h3
  · have hopcode : (UInt8.ofNat data.length).toNat = data.length := by
      rw [UInt8.toNat_ofNat', Nat.mod_eq_of_lt (by omega)]
    have hlt : UInt8.ofNat data.length < opPushdata1 := by
      rw [UInt8.lt_iff_toNat_lt, hopcode]
      exact h1
    exact ⟨_, UInt8.le_trans (UInt8.le_of_lt hlt) (by decide), getScriptOp_direct hlt hopcode⟩
  · refine ⟨opPushdata1, by decide, ?_⟩
    rw [List.cons_append, getScriptOp, if_neg (by decide), if_pos rfl]
    exact sizedData_append 1 (by omega)
  · refine ⟨opPushdata2, by decide, ?_⟩
    rw [List.cons_append, getScriptOp, if_neg (by decide), if_neg (by decide), if_pos rfl,
      List.append_assoc]
    exact sizedData_append 2 (by omega)
  · refine ⟨opPushdata4, by decide, ?_⟩
    rw [List.cons_append, getScriptOp, if_neg (by decide), if_neg (by decide),
      if_neg (by decide), if_pos rfl, List.append_assoc]
    exact sizedData_append 4 (by omega)

theorem scriptOps_cons_of_lt (hopcode : opPushdata4 < opcode) :
    scriptOps (opcode :: rest) = (⟨opcode, []⟩ :: (scriptOps rest).1, (scriptOps rest).2) :=
  scriptOps_of_getScriptOp (getScriptOp_of_lt hopcode)

theorem scriptOps_pushData (hsize : data.length < 2 ^ 32) : ∃ opcode ≤ opPushdata4,
    scriptOps (pushData data) = ([⟨opcode, data⟩], true) := by
  obtain ⟨opcode, hle, hop⟩ := getScriptOp_pushData hsize []
  rw [List.append_nil] at hop
  exact ⟨opcode, hle, scriptOps_of_getScriptOp hop⟩

theorem pushData_ne_nil (data : List UInt8) : pushData data ≠ [] := by
  unfold pushData
  split_ifs <;> exact List.cons_ne_nil _ _

theorem head?_of_getScriptOp (h : getScriptOp script = some (op, rest)) :
    script.head? = some op.opcode := by
  have hsized {width : Nat} {bytes : CScript} {code : UInt8}
      (h : sizedData code width bytes = some (op, rest)) : code = op.opcode := by
    simp only [sizedData, Option.ite_none_left_eq_some, Option.some.injEq, Prod.mk.injEq] at h
    exact congrArg ScriptOp.opcode h.2.2.1
  cases script with
  | nil => exact absurd h (by simp [getScriptOp])
  | cons opcode script =>
    rw [List.head?_cons, Option.some.injEq]
    simp only [getScriptOp] at h
    split_ifs at h with hdirect hfits h1 h2 h4
    · simp only [Option.some.injEq, Prod.mk.injEq] at h
      exact congrArg ScriptOp.opcode h.1
    · exact hsized h
    · exact hsized h
    · exact hsized h
    · simp only [Option.some.injEq, Prod.mk.injEq] at h
      exact congrArg ScriptOp.opcode h.1

theorem head?_of_scriptOps (h : (scriptOps script).1 = op :: ops) :
    script.head? = some op.opcode := by
  cases script with
  | nil => exact absurd h.symm (List.cons_ne_nil op ops)
  | cons opcode script =>
    cases hop : getScriptOp (opcode :: script) with
    | none =>
      rw [scriptOps, List.length_cons, readOps, hop] at h
      exact absurd h.symm (List.cons_ne_nil op ops)
    | some found =>
      obtain ⟨first, rest⟩ := found
      rw [scriptOps_of_getScriptOp hop] at h
      rw [head?_of_getScriptOp hop, (List.cons.inj h).1]

theorem isPayToScriptHash_eq_false (h : script.head? ≠ some opHash160) :
    isPayToScriptHash script = false := by
  have h0 : (script[0]? == some opHash160) = false := by
    rw [← List.head?_eq_getElem?]
    exact beq_eq_false_iff_ne.mpr h
  rw [isPayToScriptHash, h0, Bool.and_false, Bool.false_and, Bool.false_and]

theorem isWitnessProgram_eq_none (h : op16 < opcode) :
    isWitnessProgram (opcode :: rest) = none := by
  cases rest with
  | nil => rfl
  | cons size program =>
    have hne : opcode ≠ op0 := by
      rintro rfl
      exact absurd h (by decide)
    rw [isWitnessProgram]
    split_ifs with hlength hversion hsize
    · rfl
    · rfl
    · exact absurd ⟨hne, .inr h⟩ hversion
    · rfl

theorem safeSolver_nullData (hsize : data.length < 2 ^ 32) :
    safeSolver (opReturn :: pushData data) = some .nullData := by
  obtain ⟨opcode, hle, hops⟩ := scriptOps_pushData hsize
  have hlength : 2 ≤ (opReturn :: pushData data).length := by
    rw [List.length_cons]
    exact Nat.succ_le_succ (List.length_pos_iff.mpr (pushData_ne_nil data))
  have hpush : isPushOnly (pushData data) = true := by
    rw [isPushOnly, hops]
    simpa using UInt8.le_trans hle (by decide : opPushdata4 ≤ op16)
  rw [safeSolver, isPayToScriptHash_eq_false (by simp [opReturn, opHash160]),
    if_neg Bool.false_ne_true, isWitnessProgram_eq_none (by decide)]
  exact if_pos ⟨hlength, rfl, hpush⟩

theorem getScriptPushes_nullData (hsize : data.length < 2 ^ 32) :
    getScriptPushes (opReturn :: pushData data) = some [hexStr data] := by
  obtain ⟨opcode, hle, hops⟩ := scriptOps_pushData hsize
  have hreturn : ¬ opReturn ≤ opPushdata4 := by decide
  rw [getScriptPushes, scriptOps_cons_of_lt (by decide), hops]
  simp [hreturn, hle]

theorem head?_of_matchTemplate_opReturn {complete : Bool}
    {solutions : List (List UInt8)} (h : matchTemplate [opReturn] ops complete = some solutions) :
    ∃ op rest, ops = op :: rest ∧ op.opcode = opReturn := by
  cases ops with
  | nil => exact absurd h (by simp [matchTemplate])
  | cons op ops =>
    refine ⟨op, ops, rfl, ?_⟩
    by_contra hne
    have hop : matchOp opReturn op = none := by
      simp [matchOp, hne, show opReturn ≠ opPubkey by decide,
        show opReturn ≠ opPubkeyhash by decide, show opReturn ≠ opSmallinteger by decide]
    simp [matchTemplate, hop] at h

theorem exists_matchTemplate_of_scanTemplates {type : TxnOutType}
    {choices : List (TxnOutType × List UInt8)} (h : scanTemplates script choices = some type) :
    ∃ template solutions, (type, template) ∈ choices ∧
      matchTemplate template (scriptOps script).1 (scriptOps script).2 = some solutions := by
  induction choices with
  | nil => exact absurd h (by simp [scanTemplates])
  | cons entry rest ih =>
    obtain ⟨type', template⟩ := entry
    rw [scanTemplates] at h
    split at h
    · obtain ⟨template, solutions, hmem, hmatch⟩ := ih h
      exact ⟨template, solutions, List.mem_cons_of_mem _ hmem, hmatch⟩
    · rename_i solutions hmatch
      split_ifs at h with hmultisig
      obtain rfl := Option.some.inj h
      exact ⟨template, solutions, List.mem_cons_self, hmatch⟩

theorem head?_of_safeSolver_nullData (h : safeSolver script = some .nullData) :
    script.head? = some opReturn := by
  rw [safeSolver] at h
  by_cases hp2sh : isPayToScriptHash script = true
  · rw [if_pos hp2sh] at h
    exact absurd h (by decide)
  rw [if_neg hp2sh] at h
  cases hwitness : isWitnessProgram script with
  | some found =>
    simp only [hwitness] at h
    split_ifs at h <;> exact absurd h (by decide)
  | none =>
    simp only [hwitness] at h
    split_ifs at h with hdata
    · exact hdata.2.1
    obtain ⟨template, solutions, hmem, hmatch⟩ := exists_matchTemplate_of_scanTemplates h
    have htemplate : template = [opReturn] := by simpa [templates] using hmem
    rw [htemplate] at hmatch
    obtain ⟨op, rest, hops, hop⟩ := head?_of_matchTemplate_opReturn hmatch
    rw [head?_of_scriptOps hops, hop]

end TradeLayer
