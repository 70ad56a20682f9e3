import TradeLayer.ParseTransaction

namespace TradeLayer
open Library

def mpRedempBadValidation : Int := -223
def mpEncodingError : Int := -250

structure WalletKeys where
  getKeyForDestination : CTxDestination → Option UInt160
  getPubKey : UInt160 → Option (List UInt8)

structure RelaySettings where
  nMaxDatacarrierBytes : Nat
  datacarrier : Bool
  getHeight : Int
  tlGetDustThreshold : CScript → Int
  /-- The random byte drawn for a key, by the bytes still to be embedded. -/
  getRand : Nat → UInt8

def RelaySettings.plain : RelaySettings where
  nMaxDatacarrierBytes := 83
  datacarrier := true
  getHeight := 400000
  tlGetDustThreshold := fun _ => 546
  getRand := fun _ => 0

def useEncodingClassC (rules : ScriptRules) (settings : RelaySettings) (nDataSize : Nat) : Bool :=
  nDataSize + getTLMarker.length ≤ settings.nMaxDatacarrierBytes && settings.datacarrier &&
    rules.isAllowedOutputType .nullData settings.getHeight

/-- The members of the public key object made from bytes, where they are one. -/
def toPubKey (bytes : List UInt8) : List UInt8 :=
  if validSize bytes then bytes else []

def addressToPubKey (code : KeyCode) (keys : WalletKeys) (key : Address) : Option (List UInt8) := do
  let dest := code.decodeDestination key
  if dest = .noDestination then none
  else
    let keyId ← keys.getKeyForDestination dest
    let pubKey ← keys.getPubKey keyId
    let pubKey := if isHex key then toPubKey (parseHex key) else pubKey
    if code.isFullyValid pubKey then some pubKey else none

def shaInput (code : KeyCode) (strSeed : Address) : Nat → List Char
  | 0 => strSeed.takeWhile fun c => c.toNat ≠ 0
  | j + 1 => (hexStr (code.sha256 ((shaInput code strSeed j).map fun c =>
      UInt8.ofNat c.toNat))).map Char.toUpper

/-- The table of hashes, of which the first one stays empty. -/
def obfuscatedHash (code : KeyCode) (strSeed : Address) (chSeqNum : UInt8) : List Char :=
  if chSeqNum = 0 then [] else shaInput code strSeed chSeqNum.toNat

/-- The last byte is counted up until the bytes are a point of the curve, at most 256 times. -/
def fixCoordinate (code : KeyCode) (vchFakeKey : List UInt8) (chRandom : UInt8) : List UInt8 :=
  let attempt (j : Nat) := vchFakeKey ++ [chRandom + UInt8.ofNat j]
  match (List.range 256).find? fun j => code.isFullyValid (attempt j) with
  | some j => attempt j
  | none => attempt 255

/-- A key with up to 30 bytes of data behind its number, with the hash of the number on top. -/
def fakeKey (code : KeyCode) (strSeed : Address) (chRandom chSeqNum : UInt8)
    (data : List UInt8) : Except Abort (List UInt8) :=
  let vchHash := parseHex (obfuscatedHash code strSeed chSeqNum)
  let packet := chSeqNum :: data ++ List.replicate (30 - data.length) 0
  if vchHash.length < 31 then .error .undefined
  else .ok (fixCoordinate code (0x02 :: packet.zipWith (· ^^^ ·) vchHash) chRandom)

def dataKeys (code : KeyCode) (settings : RelaySettings) (strSeed : Address) :
    Nat → List UInt8 → UInt8 → Except Abort (List (List UInt8) × List UInt8 × UInt8)
  | 0, payload, chSeqNum => .ok ([], payload, chSeqNum)
  | nKeys + 1, payload, chSeqNum => do
    let key ← fakeKey code strSeed (settings.getRand payload.length) chSeqNum (payload.take 30)
    let (keys, rest, next) ← dataKeys code settings strSeed nKeys (payload.drop 30) (chSeqNum + 1)
    .ok (key :: keys, rest, next)

/-- The outputs for what is left of the payload. Each one takes at least a byte of it. -/
def multisigOutputs (code : KeyCode) (settings : RelaySettings) (strSeed : Address)
    (redeemingPubKey : List UInt8) : Nat → List UInt8 → UInt8 → Except Abort (List CTxOut)
  | 0, _, _ => .ok []
  | fuel + 1, payload, chSeqNum =>
    if payload = [] then .ok []
    else do
      let nKeys := if 30 < payload.length then 2 else 1
      let (keys, rest, next) ← dataKeys code settings strSeed nKeys payload chSeqNum
      let script := getScriptForMultisig 1 (redeemingPubKey :: keys)
      let outputs ← multisigOutputs code settings strSeed redeemingPubKey fuel rest next
      .ok (⟨settings.tlGetDustThreshold script, script⟩ :: outputs)

def tradeLayerEncodeClassB (code : KeyCode) (settings : RelaySettings) (senderAddress : Address)
    (redeemingPubKey vchPayload : List UInt8) : Except Abort (List CTxOut) :=
  if 128 ≤ senderAddress.length then .error .assertion
  else multisigOutputs code settings senderAddress redeemingPubKey vchPayload.length vchPayload 1

def tradeLayerEncodeClassC (settings : RelaySettings) (vchPayload : List UInt8) :
    Option CTxOut :=
  let vchData := getTLMarker ++ vchPayload
  if settings.nMaxDatacarrierBytes < vchData.length then none
  else some ⟨0, opReturn :: pushData vchData⟩

/-- The outputs that carry the payload, as the builder of transactions encodes them. -/
def encodeDataOutputs (rules : ScriptRules) (code : KeyCode) (keys : WalletKeys)
    (settings : RelaySettings) (senderAddress redemptionAddress : Address)
    (payload : List UInt8) : Except Abort (Except Int (List CTxOut)) :=
  if useEncodingClassC rules settings payload.length then
    match tradeLayerEncodeClassC settings payload with
    | none => .ok (.error mpEncodingError)
    | some output => .ok (.ok [output])
  else
    let sAddress := if redemptionAddress = [] then senderAddress else redemptionAddress
    match addressToPubKey code keys sAddress with
    | none => .ok (.error mpRedempBadValidation)
    | some redeemingPubKey => do
      let outputs ← tradeLayerEncodeClassB code settings senderAddress redeemingPubKey payload
      .ok (.ok outputs)

def receiverOutput (code : KeyCode) (settings : RelaySettings) (receiverAddress : Address)
    (referenceAmount : Int) : List CTxOut :=
  if receiverAddress = [] then []
  else
    let scriptPubKey := getScriptForDestination (code.decodeDestination receiverAddress)
    let nValue :=
      if 0 < referenceAmount then referenceAmount else settings.tlGetDustThreshold scriptPubKey
    [⟨nValue, scriptPubKey⟩]

section ClassB

variable (code : KeyCode) (settings : RelaySettings) (strSeed : Address)
variable {chSeqNum : UInt8}

def numbersLeft (chSeqNum : UInt8) : Nat := (256 - chSeqNum.toNat) % 256

theorem numbersLeft_pos (h : chSeqNum ≠ 0) :
    numbersLeft chSeqNum = numbersLeft (chSeqNum + 1) + 1 := by
  have hne : chSeqNum.toNat ≠ 0 := fun hzero => h (UInt8.toNat_inj.mp hzero)
  have hlt := chSeqNum.toNat_lt
  have hadd : (chSeqNum + 1).toNat = (chSeqNum.toNat + 1) % 256 := UInt8.toNat_add ..
  rw [numbersLeft, numbersLeft, hadd]
  omega

theorem numbersLeft_add {n : Nat} (h : n ≤ numbersLeft chSeqNum) :
    numbersLeft (chSeqNum + UInt8.ofNat n) = numbersLeft chSeqNum - n := by
  have hlt := chSeqNum.toNat_lt
  have hadd : (chSeqNum + UInt8.ofNat n).toNat = (chSeqNum.toNat + n % 256) % 256 := by
    rw [UInt8.toNat_add, UInt8.toNat_ofNat']
  rw [numbersLeft] at h
  rw [numbersLeft, numbersLeft, hadd]
  omega

theorem exists_fakeKey (chRandom : UInt8) (data : List UInt8)
    (h : chSeqNum ≠ 0) : ∃ key, fakeKey code strSeed chRandom chSeqNum data = .ok key := by
  obtain ⟨j, hj⟩ : ∃ j, chSeqNum.toNat = j + 1 :=
    Nat.exists_eq_succ_of_ne_zero fun hzero => h (UInt8.toNat_inj.mp hzero)
  have hhash : (parseHex (obfuscatedHash code strSeed chSeqNum)).length = 32 := by
    rw [obfuscatedHash, if_neg h, hj, shaInput, parseHex_map_toUpper_hexStr]
    exact (code.sha256 _).2
  simp only [fakeKey, hhash]
  exact ⟨_, rfl⟩

theorem dataKeys_spec (nKeys : Nat) (payload : List UInt8) (chSeqNum : UInt8) :
    (nKeys ≤ numbersLeft chSeqNum → ∃ keys, dataKeys code settings strSeed nKeys payload chSeqNum =
      .ok (keys, payload.drop (30 * nKeys), chSeqNum + UInt8.ofNat nKeys)) ∧
    (numbersLeft chSeqNum < nKeys →
      dataKeys code settings strSeed nKeys payload chSeqNum = .error .undefined) := by
  induction nKeys generalizing payload chSeqNum with
  | zero => exact ⟨fun _ => ⟨[], by simp [dataKeys]⟩, fun h => absurd h (Nat.not_lt_zero _)⟩
  | succ nKeys ih =>
    by_cases hzero : chSeqNum = 0
    · subst hzero
      exact ⟨fun h => absurd h (Nat.not_succ_le_zero _), fun _ => rfl⟩
    obtain ⟨key, hkey⟩ := exists_fakeKey code strSeed (settings.getRand payload.length)
      (payload.take 30) hzero
    have hleft := numbersLeft_pos hzero
    obtain ⟨hok, herror⟩ := ih (payload.drop 30) (chSeqNum + 1)
    constructor
    · intro h
      obtain ⟨keys, hkeys⟩ := hok (by omega)
      have hnext : chSeqNum + 1 + UInt8.ofNat nKeys = chSeqNum + UInt8.ofNat (nKeys + 1) := by
        rw [UInt8.add_assoc, UInt8.add_comm 1, UInt8.ofNat_add]
        rfl
      refine ⟨key :: keys, ?_⟩
      rw [dataKeys, hkey, ok_bind, hkeys, List.drop_drop, hnext, Nat.mul_succ, Nat.add_comm 30]
      rfl
    · intro h
      rw [dataKeys, hkey, ok_bind, herror (by omega), error_bind]

theorem multisigOutputs_spec (redeemingPubKey : List UInt8) {fuel : Nat} {payload : List UInt8}
    (hfuel : payload.length ≤ fuel) (chSeqNum : UInt8) :
    (payload.length ≤ 30 * numbersLeft chSeqNum → ∃ outputs,
      multisigOutputs code settings strSeed redeemingPubKey fuel payload chSeqNum = .ok outputs ∧
        ∀ output ∈ outputs, output.scriptPubKey.head? ≠ some opReturn) ∧
    (30 * numbersLeft chSeqNum < payload.length →
      multisigOutputs code settings strSeed redeemingPubKey fuel payload chSeqNum =
        .error .undefined) := by
  induction fuel generalizing payload chSeqNum with
  | zero =>
    refine ⟨fun _ => ⟨[], rfl, by simp⟩, fun h => ?_⟩
    omega
  | succ fuel ih =>
    by_cases hnil : payload = []
    · subst hnil
      exact ⟨fun _ => ⟨[], by simp [multisigOutputs], by simp⟩,
        fun h => absurd h (Nat.not_lt_zero _)⟩
    have hpos := List.length_pos_iff.mpr hnil
    let nKeys := if 30 < payload.length then 2 else 1
    have hkeys : 1 ≤ nKeys ∧ 30 * (nKeys - 1) < payload.length ∧
        (nKeys = 2 ∨ payload.length ≤ 30) := by grind
    obtain ⟨hok, herror⟩ := dataKeys_spec code settings strSeed nKeys payload chSeqNum
    have hstep : multisigOutputs code settings strSeed redeemingPubKey (fuel + 1) payload chSeqNum =
        dataKeys code settings strSeed nKeys payload chSeqNum >>= fun found =>
          let script := getScriptForMultisig 1 (redeemingPubKey :: found.1)
          multisigOutputs code settings strSeed redeemingPubKey fuel found.2.1 found.2.2 >>=
            fun outputs => .ok (⟨settings.tlGetDustThreshold script, script⟩ :: outputs) := by
      rw [multisigOutputs, if_neg hnil]
    by_cases hleft : nKeys ≤ numbersLeft chSeqNum
    · obtain ⟨keys, hfound⟩ := hok hleft
      have hrest : (payload.drop (30 * nKeys)).length ≤ fuel := by
        rw [List.length_drop]
        omega
      obtain ⟨ihok, iherror⟩ := ih hrest (chSeqNum + UInt8.ofNat nKeys)
      rw [numbersLeft_add hleft, List.length_drop] at ihok iherror
      rw [hstep, hfound, ok_bind]
      constructor
      · intro h
        obtain ⟨outputs, houtputs, hheads⟩ := ihok (by omega)
        refine ⟨_, by simp only [houtputs, ok_bind]; rfl, ?_⟩
        simpa using ⟨head?_getScriptForMultisig _, hheads⟩
      · intro h
        simp only [iherror (by omega), error_bind]
    · refine ⟨fun h => by omega, fun _ => ?_⟩
      rw [hstep, herror (by omega), error_bind]

end ClassB

end TradeLayer
