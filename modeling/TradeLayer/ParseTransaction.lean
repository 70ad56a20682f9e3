import TradeLayer.Destinations
import TradeLayer.Effects

namespace TradeLayer
open Library

variable (rules : ScriptRules) (strSender : Address)

structure COutPoint where
  hash : Nat
  n : Nat
  deriving DecidableEq, Repr

structure CTxOut where
  nValue : Int
  scriptPubKey : CScript
  deriving DecidableEq, Repr

structure CTransaction where
  vin : List COutPoint
  vout : List CTxOut
  deriving DecidableEq, Repr

/-- The hash functions, the check of public keys and the texts of addresses, which the code of
the tokens only calls. An address is read back as the destination it was made from. -/
structure KeyCode where
  hash160 : List UInt8 → UInt160
  sha256 : List UInt8 → UInt256
  isFullyValid : List UInt8 → Bool
  encodeDestination : CTxDestination → Address
  decodeDestination : Address → CTxDestination
  decode_encode : ∀ dest, dest.HasAddress → decodeDestination (encodeDestination dest) = dest

def byteChars (bytes : List UInt8) : List Char := bytes.map fun b => Char.ofNat b.toNat

def charBytes (text : List Char) : List UInt8 := text.map fun c => UInt8.ofNat c.toNat

theorem charBytes_byteChars (bytes : List UInt8) : charBytes (byteChars bytes) = bytes := by
  have hbyte (b : UInt8) : UInt8.ofNat (Char.ofNat b.toNat).toNat = b := by
    have hlt := b.toNat_lt
    rw [Char.toNat_ofNat, if_pos (.inl (by omega)), UInt8.ofNat_toNat]
  rw [charBytes, byteChars, List.map_map]
  exact (List.map_congr_left fun b _ => hbyte b).trans (List.map_id _)

/-- Addresses that are a letter for the kind and the bytes, and hash functions that forget what
they are given. -/
def KeyCode.plain : KeyCode where
  hash160 := fun _ => ⟨List.replicate 20 0, rfl⟩
  sha256 := fun _ => ⟨List.replicate 32 0, rfl⟩
  isFullyValid := fun _ => true
  encodeDestination := fun
    | .noDestination => []
    | .keyId hash => 'm' :: byteChars hash
    | .scriptId hash => '2' :: byteChars hash
    | .witnessV0KeyHash hash => 'q' :: byteChars hash
    | .witnessV0ScriptHash hash => 'p' :: byteChars hash
    | .witnessUnknown version program => Char.ofNat version :: byteChars program
  decodeDestination := fun
    | [] => .noDestination
    | kind :: text =>
      let bytes := charBytes text
      if h : kind.toNat < 17 then .witnessUnknown ⟨kind.toNat, h⟩ bytes
      else if h : kind = 'p' ∧ bytes.length = 32 then .witnessV0ScriptHash ⟨bytes, h.2⟩
      else if h : bytes.length = 20 then
        if kind = 'm' then .keyId ⟨bytes, h⟩
        else if kind = '2' then .scriptId ⟨bytes, h⟩
        else .witnessV0KeyHash ⟨bytes, h⟩
      else .noDestination
  decode_encode := by
    intro dest hdest
    cases dest with
    | noDestination => exact hdest.elim
    | witnessUnknown version program =>
      have hversion : ∀ n : Fin 17, (Char.ofNat n).toNat = n := by decide
      simp [hversion, charBytes_byteChars]
    | keyId hash => simp [charBytes_byteChars, hash.2]
    | scriptId hash => simp [charBytes_byteChars, hash.2]
    | witnessV0KeyHash hash => simp [charBytes_byteChars, hash.2]
    | witnessV0ScriptHash hash => simp [charBytes_byteChars, hash.2]

structure ScriptRules where
  network : Network
  params : ConsensusParams

inductive EncodingClass
  | noMarker
  | classB
  | classC
  deriving DecidableEq, Repr

def getTLMarker : List UInt8 := [0x6f, 0x6d, 0x6e, 0x69]

/-- The size of the buffer for a payload, `MAX_PACKETS * PACKET_SIZE`. -/
def maxPayload : Nat := 255 * 31

def pubkeyhashBlock : Int := 0

def scripthashBlock : Network → Int
  | .main => 322000
  | .test => 0
  | .regtest => 0

def multisigBlock : Int := 0

namespace ScriptRules

variable (rules : ScriptRules) (whichType : TxnOutType) (tx : CTransaction) (nBlock : Int)

def isAllowedInputType : Bool :=
  match whichType with
  | .pubkeyhash => pubkeyhashBlock ≤ nBlock
  | .scripthash => scripthashBlock rules.network ≤ nBlock
  | _ => false

def isAllowedOutputType : Bool :=
  match whichType with
  | .pubkeyhash => pubkeyhashBlock ≤ nBlock
  | .scripthash => scripthashBlock rules.network ≤ nBlock
  | .multisig => multisigBlock ≤ nBlock
  | .nullData => rules.params.nulldataBlock ≤ nBlock
  | _ => false

/-- The pushes of an output, where it is an allowed data output whose first push starts with the
marker. -/
def markedPushes (output : CTxOut) : Option (List (List Char)) :=
  if getOutputType output.scriptPubKey = some .nullData ∧
      rules.isAllowedOutputType .nullData nBlock then
    (getScriptPushes output.scriptPubKey).filter fun pushes =>
      pushes ≠ [] && getTLMarker.isPrefixOf (parseHex (pushes.headD []))
  else none

def getEncodingClass : EncodingClass :=
  let strClassC := "6f6d6e69".toList
  let examineClosely := !decide (nBlock < 395000) &&
    tx.vout.any fun output => strClassC <:+: hexStr output.scriptPubKey
  if (examineClosely || rules.network ≠ .main) &&
      tx.vout.any fun output => (rules.markedPushes nBlock output).isSome then .classC
  else .noMarker

def addressData (code : KeyCode) (tx : CTransaction) (nBlock : Int) : List Address :=
  tx.vout.filterMap fun output => do
    let whichType ← getOutputType output.scriptPubKey
    if rules.isAllowedOutputType whichType nBlock then
      (extractDestination code.hash160 output.scriptPubKey).map code.encodeDestination
    else none

/-- The texts that the data outputs of the marker push, without the marker. -/
def opReturnScriptData : List (List Char) :=
  tx.vout.flatMap fun output =>
    match rules.markedPushes nBlock output with
    | some (first :: pushes) => first.drop (getTLMarker.length * 2) :: pushes
    | _ => []

end ScriptRules

/-- The sender is the address of the coin that the first input spends. -/
def identifySender (code : KeyCode) (view : COutPoint → Option CTxOut) (tx : CTransaction)
    (nBlock : Int) : Except Abort (Except Int Address) :=
  match tx.vin with
  | [] => .error .undefined
  | txIn :: _ =>
    match view txIn with
    | none => .ok (.error (-101))
    | some txOut =>
      match getOutputType txOut.scriptPubKey with
      | none => .ok (.error (-108))
      | some whichType =>
        if ¬ rules.isAllowedInputType whichType nBlock then .ok (.error (-109))
        else
          match extractDestination code.hash160 txOut.scriptPubKey with
          | none => .ok (.error (-110))
          | some source => .ok (.ok (code.encodeDestination source))

/-- One step of the search among several addresses: the first one of the sender is taken for
the change. -/
def fishReference (state : Address × Bool) (addr : Address) : Address × Bool :=
  if addr = strSender ∧ ¬ state.2 then (state.1, true) else (addr, state.2)

def identifyReference (addressData : List Address) : Address :=
  match addressData with
  | [addr] => addr
  | _ => (addressData.foldl (fishReference strSender) ([], false)).1

def appendPush (singlePkt : List UInt8) (text : List Char) : Except Abort (List UInt8) :=
  if singlePkt.length = maxPayload ∨ text = [] then .ok singlePkt
  else if isHex text then
    .ok (singlePkt ++ (parseHex text).take (maxPayload - singlePkt.length))
  else .error .assertion

def extractPayload (tx : CTransaction) (nBlock : Int) : Except Abort (List UInt8) :=
  (rules.opReturnScriptData tx nBlock).foldlM appendPush []

structure ParsedTransaction where
  sender : Address
  reference : Address
  payload : List UInt8
  encodingClass : EncodingClass
  fee : Int
  deriving DecidableEq, Repr

/-- The values of the coins were checked by the base node, so that their sums stay in range. -/
def parseTransaction (code : KeyCode) (view : COutPoint → Option CTxOut) (wtx : CTransaction)
    (nBlock : Int) : Except Abort (Except Int ParsedTransaction) :=
  if rules.getEncodingClass wtx nBlock = .noMarker then .ok (.error (-1))
  else if wtx.vin.any fun txIn => (view txIn).isNone then .ok (.error (-101))
  else do
    match ← identifySender rules code view wtx nBlock with
    | .error e => .ok (.error e)
    | .ok strSender =>
      let inAll := (wtx.vin.map fun txIn => ((view txIn).map CTxOut.nValue).getD 0).sum
      let outAll := (wtx.vout.map CTxOut.nValue).sum
      if strSender = [] then .ok (.error (-5))
      else do
        let payload ← extractPayload rules wtx nBlock
        .ok (.ok
          { sender := strSender
            reference := identifyReference strSender (rules.addressData code wtx nBlock)
            payload := payload
            encodingClass := rules.getEncodingClass wtx nBlock
            fee := inAll - outAll })

end TradeLayer
