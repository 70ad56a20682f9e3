import TradeLayer.Ledger
import TradeLayer.Library.Text

namespace TradeLayer
open Library

/-- The ways in which the loading of a state file ends without a result. -/
inductive RestoreError
  | badLexicalCast
  | abort (e : Abort)
  deriving DecidableEq, Repr

namespace Tally

def savedTypes : List TallyType :=
  [.balance, .sellOfferReserve, .acceptReserve, .metadexReserve]

/-- The properties that a walk through a tally comes by. The walk ends at property zero. -/
def walked (t : Tally) : List PropertyId :=
  (t.toList.map Prod.fst).takeWhile (· ≠ 0)

def savedProperties (t : Tally) : List PropertyId :=
  t.walked.filter fun p => savedTypes.any fun ty => t.getMoney p ty ≠ 0

def balanceData (t : Tally) (p : PropertyId) : List Char :=
  integerText (t.getMoney p .balance) ++ ',' :: (integerText (t.getMoney p .sellOfferReserve) ++
    ',' :: (integerText (t.getMoney p .acceptReserve) ++
      ',' :: integerText (t.getMoney p .metadexReserve)))

def propertyData (t : Tally) (p : PropertyId) : List Char :=
  Nat.toDigits 10 p ++ ':' :: t.balanceData p

def propertiesData (t : Tally) (ps : List PropertyId) : List Char :=
  ps.flatMap fun p => t.propertyData p ++ [';']

end Tally

def balanceLine (e : Address × Tally) : Option (List Char) :=
  if e.2.savedProperties = [] then none
  else some (e.1 ++ '=' :: e.2.propertiesData e.2.savedProperties)

def writeMscBalances (tallies : List (Address × Tally)) : List (List Char) :=
  tallies.filterMap balanceLine

def stateFile (hash : List Char → List Char) (lines : List (List Char)) : List (List Char) :=
  lines ++ ['!' :: hash lines.flatten]

def lexicalCastUInt32 (text : List Char) : Except RestoreError Nat :=
  match readUnsigned 32 text with
  | some n => .ok n
  | none => .error .badLexicalCast

def lexicalCastInt64 (text : List Char) : Except RestoreError Int :=
  match readSigned 64 text with
  | some n => .ok n
  | none => .error .badLexicalCast

namespace Ledger

/-- An amount of a line, whose update is made without looking at its result. -/
def restoreTally (l : Ledger) (x : Posting Account) : Except RestoreError Ledger :=
  if x.amount ≠ 0 then
    match l.updateTallyMap x.account.owner x.account.property x.amount x.account.ttype with
    | .ok (_, l) => .ok l
    | .error e => .error (.abort e)
  else .ok l

/-- One property of a line, or nothing when it is not well formed. -/
def inputProperty (l : Ledger) (strAddress : Address) (token : List Char) :
    Except RestoreError (Option Ledger) :=
  match splitAny (· = ':') token with
  | [id, data] =>
    match splitAny (· = ',') data with
    | [balance, sellReserved, acceptReserved, metadexReserved] => do
      let propertyId ← lexicalCastUInt32 id
      let balance ← lexicalCastInt64 balance
      let sellReserved ← lexicalCastInt64 sellReserved
      let acceptReserved ← lexicalCastInt64 acceptReserved
      let metadexReserved ← lexicalCastInt64 metadexReserved
      let l ← l.restoreTally ⟨⟨strAddress, propertyId, .balance⟩, balance⟩
      let l ← l.restoreTally ⟨⟨strAddress, propertyId, .sellOfferReserve⟩, sellReserved⟩
      let l ← l.restoreTally ⟨⟨strAddress, propertyId, .acceptReserve⟩, acceptReserved⟩
      let l ← l.restoreTally ⟨⟨strAddress, propertyId, .metadexReserve⟩, metadexReserved⟩
      return some l
    | _ => .ok none
  | _ => .ok none

def inputProperties (strAddress : Address) :
    List (List Char) → Ledger → Except RestoreError (Int × Ledger)
  | [], l => .ok (0, l)
  | token :: vProperties, l =>
    if token = [] then inputProperties strAddress vProperties l
    else do
      match ← l.inputProperty strAddress token with
      | none => return (-1, l)
      | some l => inputProperties strAddress vProperties l

def inputMscBalancesString (l : Ledger) (s : List Char) : Except RestoreError (Int × Ledger) :=
  match splitAny (· = '=') s with
  | [strAddress, properties] =>
    inputProperties strAddress (splitAny (· = ';') properties) l
  | _ => .ok (-1, l)

/-- The loop over the lines: the result, the lines that were hashed, the hash in the file and the
balances. -/
def restoreLines : List (List Char) → List Char → List Char → Ledger →
    Except RestoreError (Int × List Char × List Char × Ledger)
  | [], hashed, fileHash, l => .ok (0, hashed, fileHash, l)
  | line :: lines, hashed, fileHash, l =>
    if line = [] ∨ line.head? = some '#' then restoreLines lines hashed fileHash l
    else
      let line := line.filter (· ≠ '\r')
      if line.head? = some '!' then restoreLines lines hashed line.tail l
      else do
        let (res, l) ← l.inputMscBalancesString line
        if res < 0 then return (-1, hashed ++ line, fileHash, l)
        else restoreLines lines (hashed ++ line) fileHash l

def restoreInMemoryState (l : Ledger) (hash : List Char → List Char) (verifyHash : Bool)
    (file : List (List Char)) : Except RestoreError (Int × Ledger) := do
  let (res, hashed, fileHash, l) ← restoreLines file [] [] { l with mpTallyMap := ∅ }
  if verifyHash ∧ res = 0 ∧ (hash hashed).map Char.toLower ≠ fileHash.map Char.toLower then
    return (-1, l)
  else return (res, l)

end Ledger

end TradeLayer
