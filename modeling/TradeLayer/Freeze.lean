import TradeLayer.Basic
import TradeLayer.Library.Keyed

namespace TradeLayer
open Library

/-- The two sets of the freezing feature: the properties with the heights from which freezing
is enabled, and the frozen addresses with their property. -/
structure FreezeState where
  setFreezingEnabledProperties : Keyed (fun e : PropertyId × Int => toLex e)
  setFrozenAddresses : Keyed (fun e : Address × PropertyId => toLex e)
  deriving DecidableEq

namespace FreezeState

variable {s : FreezeState} {p : PropertyId} {a : Address} {b liveBlock : Int}

def clear : FreezeState := ⟨∅, ∅⟩

def isFreezingEnabled (s : FreezeState) (propertyId : PropertyId) (block : Int) : Bool :=
  s.setFreezingEnabledProperties.toList.any fun e => propertyId = e.1 && e.2 ≤ block

def isAddressFrozen (s : FreezeState) (address : Address) (propertyId : PropertyId) : Bool :=
  s.setFrozenAddresses.contains (toLex (address, propertyId))

theorem isFreezingEnabled_iff : s.isFreezingEnabled p b = true ↔
    ∃ e ∈ s.setFreezingEnabledProperties, e.1 = p ∧ e.2 ≤ b := by
  simp only [isFreezingEnabled, List.any_eq_true, Bool.and_eq_true, decide_eq_true_eq,
    Keyed.mem_def, eq_comm (a := p)]

theorem isAddressFrozen_iff : s.isAddressFrozen a p = true ↔ (a, p) ∈ s.setFrozenAddresses := by
  rw [isAddressFrozen, Keyed.contains_eq_true]
  constructor
  · rintro ⟨e, he, hk⟩
    have heq : e = (a, p) := toLex.injective hk
    rwa [heq] at he
  · intro h
    exact ⟨(a, p), h, rfl⟩

def enableFreezing (s : FreezeState) (propertyId : PropertyId) (liveBlock : Int) :
    Except Abort FreezeState :=
  let s := { s with setFreezingEnabledProperties :=
    s.setFreezingEnabledProperties.insert (propertyId, liveBlock) }
  if s.isFreezingEnabled propertyId liveBlock then .ok s else .error .assertion

/-- The height of the last entry of a property, zero when it has none. -/
def lastLiveBlock (s : FreezeState) (propertyId : PropertyId) : Int :=
  s.setFreezingEnabledProperties.toList.foldl
    (fun liveBlock e => if propertyId = e.1 then e.2 else liveBlock) 0

/-- The loop of `disableFreezing` over the elements from the iterator on. After an erasure the
iterator stands on the next element, which the assertion then reads. -/
def unfreezeLoop (propertyId : PropertyId) (s : FreezeState) :
    List (Address × PropertyId) → Except Abort FreezeState
  | [] => .ok s
  | e :: rest =>
    if e.2 = propertyId then
      let s := { s with setFrozenAddresses := s.setFrozenAddresses.erase (toLex e) }
      match rest with
      -- the iterator is at the end of the set and is dereferenced
      | [] => .error .undefined
      | next :: _ =>
        if s.isAddressFrozen next.1 next.2 then .error .assertion
        else unfreezeLoop propertyId s rest
    else unfreezeLoop propertyId s rest

def disableFreezing (s : FreezeState) (propertyId : PropertyId) : Except Abort FreezeState :=
  let liveBlock := s.lastLiveBlock propertyId
  if 0 < liveBlock then do
    let s := { s with setFreezingEnabledProperties :=
      s.setFreezingEnabledProperties.erase (toLex (propertyId, liveBlock)) }
    let s ← unfreezeLoop propertyId s s.setFrozenAddresses.toList
    if s.isFreezingEnabled propertyId liveBlock then .error .assertion else .ok s
  else .error .assertion

def freezeAddress (s : FreezeState) (address : Address) (propertyId : PropertyId) :
    Except Abort FreezeState :=
  let s := { s with setFrozenAddresses := s.setFrozenAddresses.insert (address, propertyId) }
  if s.isAddressFrozen address propertyId then .ok s else .error .assertion

def unfreezeAddress (s : FreezeState) (address : Address) (propertyId : PropertyId) :
    Except Abort FreezeState :=
  let s := { s with
    setFrozenAddresses := s.setFrozenAddresses.erase (toLex (address, propertyId)) }
  if s.isAddressFrozen address propertyId then .error .assertion else .ok s

theorem enableFreezing_eq : s.enableFreezing p liveBlock = .ok { s with
    setFreezingEnabledProperties := s.setFreezingEnabledProperties.insert (p, liveBlock) } := by
  rw [enableFreezing, if_pos]
  rw [isFreezingEnabled_iff]
  exact ⟨(p, liveBlock), Keyed.mem_insert_self toLex.injective, rfl, le_refl _⟩

theorem freezeAddress_eq : s.freezeAddress a p = .ok { s with
    setFrozenAddresses := s.setFrozenAddresses.insert (a, p) } := by
  rw [freezeAddress, if_pos]
  rw [isAddressFrozen_iff]
  exact Keyed.mem_insert_self toLex.injective

theorem unfreezeAddress_eq : s.unfreezeAddress a p = .ok { s with
    setFrozenAddresses := s.setFrozenAddresses.erase (toLex (a, p)) } := by
  rw [unfreezeAddress, if_neg]
  simp [isAddressFrozen_iff]

end FreezeState

end TradeLayer
