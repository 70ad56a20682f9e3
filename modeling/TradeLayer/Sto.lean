import TradeLayer.Arith
import TradeLayer.State

namespace TradeLayer
open Library

/-- Owners with their amounts, ordered by amount and, among equal amounts, by descending
address. -/
abbrev OwnerAddrType := Keyed (fun e : Int × Address => toLex (e.1, OrderDual.toDual e.2))

def circulatingTallies : List TallyType :=
  [.balance, .sellOfferReserve, .acceptReserve, .metadexReserve]

def Account.Circulating (p : PropertyId) (k : Account) : Prop :=
  k.property = p ∧ k.ttype ∈ circulatingTallies

instance {p : PropertyId} : DecidablePred (Account.Circulating p) :=
  fun _ => inferInstanceAs (Decidable (_ ∧ _))

def Balanced (ps : List (Posting Account)) : Prop :=
  ∀ p, Posting.net (Account.Circulating p) ps = 0

namespace Balanced

variable {ps qs : List (Posting Account)}

theorem nil : Balanced [] := fun _ => rfl

theorem append (hps : Balanced ps) (hqs : Balanced qs) : Balanced (ps ++ qs) := by
  intro p
  rw [Posting.net_append, hps p, hqs p, add_zero]

theorem transfer {a b : Address} {p : PropertyId} {t u : TallyType} {n : Int}
    (ht : t ∈ circulatingTallies) (hu : u ∈ circulatingTallies) :
    Balanced (Posting.transfer ⟨a, p, t⟩ ⟨b, p, u⟩ n) :=
  fun _ => Posting.net_transfer (by simp only [Account.Circulating, ht, hu])

end Balanced

structure Moves (ps : List (Posting Account)) : Prop where
  balanced : Balanced ps
  inside : ∀ x ∈ ps, x.account.ttype ∈ circulatingTallies

namespace Moves

variable {ps qs : List (Posting Account)}

theorem nil : Moves [] := ⟨.nil, fun _ hx => absurd hx List.not_mem_nil⟩

theorem append (hps : Moves ps) (hqs : Moves qs) : Moves (ps ++ qs) :=
  ⟨hps.balanced.append hqs.balanced, List.forall_mem_append.mpr ⟨hps.inside, hqs.inside⟩⟩

theorem transfer {a b : Address} {p : PropertyId} {t u : TallyType} {n : Int}
    (ht : t ∈ circulatingTallies) (hu : u ∈ circulatingTallies) :
    Moves (Posting.transfer ⟨a, p, t⟩ ⟨b, p, u⟩ n) := by
  refine ⟨.transfer ht hu, ?_⟩
  simp only [Posting.transfer, List.forall_mem_cons, List.not_mem_nil, false_imp_iff,
    implies_true, and_true]
  exact ⟨ht, hu⟩

theorem ite {P : Prop} [Decidable P] (h : Moves ps) : Moves (if P then ps else []) := by
  split_ifs
  · exact h
  · exact nil

end Moves

def addTokens (tally : Tally) (property : PropertyId) (tokens : Int) : Except Abort Int :=
  circulatingTallies.foldlM (fun tokens t => checked64 (tokens + tally.getMoney property t)) tokens

/-- The first loop of `stoGetReceivers`: what everyone but the sender holds, and the holders. -/
def collectOwners (sender : Address) (property : PropertyId) :
    List (Address × Tally) → Int → OwnerAddrType → Except Abort (Int × OwnerAddrType)
  | [], totalTokens, ownerAddrSet => .ok (totalTokens, ownerAddrSet)
  | (address, tally) :: rest, totalTokens, ownerAddrSet => do
    let tokens ← addTokens tally property 0
    if address = sender then collectOwners sender property rest totalTokens ownerAddrSet
    else do
      let totalTokens ← checked64 (totalTokens + tokens)
      collectOwners sender property rest totalTokens
        (if 0 < tokens then ownerAddrSet.insert (tokens, address) else ownerAddrSet)

/-- The second loop: the pieces, rounded up, until the whole amount is allocated. -/
def splitAmount (amount totalTokens : Int) :
    List (Int × Address) → Int → OwnerAddrType → Except Abort OwnerAddrType
  | [], _, receiversSet => .ok receiversSet
  | (tokens, address) :: rest, sentSoFar, receiversSet => do
    let owns ← convertTo256 tokens
    let amount256 ← convertTo256 amount
    let total256 ← convertTo256 totalTokens
    let piece ← divideAndRoundUp (owns * amount256) total256
    let shouldReceive ← convertTo64 piece
    let willReallyReceive := min (amount - sentSoFar) shouldReceive
    if 0 < willReallyReceive then
      splitAmount amount totalTokens rest (sentSoFar + willReallyReceive)
        (receiversSet.insert (willReallyReceive, address))
    else .ok receiversSet

def stoGetReceivers (l : Ledger) (sender : Address) (property : PropertyId) (amount : Int) :
    Except Abort OwnerAddrType := do
  let (totalTokens, ownerAddrSet) ← collectOwners sender property l.mpTallyMap.toList 0 ∅
  splitAmount amount totalTokens ownerAddrSet.toList.reverse 0 ∅

def OwnerAddrType.total (receivers : OwnerAddrType) : Int := receivers.sum Prod.fst

theorem splitAmount_pos {amount total sent : Int} {owners : List (Int × Address)}
    {acc receivers : OwnerAddrType} (h : splitAmount amount total owners sent acc = .ok receivers)
    (hacc : ∀ r ∈ acc, 0 < r.1) : ∀ r ∈ receivers, 0 < r.1 := by
  induction owners generalizing sent acc with
  | nil =>
    cases h
    exact hacc
  | cons owner owners ih =>
    simp only [splitAmount, bind_eq_ok] at h
    obtain ⟨-, -, -, -, -, -, piece, -, should, -, h⟩ := h
    split_ifs at h with hw
    · refine ih h fun r hr => ?_
      rcases Keyed.mem_insert.mp hr with hr | ⟨rfl, -⟩
      · exact hacc r hr
      · exact hw
    · cases h
      exact hacc

theorem stoGetReceivers_pos {l : Ledger} {sender : Address} {p : PropertyId} {amount : Int}
    {receivers : OwnerAddrType} (h : stoGetReceivers l sender p amount = .ok receivers) :
    ∀ r ∈ receivers, 0 < r.1 := by
  rw [stoGetReceivers, bind_eq_ok] at h
  obtain ⟨⟨total, owners⟩, -, h⟩ := h
  exact splitAmount_pos h (by simp)

end TradeLayer
