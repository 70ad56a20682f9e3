import Mathlib.Data.List.TakeWhile
import TradeLayer.Dex

namespace TradeLayer
open Library

def PlainAddress (a : Address) : Prop := '-' ∉ a ∧ '+' ∉ a

variable {a b seller seller' buyer buyer' : Address} {p q : PropertyId}

theorem dash_not_mem_toDigits : '-' ∉ Nat.toDigits 10 p := by
  intro h
  have hdigit := Nat.isDigit_of_mem_toDigits (by decide) (by decide) h
  cases hdigit

theorem plus_not_mem_toDigits : '+' ∉ Nat.toDigits 10 p := by
  intro h
  have hdigit := Nat.isDigit_of_mem_toDigits (by decide) (by decide) h
  cases hdigit

theorem toDigits_inj : Nat.toDigits 10 p = Nat.toDigits 10 q ↔ p = q := by
  constructor
  · intro h
    rw [← Nat.ofDigitChars_toDigits (b := 10) (n := p) (by decide) (by decide), h]
    exact Nat.ofDigitChars_toDigits (by decide) (by decide)
  · rintro rfl
    rfl

theorem offerKey_inj (ha : PlainAddress a) :
    strSellofferAddrPropCombo a p = strSellofferAddrPropCombo b q ↔ a = b ∧ p = q := by
  rw [strSellofferAddrPropCombo, strSellofferAddrPropCombo,
    List.append_cons_inj_of_notMem ha.1 dash_not_mem_toDigits, toDigits_inj]
  tauto

def acceptPrefix (seller : Address) (p : PropertyId) : List Char :=
  seller ++ '-' :: (Nat.toDigits 10 p ++ ['+'])

theorem acceptKey_eq : strAcceptAddrPropAddrCombo seller buyer p =
    seller ++ '-' :: (Nat.toDigits 10 p ++ '+' :: buyer) := by
  simp [strAcceptAddrPropAddrCombo]

theorem acceptKey_inj (hseller : PlainAddress seller) (hbuyer : PlainAddress buyer) :
    strAcceptAddrPropAddrCombo seller buyer p = strAcceptAddrPropAddrCombo seller' buyer' q ↔
      seller = seller' ∧ p = q ∧ buyer = buyer' := by
  have hdash : '-' ∉ Nat.toDigits 10 p ++ '+' :: buyer := by
    simp [dash_not_mem_toDigits, hbuyer.1]
  rw [acceptKey_eq, acceptKey_eq, List.append_cons_inj_of_notMem hseller.1 hdash,
    List.append_cons_inj_of_notMem plus_not_mem_toDigits hbuyer.2, toDigits_inj]
  tauto

def onSeller (seller : Address) (p : PropertyId) (key : List Char) : Bool :=
  (acceptPrefix seller p).isPrefixOf key

theorem onSeller_acceptKey (hseller : PlainAddress seller) (hbuyer : PlainAddress buyer) :
    onSeller seller' q (strAcceptAddrPropAddrCombo seller buyer p) = true ↔
      seller = seller' ∧ p = q := by
  rw [onSeller, List.isPrefixOf_iff_prefix]
  constructor
  · rintro ⟨rest, hrest⟩
    have hkey : strAcceptAddrPropAddrCombo seller' rest q =
        strAcceptAddrPropAddrCombo seller buyer p := by
      rw [← hrest, acceptKey_eq, acceptPrefix]
      simp
    obtain ⟨hs, hp, -⟩ := (acceptKey_inj hseller hbuyer).mp hkey.symm
    exact ⟨hs, hp⟩
  · rintro ⟨rfl, rfl⟩
    refine ⟨buyer, ?_⟩
    rw [acceptKey_eq, acceptPrefix]
    simp

section Split

variable {sep : Char → Bool} {c : Char} {token rest : List Char}

theorem splitCompress_of_none (h : ∀ c ∈ token, sep c = false) :
    splitCompress sep token = [token] := by
  induction token with
  | nil => rfl
  | cons x token ih =>
    obtain ⟨hx, htoken⟩ := List.forall_mem_cons.mp h
    rw [splitCompress.eq_def]
    simp [hx, ih htoken]

theorem splitCompress_append (h : ∀ c ∈ token, sep c = false) (hc : sep c = true)
    (hrest : ∀ x, rest.head? = some x → sep x = false) :
    splitCompress sep (token ++ c :: rest) = token :: splitCompress sep rest := by
  induction token with
  | nil =>
    rw [List.nil_append, splitCompress.eq_def]
    cases rest with
    | nil => simp [hc]
    | cons x rest => simp [hc, hrest x rfl]
  | cons x token ih =>
    obtain ⟨hx, htoken⟩ := List.forall_mem_cons.mp h
    rw [List.cons_append, splitCompress.eq_def]
    simp [hx, ih htoken]

end Split

theorem head_isDigit_toDigits {x : Char} {rest : List Char}
    (h : (Nat.toDigits 10 p ++ rest).head? = some x) : x.isDigit = true := by
  cases hd : Nat.toDigits 10 p with
  | nil => exact absurd hd Nat.toDigits_ne_nil
  | cons y ys =>
    rw [hd] at h
    cases h
    exact Nat.isDigit_of_mem_toDigits (by decide) (by decide) (hd ▸ List.mem_cons_self)

theorem splitCompress_acceptKey (hseller : PlainAddress seller) (hbuyer : PlainAddress buyer) :
    splitCompress (fun c => c = '-' || c = '+') (strAcceptAddrPropAddrCombo seller buyer p) =
      [seller, Nat.toDigits 10 p, buyer] := by
  have hplain : ∀ {a : List Char}, '-' ∉ a → '+' ∉ a →
      ∀ c ∈ a, (decide (c = '-') || decide (c = '+')) = false := by
    intro a hdash hplus c hc
    have h₁ : c ≠ '-' := fun h => hdash (h ▸ hc)
    have h₂ : c ≠ '+' := fun h => hplus (h ▸ hc)
    simp [h₁, h₂]
  rw [acceptKey_eq, splitCompress_append (hplain hseller.1 hseller.2) rfl,
    splitCompress_append (hplain dash_not_mem_toDigits plus_not_mem_toDigits) rfl,
    splitCompress_of_none (hplain hbuyer.1 hbuyer.2)]
  · intro x hx
    have hmem : x ∈ buyer := List.mem_of_mem_head? hx
    exact hplain hbuyer.1 hbuyer.2 x hmem
  · intro x hx
    have hdigit := head_isDigit_toDigits hx
    have hdash : x ≠ '-' := by
      rintro rfl
      cases hdigit
    have hplus : x ≠ '+' := by
      rintro rfl
      cases hdigit
    simp [hdash, hplus]

theorem atoiUint32_toDigits (hp : p < 2 ^ 32) : atoiUint32 (Nat.toDigits 10 p) = p := by
  have hall : (Nat.toDigits 10 p).takeWhile Char.isDigit = Nat.toDigits 10 p := by
    apply List.takeWhile_eq_self_iff.mpr
    intro c hc
    exact Nat.isDigit_of_mem_toDigits (by decide) (by decide) hc
  have hvalue : digitsValue (Nat.toDigits 10 p) = p :=
    Nat.ofDigitChars_toDigits (by decide) (by decide)
  rw [atoiUint32, hall, hvalue, Nat.mod_eq_of_lt hp]

end TradeLayer
