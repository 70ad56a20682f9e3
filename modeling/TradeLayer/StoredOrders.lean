import TradeLayer.MemoryFiles

namespace TradeLayer
open Library

section Hashes

variable {n : Nat} {c : Char}

theorem hexDigitValue_digitChar {d : Nat} (hd : d < 16) :
    hexDigitValue (Nat.digitChar d) = d := by
  have hall : ∀ d < 16, hexDigitValue (Nat.digitChar d) = d := by decide
  exact hall d hd

theorem isHexDigit_digitChar {d : Nat} (hd : d < 16) : isHexDigit (Nat.digitChar d) = true := by
  have hall : ∀ d < 16, isHexDigit (Nat.digitChar d) = true := by decide
  exact hall d hd

theorem isHexDigit_of_mem_toDigits (h : c ∈ Nat.toDigits 16 n) : isHexDigit c = true := by
  induction n using Nat.strong_induction_on with
  | _ n ih =>
    rw [Nat.toDigits_eq_if (by decide)] at h
    split_ifs at h with hn
    · rw [List.mem_singleton.mp h]
      exact isHexDigit_digitChar hn
    · rcases List.mem_append.mp h with h | h
      · exact ih (n / 16) (Nat.div_lt_self (by omega) (by decide)) h
      · rw [List.mem_singleton.mp h]
        exact isHexDigit_digitChar (Nat.mod_lt _ (by decide))

theorem isHexDigit_of_mem_hexText (h : c ∈ hexText n) : isHexDigit c = true := by
  rcases List.mem_append.mp h with h | h
  · rw [List.eq_of_mem_replicate h]
    decide
  · exact isHexDigit_of_mem_toDigits h

theorem foldl_toDigits : (Nat.toDigits 16 n).foldl (fun n c => 16 * n + hexDigitValue c) 0 = n := by
  induction n using Nat.strong_induction_on with
  | _ n ih =>
    rw [Nat.toDigits_eq_if (by decide)]
    split_ifs with hn
    · rw [List.foldl_cons, List.foldl_nil, hexDigitValue_digitChar hn]
      omega
    · rw [List.foldl_append, ih (n / 16) (Nat.div_lt_self (by omega) (by decide)),
        List.foldl_cons, List.foldl_nil, hexDigitValue_digitChar (Nat.mod_lt _ (by decide))]
      omega

theorem foldl_zeros {k : Nat} :
    (List.replicate k '0').foldl (fun n c => 16 * n + hexDigitValue c) 0 = 0 := by
  induction k with
  | zero => rfl
  | succ k ih => exact ih

theorem not_isWhitespace_of_isHexDigit (h : isHexDigit c = true) : c.isWhitespace = false := by
  rw [Bool.eq_false_iff]
  intro hspace
  simp only [Char.isWhitespace, Bool.or_eq_true, decide_eq_true_eq] at hspace
  rcases hspace with ((rfl | rfl) | rfl) | rfl <;> exact absurd h (by decide)

theorem uint256S_of_digits {text : List Char} (h : ∀ c ∈ text, isHexDigit c = true) :
    uint256S text = text.foldl (fun n c => 16 * n + hexDigitValue c) 0 % 2 ^ 256 := by
  have hspace : text.dropWhile Char.isWhitespace = text := by
    cases text with
    | nil => rfl
    | cons c text =>
      rw [List.dropWhile_cons_of_neg]
      rw [not_isWhitespace_of_isHexDigit (h c List.mem_cons_self)]
      decide
  have hx : ∀ c ∈ text, c ≠ 'x' ∧ c ≠ 'X' := by
    intro c hc
    constructor
    · rintro rfl
      exact absurd (h _ hc) (by decide)
    · rintro rfl
      exact absurd (h _ hc) (by decide)
  unfold uint256S
  rw [hspace]
  split
  case h_1 digits =>
    exact absurd rfl (hx 'x' (by simp)).1
  case h_2 digits =>
    exact absurd rfl (hx 'X' (by simp)).2
  case h_3 =>
    dsimp only
    rw [List.takeWhile_eq_self_iff.mpr h]

theorem uint256S_hexText (h : n < 2 ^ 256) : uint256S (hexText n) = n := by
  rw [uint256S_of_digits fun c => isHexDigit_of_mem_hexText, hexText, List.foldl_append,
    foldl_zeros, foldl_toDigits, Nat.mod_eq_of_lt h]

end Hashes

theorem lexicalCastUInt64_toDigits {n : Nat} (h : n < 2 ^ 64) :
    lexicalCastUInt64 (Nat.toDigits 10 n) = .ok n := by
  rw [lexicalCastUInt64, readUnsigned_toDigits h]

structure MetaDEx.Storable (o : MetaDEx) : Prop where
  addr : EncodedAddress o.addr
  block : -2 ^ 31 ≤ o.block ∧ o.block < 2 ^ 31
  amountForSale : -2 ^ 63 ≤ o.amountForSale ∧ o.amountForSale < 2 ^ 63
  property : o.property < 2 ^ 32
  amountDesired : -2 ^ 63 ≤ o.amountDesired ∧ o.amountDesired < 2 ^ 63
  desProperty : o.desProperty < 2 ^ 32
  idx : o.idx < 2 ^ 32
  txid : o.txid < 2 ^ 256
  amountRemaining : -2 ^ 63 ≤ o.amountRemaining ∧ o.amountRemaining < 2 ^ 63

structure ContractDex.Storable (o : ContractDex) : Prop where
  addr : EncodedAddress o.addr
  block : -2 ^ 31 ≤ o.block ∧ o.block < 2 ^ 31
  amountForSale : -2 ^ 63 ≤ o.amountForSale ∧ o.amountForSale < 2 ^ 63
  property : o.property < 2 ^ 32
  idx : o.idx < 2 ^ 32
  txid : o.txid < 2 ^ 256
  effectivePrice : o.effectivePrice < 2 ^ 64
  tradingAction : o.tradingAction < 2 ^ 8

namespace MemoryState

variable {t : MemoryState}

def fileOrder (t : MemoryState) (o : MetaDEx) : MemoryState :=
  { t with node.metadex := Book.file t.node.metadex o.property o.unitPrice o }

def fileContract (remaining : ContractDex → Int) (t : MemoryState) (o : ContractDex) :
    MemoryState :=
  { t with
    node.contractdex := Book.file t.node.contractdex o.property o.effectivePrice o
    contractRemaining := Function.update t.contractRemaining o (remaining o) }

theorem inputMpMdexorderString_saveOffer {o : MetaDEx} (ho : o.Storable)
    (hnew : (Book.level t.node.metadex o.property o.unitPrice).find? o.position = none) :
    inputMpMdexorderString t o.saveOffer = .ok (0, t.fileOrder o) := by
  have hsplit : splitAny separates o.saveOffer = _ :=
    splitAny_fieldLine (List.cons_ne_nil _ _) (by
      simp [ho.addr.fieldText, fieldText_integerText, fieldText_toDigits, fieldText_hexText])
  have hinsert : t.node.metaDExInsert o = (true, (t.fileOrder o).node) := by
    rw [NodeState.metaDExInsert, Keyed.contains, hnew]
    rfl
  have hsubaction : lexicalCastUInt32 (Nat.toDigits 10 subactionAdd) = .ok subactionAdd :=
    lexicalCastUInt32_toDigits (by decide)
  simp only [inputMpMdexorderString, hsplit, List.length_cons, List.length_nil, fieldAt,
    List.getElem?_cons_zero, List.getElem?_cons_succ, ok_bind, ne_eq, not_true_eq_false, if_false,
    lexicalCastInt32_integerText ho.block.1 ho.block.2, hsubaction,
    lexicalCastInt64_integerText_of_range ho.amountForSale.1 ho.amountForSale.2,
    lexicalCastInt64_integerText_of_range ho.amountDesired.1 ho.amountDesired.2,
    lexicalCastInt64_integerText_of_range ho.amountRemaining.1 ho.amountRemaining.2,
    lexicalCastUInt32_toDigits ho.property, lexicalCastUInt32_toDigits ho.desProperty,
    lexicalCastUInt32_toDigits ho.idx, uint256S_hexText ho.txid, hinsert, pure_eq_ok]
  rfl

theorem inputMpContractdexorderString_saveOffer {o : ContractDex}
    {remaining : ContractDex → Int} (ho : o.Storable)
    (hremaining : -2 ^ 63 ≤ remaining o ∧ remaining o < 2 ^ 63)
    (hnew : (Book.level t.node.contractdex o.property o.effectivePrice).find? o.position = none) :
    inputMpContractdexorderString t (o.saveOffer (remaining o)) =
      .ok (0, t.fileContract remaining o) := by
  have hzero : FieldText ['0'] := fieldText_toDigits (n := 0)
  have hsplit : splitAny separates (o.saveOffer (remaining o)) = _ :=
    splitAny_fieldLine (List.cons_ne_nil _ _) (by
      simp [ho.addr.fieldText, hzero, fieldText_integerText, fieldText_toDigits, fieldText_hexText])
  have hinsert : t.node.contractDexInsert o = (true, (t.fileContract remaining o).node) := by
    rw [NodeState.contractDexInsert, Keyed.contains, hnew]
    rfl
  have hsubaction : lexicalCastUInt32 (Nat.toDigits 10 subactionAdd) = .ok subactionAdd :=
    lexicalCastUInt32_toDigits (by decide)
  have hdesired : lexicalCastInt64 (integerText 0) = .ok 0 :=
    lexicalCastInt64_integerText_of_range (by decide) (by decide)
  have hdesProperty : lexicalCastUInt32 (Nat.toDigits 10 0) = .ok 0 :=
    lexicalCastUInt32_toDigits (by decide)
  have haction : o.tradingAction < 2 ^ 32 := ho.tradingAction.trans (by decide)
  simp only [inputMpContractdexorderString, hsplit, List.length_cons, List.length_nil, fieldAt,
    List.getElem?_cons_zero, List.getElem?_cons_succ, ok_bind, ne_eq, not_true_eq_false, if_false,
    lexicalCastInt32_integerText ho.block.1 ho.block.2, hsubaction, hdesired, hdesProperty,
    lexicalCastInt64_integerText_of_range ho.amountForSale.1 ho.amountForSale.2,
    lexicalCastInt64_integerText_of_range hremaining.1 hremaining.2,
    lexicalCastUInt32_toDigits ho.property, lexicalCastUInt32_toDigits ho.idx,
    uint256S_hexText ho.txid, lexicalCastUInt64_toDigits ho.effectivePrice,
    lexicalCastUInt32_toDigits haction, Nat.mod_eq_of_lt ho.tradingAction, hinsert, pure_eq_ok]
  rfl

end MemoryState

end TradeLayer
