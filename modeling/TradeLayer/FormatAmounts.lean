import Mathlib.Data.List.DropRight
import TradeLayer.Arith
import TradeLayer.Persistence

namespace TradeLayer
open Library

/-- An amount in whole coins and eight decimals, without a sign. -/
def formatCoins (n : Int) : List Char :=
  Nat.toDigits 10 (n.natAbs / coin) ++ '.' :: paddedDigits 8 (n.natAbs % coin)

def formatDivisibleShortMP (n : Int) : List Char :=
  let str := (formatCoins n).rdropWhile (· = '0')
  -- a dot at the end goes with the zeros after it
  if str.getLast? = some '.' then str.dropLast else str

def formatDivisibleMP (n : Int) (fSign : Bool) : List Char :=
  if !fSign then formatCoins n
  else if n < 0 then '-' :: formatCoins n
  else '+' :: formatCoins n

def formatIndivisibleMP (n : Int) : List Char :=
  integerText n

/-- Eight decimals behind the dot at a place: zeros are added and what is too much is cut off. -/
def eightDecimals (str : List Char) (pos : Nat) : List Char :=
  if str.length - pos < 9 then
    str ++ List.replicate (8 - (str.drop (pos + 1)).length) '0'
  else str.take (pos + 9)

/-- The amount a text stands for, zero where it stands for none. -/
def strToInt64 (str : List Char) (divisible : Bool) : Int :=
  if '-' ∈ str then 0
  else if divisible then
    let pos := str.idxOf '.'
    if '.' ∉ str then
      (lexicalCastInt64 ((str ++ List.replicate 8 '0').filter (· ≠ '.'))).toOption.getD 0
    -- a second dot
    else if '.' ∈ str.drop (pos + 1) then 0
    else (lexicalCastInt64 ((eightDecimals str pos).filter (· ≠ '.'))).toOption.getD 0
  else (lexicalCastInt64 (str.takeWhile (· ≠ '.'))).toOption.getD 0

section Digits

variable {l m text : List Char}

theorem ne_of_isDigit {c : Char} (h : c.isDigit = true) : c ≠ '.' ∧ c ≠ '-' := by
  constructor
  · rintro rfl
    exact absurd h (by decide)
  · rintro rfl
    exact absurd h (by decide)

theorem isDigit_of_mem_zeros {c : Char} {k : Nat} (h : c ∈ List.replicate k '0') :
    c.isDigit = true := by
  rw [List.eq_of_mem_replicate h]
  rfl

theorem filter_digits (h : ∀ c ∈ l, c.isDigit = true) : l.filter (· ≠ '.') = l := by
  rw [List.filter_eq_self]
  intro c hc
  simpa using (ne_of_isDigit (h c hc)).1

theorem lexicalCastInt64_digits (hne : text ≠ []) (h : ∀ c ∈ text, c.isDigit = true)
    (hmax : Nat.ofDigitChars 10 text 0 < 2 ^ 63) :
    (lexicalCastInt64 text).toOption.getD 0 = Nat.ofDigitChars 10 text 0 := by
  have hsign : readSign text = (false, text) := by
    rw [readSign.eq_def]
    split
    · exact absurd (h '-' List.mem_cons_self) (by decide)
    · exact absurd (h '+' List.mem_cons_self) (by decide)
    · rfl
  have hread : readSigned 64 text = some (Nat.ofDigitChars 10 text 0 : Int) := by
    have hall : text.all Char.isDigit = true := List.all_eq_true.mpr h
    rw [readSigned, hsign, readDigits, if_pos ⟨hne, hall⟩, Option.bind_some]
    exact if_pos hmax
  rw [lexicalCastInt64, hread]
  rfl

theorem ofDigitChars_append_zero : Nat.ofDigitChars 10 (l ++ m) 0 =
    Nat.ofDigitChars 10 l 0 * 10 ^ m.length + Nat.ofDigitChars 10 m 0 := by
  rw [Nat.ofDigitChars_append, Nat.ofDigitChars_eq_ofDigitChars_zero, Nat.mul_comm]

end Digits

section Reading

variable {whole decimals : List Char}

theorem strToInt64_whole (hwhole : ∀ c ∈ whole, c.isDigit = true)
    (hmax : Nat.ofDigitChars 10 (whole ++ List.replicate 8 '0') 0 < 2 ^ 63) :
    strToInt64 whole true = Nat.ofDigitChars 10 (whole ++ List.replicate 8 '0') 0 := by
  have hminus : '-' ∉ whole := fun hmem => (ne_of_isDigit (hwhole _ hmem)).2 rfl
  have hdot : '.' ∉ whole := fun hmem => (ne_of_isDigit (hwhole _ hmem)).1 rfl
  have hdigits : ∀ c ∈ whole ++ List.replicate 8 '0', c.isDigit = true := by
    rw [List.forall_mem_append]
    exact ⟨hwhole, fun _ => isDigit_of_mem_zeros⟩
  rw [strToInt64, if_neg hminus, if_pos rfl]
  dsimp only
  rw [if_pos hdot, filter_digits hdigits]
  exact lexicalCastInt64_digits (by simp) hdigits hmax

theorem strToInt64_decimals (k : Nat) (hwhole : ∀ c ∈ whole, c.isDigit = true)
    (hdecimals : ∀ c ∈ decimals, c.isDigit = true) (hlen : decimals.length + k = 8)
    (hmax : Nat.ofDigitChars 10 (whole ++ (decimals ++ List.replicate k '0')) 0 < 2 ^ 63) :
    strToInt64 (whole ++ '.' :: decimals) true =
      Nat.ofDigitChars 10 (whole ++ (decimals ++ List.replicate k '0')) 0 := by
  have hdot : '.' ∉ whole := fun hmem => (ne_of_isDigit (hwhole _ hmem)).1 rfl
  have hdot' : '.' ∉ decimals := fun hmem => (ne_of_isDigit (hdecimals _ hmem)).1 rfl
  have hminus : '-' ∉ whole ++ '.' :: decimals := by
    intro hmem
    rcases List.mem_append.mp hmem with hmem | hmem
    · exact (ne_of_isDigit (hwhole _ hmem)).2 rfl
    · rcases List.mem_cons.mp hmem with hmem | hmem
      · exact absurd hmem (by decide)
      · exact (ne_of_isDigit (hdecimals _ hmem)).2 rfl
  have hpos : (whole ++ '.' :: decimals).idxOf '.' = whole.length := by
    rw [List.idxOf_append_of_notMem hdot, List.idxOf_cons_self, Nat.add_zero]
  have hdrop : (whole ++ '.' :: decimals).drop (whole.length + 1) = decimals := by
    simp
  have height : eightDecimals (whole ++ '.' :: decimals) whole.length =
      whole ++ '.' :: (decimals ++ List.replicate k '0') := by
    rw [eightDecimals, hdrop]
    split_ifs with hshort
    · have hk : 8 - decimals.length = k := by omega
      rw [hk, List.append_assoc, List.cons_append]
    · have hlength : (whole ++ '.' :: decimals).length = whole.length + decimals.length + 1 := by
        simp [Nat.add_assoc]
      have hk : k = 0 := by omega
      rw [hk, List.replicate_zero, List.append_nil, List.take_of_length_le (by omega)]
  have hdigits : ∀ c ∈ whole ++ (decimals ++ List.replicate k '0'), c.isDigit = true := by
    rw [List.forall_mem_append, List.forall_mem_append]
    exact ⟨hwhole, hdecimals, fun _ => isDigit_of_mem_zeros⟩
  rw [strToInt64, if_neg hminus, if_pos rfl]
  dsimp only
  rw [hpos, if_neg (by simp), hdrop, if_neg hdot', height]
  have hfilter : (whole ++ '.' :: (decimals ++ List.replicate k '0')).filter (· ≠ '.') =
      whole ++ (decimals ++ List.replicate k '0') := by
    rw [← filter_digits hdigits, List.filter_append, List.filter_append,
      List.filter_cons_of_neg (by simp)]
  rw [hfilter]
  refine lexicalCastInt64_digits ?_ hdigits hmax
  intro hnil
  have hzero := congrArg List.length hnil
  rw [List.length_append, List.length_append, List.length_replicate, List.length_nil] at hzero
  omega

end Reading

section RoundTrip

variable {n : Int}

def coinDigits (n : Int) : List Char :=
  Nat.toDigits 10 (n.natAbs / coin) ++ paddedDigits 8 (n.natAbs % coin)

theorem length_decimals : (paddedDigits 8 (n.natAbs % coin)).length = 8 :=
  length_paddedDigits (by decide) (Nat.mod_lt _ (by decide))

theorem ofDigitChars_coinDigits (hn : 0 ≤ n) :
    (Nat.ofDigitChars 10 (coinDigits n) 0 : Int) = n := by
  have hcoin : (10 : Nat) ^ 8 = coin := rfl
  rw [coinDigits, ofDigitChars_append_zero, length_decimals, Nat.ofDigitChars_ten_toDigits,
    ofDigitChars_paddedDigits, hcoin, Nat.div_add_mod']
  omega

theorem ofDigitChars_coinDigits_lt (hn : 0 ≤ n) (hmax : n ≤ int64Max) :
    Nat.ofDigitChars 10 (coinDigits n) 0 < 2 ^ 63 := by
  have hvalue := ofDigitChars_coinDigits hn
  rw [int64Max] at hmax
  omega

theorem rdropWhile_formatCoins : (formatCoins n).rdropWhile (· = '0') =
    Nat.toDigits 10 (n.natAbs / coin) ++
      '.' :: (paddedDigits 8 (n.natAbs % coin)).rdropWhile (· = '0') := by
  rw [formatCoins]
  generalize paddedDigits 8 (n.natAbs % coin) = decimals
  induction decimals using List.reverseRecOn with
  | nil => exact List.rdropWhile_concat_neg _ _ _ (by decide)
  | append_singleton decimals c ih =>
    rw [← List.cons_append, ← List.append_assoc, List.rdropWhile_concat, List.rdropWhile_concat]
    split_ifs
    · exact ih
    · rw [List.append_assoc, List.cons_append]

theorem exists_zeros (decimals : List Char) :
    ∃ k, decimals = decimals.rdropWhile (· = '0') ++ List.replicate k '0' := by
  refine ⟨(decimals.rtakeWhile (· = '0')).length, ?_⟩
  have hzeros : decimals.rtakeWhile (· = '0') =
      List.replicate (decimals.rtakeWhile (· = '0')).length '0' := by
    rw [List.eq_replicate_iff]
    refine ⟨rfl, ?_⟩
    intro c hc
    simpa using List.mem_rtakeWhile_imp hc
  rw [← hzeros, List.rdropWhile_append_rtakeWhile]

theorem strToInt64_formatDivisibleMP (hn : 0 ≤ n) (hmax : n ≤ int64Max) :
    strToInt64 (formatDivisibleMP n false) true = n := by
  have hvalue := ofDigitChars_coinDigits hn
  have hread := strToInt64_decimals 0
    (fun _ => isDigit_of_mem_toDigits (n := n.natAbs / coin))
    (fun _ => isDigit_of_mem_paddedDigits) (length_decimals (n := n))
  rw [List.replicate_zero, List.append_nil] at hread
  exact (hread (ofDigitChars_coinDigits_lt hn hmax)).trans hvalue

theorem strToInt64_formatDivisibleShortMP (hn : 0 ≤ n) (hmax : n ≤ int64Max) :
    strToInt64 (formatDivisibleShortMP n) true = n := by
  have hvalue := ofDigitChars_coinDigits hn
  have hlt := ofDigitChars_coinDigits_lt hn hmax
  obtain ⟨k, hk⟩ := exists_zeros (paddedDigits 8 (n.natAbs % coin))
  have hlen := length_decimals (n := n)
  have hdigits : ∀ c ∈ paddedDigits 8 (n.natAbs % coin), c.isDigit = true :=
    fun _ => isDigit_of_mem_paddedDigits
  rw [formatDivisibleShortMP, rdropWhile_formatCoins]
  rw [coinDigits] at hvalue hlt
  generalize (paddedDigits 8 (n.natAbs % coin)).rdropWhile (· = '0') = decimals at hk ⊢
  rw [hk] at hvalue hlt hlen hdigits
  rw [List.length_append, List.length_replicate] at hlen
  have hdecimals := (List.forall_mem_append.mp hdigits).1
  by_cases hnil : decimals = []
  · -- nothing but the dot is left behind the whole coins
    subst hnil
    have hzeros : k = 8 := by simpa using hlen
    subst hzeros
    rw [List.nil_append] at hvalue hlt
    rw [List.getLast?_concat, if_pos rfl, List.dropLast_concat,
      strToInt64_whole (fun _ => isDigit_of_mem_toDigits) hlt]
    exact hvalue
  · have hlast : (Nat.toDigits 10 (n.natAbs / coin) ++ '.' :: decimals).getLast? ≠ some '.' := by
      intro hdot
      have hmem : '.' ∈ decimals := by
        obtain ⟨c, rest, rfl⟩ := List.exists_cons_of_ne_nil hnil
        rw [List.getLast?_append_of_ne_nil _ (by simp), List.getLast?_cons_cons] at hdot
        exact List.mem_of_getLast? hdot
      exact (ne_of_isDigit (hdecimals _ hmem)).1 rfl
    rw [if_neg hlast, strToInt64_decimals k (fun _ => isDigit_of_mem_toDigits) hdecimals hlen hlt]
    exact hvalue

theorem strToInt64_formatIndivisibleMP (hn : 0 ≤ n) (hmax : n ≤ int64Max) :
    strToInt64 (formatIndivisibleMP n) false = n := by
  have hdigits : ∀ c ∈ Nat.toDigits 10 n.natAbs, c.isDigit = true :=
    fun _ => isDigit_of_mem_toDigits
  have hminus : '-' ∉ Nat.toDigits 10 n.natAbs := fun hmem => (ne_of_isDigit (hdigits _ hmem)).2 rfl
  have hwhole : (Nat.toDigits 10 n.natAbs).takeWhile (· ≠ '.') = Nat.toDigits 10 n.natAbs := by
    rw [List.takeWhile_eq_self_iff]
    intro c hc
    simpa using (ne_of_isDigit (hdigits c hc)).1
  have hmax' : n.natAbs < 2 ^ 63 := by
    rw [int64Max] at hmax
    omega
  rw [formatIndivisibleMP, integerText, if_neg (not_lt.mpr hn), strToInt64, if_neg hminus,
    if_neg Bool.false_ne_true, hwhole, lexicalCastInt64_digits Nat.toDigits_ne_nil hdigits
      (by rw [Nat.ofDigitChars_ten_toDigits]; exact hmax'), Nat.ofDigitChars_ten_toDigits]
  omega

end RoundTrip

/-- Every amount is read back from each of its texts. -/
theorem strToInt64_format {n : Int} (hn : 0 ≤ n) (hmax : n ≤ int64Max) :
    strToInt64 (formatDivisibleMP n false) true = n ∧
      strToInt64 (formatDivisibleShortMP n) true = n ∧
      strToInt64 (formatIndivisibleMP n) false = n :=
  ⟨strToInt64_formatDivisibleMP hn hmax, strToInt64_formatDivisibleShortMP hn hmax,
    strToInt64_formatIndivisibleMP hn hmax⟩

theorem strToInt64_format_sample :
    formatDivisibleShortMP 1050000000 = "10.5".toList ∧
      strToInt64 (formatDivisibleMP 1050000000 false) true = 1050000000 ∧
      strToInt64 (formatDivisibleShortMP 1050000000) true = 1050000000 ∧
      strToInt64 (formatIndivisibleMP 1050000000) false = 1050000000 :=
  ⟨by decide +kernel, strToInt64_format (by decide) (by decide)⟩

end TradeLayer
