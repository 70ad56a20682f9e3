import TradeLayer.Basic

namespace TradeLayer
open Library

variable {c : Nat}

namespace Mbstring

def getMblenByte (c : UInt8) : Int :=
  if c &&& 0xFF = 0x00 then 0
  else if c &&& 0x80 = 0x00 then 1
  else if c &&& 0xE0 = 0xC0 then 2
  else if c &&& 0xF0 = 0xE0 then 3
  else if c &&& 0xF8 = 0xF0 then 4
  else if c &&& 0xFC = 0xF8 then 5
  else if c &&& 0xFE = 0xFC then 6
  else if c &&& 0xFF = 0xFE then 7
  else -1

/-- The number of bytes is compared as a signed 32-bit number. -/
def getMblen (s : List UInt8) : Int :=
  match s with
  | [] => 0
  | c :: _ =>
    let len := getMblenByte c
    if asInt32 s.length ≥ len then len else -1

def Within (low high c : UInt8) : Prop := low ≤ c ∧ c ≤ high

instance (low high c : UInt8) : Decidable (Within low high c) :=
  inferInstanceAs (Decidable (_ ∧ _))

/-- The check of the next bytes; a read past their end is an error. -/
def checkMb : List UInt8 → Int → Except Abort Bool
  | _, 0 => .ok true
  | c₀ :: _, 1 => .ok (c₀ ≤ 0x7F)
  | c₀ :: c₁ :: _, 2 => .ok (Within 0xC2 0xDF c₀ ∧ Within 0x80 0xBF c₁)
  | c₀ :: c₁ :: c₂ :: _, 3 =>
    if c₀ = 0xE0 ∧ ¬ Within 0xA0 0xBF c₁ then .ok false
    else if c₀ = 0xED ∧ ¬ Within 0x80 0x9F c₁ then .ok false
    else .ok (Within 0xE0 0xEF c₀ ∧ Within 0x80 0xBF c₁ ∧ Within 0x80 0xBF c₂)
  | c₀ :: c₁ :: c₂ :: c₃ :: _, 4 =>
    if c₀ = 0xF0 ∧ ¬ Within 0x90 0xBF c₁ then .ok false
    else if c₀ = 0xF4 ∧ ¬ Within 0x80 0x8F c₁ then .ok false
    else .ok (Within 0xF0 0xF4 c₀ ∧ Within 0x80 0xBF c₁ ∧ Within 0x80 0xBF c₂ ∧ Within 0x80 0xBF c₃)
  | _, n => if 1 ≤ n ∧ n ≤ 4 then .error .undefined else .ok false

end Mbstring

open Mbstring

def questionMark : UInt8 := 0x3F

/-- The loop from a position on, of at most so many rounds. -/
def sanitizeInvalidUTF8 : Nat → List UInt8 → Except Abort (List UInt8)
  | _, [] => .ok []
  | 0, _ => .error .divergence
  | rounds + 1, s@(_ :: rest) => do
    let next := getMblen s
    if ← checkMb s next then
      return s.take next.toNat ++ (← sanitizeInvalidUTF8 rounds (s.drop next.toNat))
    else return questionMark :: (← sanitizeInvalidUTF8 rounds rest)

def IsScalar (c : Nat) : Prop :=
  c < 0xD800 ∨ 0xDFFF < c ∧ c ≤ 0x10FFFF

def encodeScalar (c : Nat) : List UInt8 :=
  if c < 0x80 then [.ofNat c]
  else if c < 0x800 then [.ofNat (0xC0 + c / 64), .ofNat (0x80 + c % 64)]
  else if c < 0x10000 then
    [.ofNat (0xE0 + c / 4096), .ofNat (0x80 + c / 64 % 64), .ofNat (0x80 + c % 64)]
  else [.ofNat (0xF0 + c / 262144), .ofNat (0x80 + c / 4096 % 64), .ofNat (0x80 + c / 64 % 64),
    .ofNat (0x80 + c % 64)]

def WellFormedUtf8 (s : List UInt8) : Prop :=
  ∃ cs : List Nat, (∀ c ∈ cs, IsScalar c) ∧ s = cs.flatMap encodeScalar

/-- What the loop makes of a text, in some number of rounds. -/
def Sanitizes (s : List UInt8) : Prop :=
  ∃ rounds r, sanitizeInvalidUTF8 rounds s = .ok r ∧
    List.Forall₂ (fun before after => after = before ∨ after = questionMark) s r ∧
    WellFormedUtf8 r ∧ (WellFormedUtf8 s → r = s) ∧
    ∃ again, sanitizeInvalidUTF8 again r = .ok r

variable {s t w : List UInt8} {b : UInt8}

theorem getMblenByte_eq (b : UInt8) : getMblenByte b =
    if b.toNat = 0 then 0 else if b.toNat < 0x80 then 1 else if b.toNat < 0xC0 then -1
    else if b.toNat < 0xE0 then 2 else if b.toNat < 0xF0 then 3 else if b.toNat < 0xF8 then 4
    else if b.toNat < 0xFC then 5 else if b.toNat < 0xFE then 6 else if b.toNat = 0xFE then 7
    else -1 := by
  have hall : ∀ n : Fin 256, getMblenByte (.ofNat n) =
      if n.1 = 0 then 0 else if n.1 < 0x80 then 1 else if n.1 < 0xC0 then -1
      else if n.1 < 0xE0 then 2 else if n.1 < 0xF0 then 3 else if n.1 < 0xF8 then 4
      else if n.1 < 0xFC then 5 else if n.1 < 0xFE then 6 else if n.1 = 0xFE then 7
      else -1 := by decide +kernel
  simpa using hall ⟨b.toNat, b.toNat_lt⟩

theorem getMblen_cons (hlen : (b :: t).length < 2 ^ 31) : getMblen (b :: t) =
    if getMblenByte b ≤ (b :: t).length then getMblenByte b else -1 := by
  have hint : asInt32 (b :: t).length = (b :: t).length := by
    rw [asInt32, BitVec.toInt_eq_toNat_of_lt] <;> rw [BitVec.toNat_ofNat] <;> omega
  rw [getMblen, hint]

theorem ofNat_eq {n : Nat} (h : n = b.toNat) : UInt8.ofNat n = b := by
  rw [h, UInt8.ofNat_toNat]

theorem encode_of_checkMb {n : Int} (hn : n ≠ 0) (h : checkMb s n = .ok true) :
    ∃ c rest, IsScalar c ∧ s = encodeScalar c ++ rest ∧ n = (encodeScalar c).length := by
  have hfrom {c : Nat} {w rest : List UInt8} (hcode : encodeScalar c = w) (hc : IsScalar c) :
      ∃ c rest', IsScalar c ∧ w ++ rest = encodeScalar c ++ rest' ∧
        (w.length : Int) = (encodeScalar c).length :=
    ⟨c, rest, hc, by rw [hcode], by rw [hcode]⟩
  unfold checkMb at h
  split at h
  · exact absurd rfl hn
  · next c₀ rest =>
    simp [UInt8.le_iff_toNat_le] at h
    refine hfrom (c := c₀.toNat) (w := [c₀]) ?_ (.inl (by omega))
    rw [encodeScalar, if_pos (by omega), UInt8.ofNat_toNat]
  · next c₀ c₁ rest =>
    simp [Within, UInt8.le_iff_toNat_le] at h
    refine hfrom (c := (c₀.toNat - 0xC0) * 64 + (c₁.toNat - 0x80)) (w := [c₀, c₁]) ?_
      (.inl (by omega))
    rw [encodeScalar, if_neg (by omega), if_pos (by omega), ofNat_eq, ofNat_eq] <;> omega
  · next c₀ c₁ c₂ rest =>
    split_ifs at h with h₁ h₂
    · cases h
    · cases h
    simp [Within, UInt8.le_iff_toNat_le, ← UInt8.toNat_inj] at h h₁ h₂
    refine hfrom (c := (c₀.toNat - 0xE0) * 4096 + (c₁.toNat - 0x80) * 64 + (c₂.toNat - 0x80))
      (w := [c₀, c₁, c₂]) ?_ (by rw [IsScalar]; omega)
    rw [encodeScalar, if_neg (by omega), if_neg (by omega), if_pos (by omega), ofNat_eq, ofNat_eq,
      ofNat_eq] <;> omega
  · next c₀ c₁ c₂ c₃ rest =>
    split_ifs at h with h₁ h₂
    · cases h
    · cases h
    simp [Within, UInt8.le_iff_toNat_le, ← UInt8.toNat_inj] at h h₁ h₂
    refine hfrom (c := (c₀.toNat - 0xF0) * 262144 + (c₁.toNat - 0x80) * 4096 +
      (c₂.toNat - 0x80) * 64 + (c₃.toNat - 0x80)) (w := [c₀, c₁, c₂, c₃]) ?_
      (by rw [IsScalar]; omega)
    rw [encodeScalar, if_neg (by omega), if_neg (by omega), if_neg (by omega), ofNat_eq, ofNat_eq,
      ofNat_eq, ofNat_eq] <;> omega
  · split_ifs at h
    cases h

theorem toNat_ofNat {n : Nat} (h : n < 256) : (UInt8.ofNat n).toNat = n := by
  rw [UInt8.toNat_ofNat', Nat.mod_eq_of_lt h]

theorem getMblen_encode (hc : IsScalar c) (hzero : c ≠ 0) (rest : List UInt8)
    (hlen : (encodeScalar c ++ rest).length < 2 ^ 31) :
    getMblen (encodeScalar c ++ rest) = (encodeScalar c).length := by
  rw [IsScalar] at hc
  rw [encodeScalar] at hlen ⊢
  split_ifs at hlen ⊢ with h₁ h₂ h₃
  all_goals simp only [List.cons_append, List.nil_append] at hlen ⊢
  all_goals rw [getMblen_cons hlen]
  · have hlead : getMblenByte (.ofNat c) = 1 := by
      rw [getMblenByte_eq, toNat_ofNat (by omega), if_neg hzero, if_pos h₁]
    rw [hlead, if_pos (by simp)]
    rfl
  · have hlead : getMblenByte (.ofNat (0xC0 + c / 64)) = 2 := by
      rw [getMblenByte_eq, toNat_ofNat (by omega), if_neg (by omega), if_neg (by omega),
        if_neg (by omega), if_pos (by omega)]
    rw [hlead, if_pos (by simp; omega)]
    rfl
  · have hlead : getMblenByte (.ofNat (0xE0 + c / 4096)) = 3 := by
      rw [getMblenByte_eq, toNat_ofNat (by omega), if_neg (by omega), if_neg (by omega),
        if_neg (by omega), if_neg (by omega), if_pos (by omega)]
    rw [hlead, if_pos (by simp; omega)]
    rfl
  · have hlead : getMblenByte (.ofNat (0xF0 + c / 262144)) = 4 := by
      rw [getMblenByte_eq, toNat_ofNat (by omega), if_neg (by omega), if_neg (by omega),
        if_neg (by omega), if_neg (by omega), if_neg (by omega), if_pos (by omega)]
    rw [hlead, if_pos (by simp; omega)]
    rfl

theorem checkMb_encode (hc : IsScalar c) (rest : List UInt8) :
    checkMb (encodeScalar c ++ rest) (encodeScalar c).length = .ok true := by
  rw [IsScalar] at hc
  rw [encodeScalar]
  split_ifs with h₁ h₂ h₃
  all_goals simp (disch := omega) only [List.cons_append, List.nil_append, List.length_cons,
    List.length_nil, checkMb, Within, UInt8.le_iff_toNat_le, ← UInt8.toNat_inj, toNat_ofNat,
    zero_add, Nat.reduceAdd, Nat.cast_ofNat, Nat.cast_one]
  · simp
    omega
  · simp
    omega
  · rw [if_neg, if_neg] <;> simp <;> omega
  · rw [if_neg, if_neg] <;> simp <;> omega

theorem encodeScalar_ne_nil (c : Nat) : encodeScalar c ≠ [] := by
  rw [encodeScalar]
  split_ifs <;> nofun

theorem zero_not_mem_encodeScalar (hc : IsScalar c) (hzero : c ≠ 0) : 0 ∉ encodeScalar c := by
  rw [IsScalar] at hc
  rw [encodeScalar]
  split_ifs
  all_goals simp (disch := omega) [← UInt8.toNat_inj, toNat_ofNat, -UInt8.toNat_ofNat']
  all_goals omega

theorem exists_checkMb {n : Int} (h : n ≤ s.length) : ∃ ok, checkMb s n = .ok ok := by
  unfold checkMb
  split
  · exact ⟨_, rfl⟩
  · exact ⟨_, rfl⟩
  · exact ⟨_, rfl⟩
  · split_ifs <;> exact ⟨_, rfl⟩
  · split_ifs <;> exact ⟨_, rfl⟩
  · next h₁ h₂ h₃ h₄ =>
    rw [if_neg]
    · exact ⟨_, rfl⟩
    rintro ⟨hpos, hle⟩
    have hn : n = 1 ∨ n = 2 ∨ n = 3 ∨ n = 4 := by omega
    rcases s with _ | ⟨c₀, _ | ⟨c₁, _ | ⟨c₂, _ | ⟨c₃, rest⟩⟩⟩⟩
    all_goals simp only [List.length_cons, List.length_nil] at h
    all_goals grind

theorem round_cases (hb : b ≠ 0) (hlen : (b :: t).length < 2 ^ 31) :
    checkMb (b :: t) (getMblen (b :: t)) = .ok false ∨
      checkMb (b :: t) (getMblen (b :: t)) = .ok true ∧ ∃ c rest, IsScalar c ∧ c ≠ 0 ∧
        b :: t = encodeScalar c ++ rest ∧ getMblen (b :: t) = (encodeScalar c).length := by
  have hbyte : getMblenByte b ≠ 0 := by
    have hzero : b.toNat ≠ 0 := fun h => hb (UInt8.toNat_inj.mp h)
    rw [getMblenByte_eq, if_neg hzero]
    split_ifs <;> decide
  have hn : getMblen (b :: t) ≠ 0 ∧ getMblen (b :: t) ≤ (b :: t).length := by
    rw [getMblen_cons hlen]
    split_ifs with hle
    · exact ⟨hbyte, hle⟩
    · exact ⟨by decide, by omega⟩
  obtain ⟨ok, hok⟩ := exists_checkMb hn.2
  cases ok with
  | false => exact .inl hok
  | true =>
    obtain ⟨c, rest, hc, heq, hcount⟩ := encode_of_checkMb hn.1 hok
    refine .inr ⟨hok, c, rest, hc, ?_, heq, hcount⟩
    rintro rfl
    exact hb (List.cons.inj heq).1

theorem sanitize_refused (h : checkMb (b :: t) (getMblen (b :: t)) = .ok false) (rounds : Nat) :
    sanitizeInvalidUTF8 (rounds + 1) (b :: t) =
      (sanitizeInvalidUTF8 rounds t).map (questionMark :: ·) := by
  rw [sanitizeInvalidUTF8, h]
  rfl

theorem sanitize_passed {rest : List UInt8} (heq : b :: t = w ++ rest)
    (hcount : getMblen (b :: t) = w.length)
    (h : checkMb (b :: t) (getMblen (b :: t)) = .ok true) (rounds : Nat) :
    sanitizeInvalidUTF8 (rounds + 1) (b :: t) =
      (sanitizeInvalidUTF8 rounds rest).map (w ++ ·) := by
  have htake : (b :: t).take (getMblen (b :: t)).toNat = w := by
    rw [hcount, Int.toNat_natCast, heq, List.take_left]
  have hdrop : (b :: t).drop (getMblen (b :: t)).toNat = rest := by
    rw [hcount, Int.toNat_natCast, heq, List.drop_left]
  rw [sanitizeInvalidUTF8, h, htake, hdrop]
  rfl

theorem WellFormedUtf8.cons (hc : IsScalar c) (h : WellFormedUtf8 t) :
    WellFormedUtf8 (encodeScalar c ++ t) := by
  obtain ⟨cs, hcs, rfl⟩ := h
  exact ⟨c :: cs, List.forall_mem_cons.mpr ⟨hc, hcs⟩, rfl⟩

theorem WellFormedUtf8.exists_append (h : WellFormedUtf8 s) (hs : s ≠ []) (hzero : 0 ∉ s)
    (hlen : s.length < 2 ^ 31) :
    ∃ c rest, s = encodeScalar c ++ rest ∧ WellFormedUtf8 rest ∧
      getMblen s = (encodeScalar c).length ∧ checkMb s (getMblen s) = .ok true := by
  obtain ⟨cs, hcs, rfl⟩ := h
  cases cs with
  | nil => exact absurd rfl hs
  | cons c cs =>
    obtain ⟨hc, hcs⟩ := List.forall_mem_cons.mp hcs
    have hne : c ≠ 0 := by
      rintro rfl
      exact hzero List.mem_cons_self
    have hcount := getMblen_encode hc hne (cs.flatMap encodeScalar) hlen
    refine ⟨c, cs.flatMap encodeScalar, rfl, ⟨cs, hcs, rfl⟩, hcount, ?_⟩
    rw [List.flatMap_cons, hcount]
    exact checkMb_encode hc _

/-- A text without a zero byte is sanitized in as many rounds as it has bytes. -/
theorem exists_sanitized (hlen : s.length < 2 ^ 31) (hzero : 0 ∉ s) :
    ∃ r, (∀ rounds, s.length ≤ rounds → sanitizeInvalidUTF8 rounds s = .ok r) ∧
      List.Forall₂ (fun before after => after = before ∨ after = questionMark) s r ∧
      WellFormedUtf8 r ∧ (WellFormedUtf8 s → r = s) := by
  induction hn : s.length using Nat.strong_induction_on generalizing s with
  | _ n ih =>
    subst hn
    cases s with
    | nil => exact ⟨[], fun _ _ => by rw [sanitizeInvalidUTF8], .nil, ⟨[], by simp, rfl⟩,
      fun _ => rfl⟩
    | cons b t =>
      have hb : b ≠ 0 := fun h => hzero (h ▸ List.mem_cons_self)
      rcases round_cases hb hlen with hcheck | ⟨hcheck, c, rest, hc, hne, heq, hcount⟩
      · obtain ⟨r, hr, hchange, hwell, -⟩ := ih t.length (by simp) (by simp at hlen; omega)
          (fun h => hzero (List.mem_cons_of_mem _ h)) rfl
        refine ⟨questionMark :: r, ?_, .cons (.inr rfl) hchange,
          hwell.cons (c := 0x3F) (.inl (by decide)), fun hs => ?_⟩
        · rintro (_ | rounds) hrounds
          · simp at hrounds
          · rw [sanitize_refused hcheck, hr rounds (by simpa using hrounds)]
            rfl
        · obtain ⟨c, rest, -, -, -, hpass⟩ := hs.exists_append nofun hzero hlen
          rw [hcheck] at hpass
          cases hpass
      · have hrest : rest.length < (b :: t).length := by
          rw [heq, List.length_append]
          have hpos := List.length_pos_iff.mpr (encodeScalar_ne_nil c)
          omega
        have hzero' : 0 ∉ rest := fun h => hzero (heq ▸ List.mem_append_right _ h)
        obtain ⟨r, hr, hchange, hwell, hsame⟩ := ih rest.length hrest (by omega) hzero' rfl
        refine ⟨encodeScalar c ++ r, ?_, ?_, hwell.cons hc, fun hs => ?_⟩
        · rintro (_ | rounds) hrounds
          · simp at hrounds
          · rw [sanitize_passed heq hcount hcheck, hr rounds (by omega)]
            rfl
        · rw [heq]
          exact List.rel_append (List.forall₂_same.mpr fun _ _ => .inl rfl) hchange
        · obtain ⟨c', rest', heq', hwell', hcount', -⟩ := hs.exists_append nofun hzero hlen
          have hlength : (encodeScalar c').length = (encodeScalar c).length := by
            exact_mod_cast hcount'.symm.trans hcount
          obtain ⟨-, rfl⟩ := List.append_inj (heq'.symm.trans heq) hlength
          rw [heq, hsame hwell']

/-- A zero byte is taken for a character of no bytes, and the loop stays where it is. -/
theorem sanitize_of_zero (hlen : s.length < 2 ^ 31) (hzero : 0 ∈ s) (rounds : Nat) :
    sanitizeInvalidUTF8 rounds s = .error .divergence := by
  induction rounds generalizing s with
  | zero =>
    cases s with
    | nil => cases hzero
    | cons b t => rfl
  | succ rounds ih =>
    cases s with
    | nil => cases hzero
    | cons b t =>
      by_cases hb : b = 0
      · subst hb
        have hcount : getMblen (0 :: t) = 0 := by
          rw [getMblen_cons hlen]
          exact if_pos (Int.natCast_nonneg _)
        rw [sanitize_passed (w := []) rfl hcount (by rw [hcount]; rfl), ih hlen hzero]
        rfl
      · rcases round_cases hb hlen with hcheck | ⟨hcheck, c, rest, hc, hne, heq, hcount⟩
        · rw [sanitize_refused hcheck, ih (Nat.lt_of_succ_lt hlen)
            ((List.mem_cons.mp hzero).resolve_left (Ne.symm hb))]
          rfl
        · rw [heq, List.length_append] at hlen
          rw [sanitize_passed heq hcount hcheck, ih (by omega) ((List.mem_append.mp
            (heq ▸ hzero)).resolve_left (zero_not_mem_encodeScalar hc hne))]
          rfl

theorem sanitizes_iff (hlen : s.length < 2 ^ 31) : Sanitizes s ↔ 0 ∉ s := by
  constructor
  · rintro ⟨rounds, r, hr, -⟩ hzero
    rw [sanitize_of_zero hlen hzero] at hr
    cases hr
  · intro hzero
    obtain ⟨r, hr, hchange, hwell, hsame⟩ := exists_sanitized hlen hzero
    have hzero' : 0 ∉ r := by
      clear hr hwell hsame hlen
      induction hchange with
      | nil => nofun
      | cons h _ ih =>
        rw [List.mem_cons, not_or] at hzero ⊢
        refine ⟨?_, ih hzero.2⟩
        rcases h with rfl | rfl
        · exact hzero.1
        · decide
    obtain ⟨r', hr', -, -, hagain⟩ := exists_sanitized (hchange.length_eq ▸ hlen) hzero'
    exact ⟨s.length, r, hr _ le_rfl, hchange, hwell, hsame, r.length, hagain hwell ▸ hr' _ le_rfl⟩

/-- A letter and a byte that begins no character. -/
theorem sanitizes_sample : Sanitizes [0x61, 0xFF] :=
  (sanitizes_iff (by decide)).mpr (by decide)

theorem not_sanitizes_zero : ¬ Sanitizes [0x61, 0x00] ∧
    ∀ rounds, sanitizeInvalidUTF8 rounds [0x61, 0x00] = .error .divergence := by
  have hloop (rounds : Nat) : sanitizeInvalidUTF8 rounds [0x61, 0x00] = .error .divergence :=
    sanitize_of_zero (by decide) (by decide) rounds
  refine ⟨?_, hloop⟩
  rintro ⟨rounds, r, hr, -⟩
  rw [hloop] at hr
  cases hr

end TradeLayer
