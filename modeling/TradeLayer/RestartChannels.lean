import TradeLayer.PersistedChannels

namespace TradeLayer
open Library

def InInt32 (n : Int) : Prop := -2 ^ 31 ≤ n ∧ n < 2 ^ 31

instance {n : Int} : Decidable (InInt32 n) := inferInstanceAs (Decidable (_ ∧ _))

variable {hash : List Char → List Char} {verifyHash : Bool} {key : Address} {rc : Int}

section Entries

variable {κ V : Type} [LinearOrder κ] {k : κ} {v : V}

theorem toList_set_empty : (OrderedMap.set ∅ k v).toList = [(k, v)] := rfl

theorem insertEntry_empty : insertEntry (∅ : OrderedMap κ V) k v = (0, .set ∅ k v) := rfl

end Entries

section Cachefees

variable {cachefees : OrderedMap PropertyId Int} {p : PropertyId} {n : Int}

theorem fieldText_cachefee {text : List Char} (h : text ∈ [Nat.toDigits 10 p, integerText n]) :
    FieldText text := by
  simp only [List.mem_cons, List.not_mem_nil, or_false] at h
  rcases h with rfl | rfl
  · exact fieldText_toDigits
  · exact fieldText_integerText

theorem inputCachefeesString_text (hp : p < 2 ^ 32) (hlo : -2 ^ 63 ≤ n) (hhi : n < 2 ^ 63) :
    inputCachefeesString ∅ (cachefeeText (p, n)) = .ok (0, .set ∅ p n) := by
  rw [inputCachefeesString, cachefeeText,
    splitAny_fieldLine (List.cons_ne_nil _ _) fun _ => fieldText_cachefee]
  simp only [fieldAt, List.getElem?_cons_zero, List.getElem?_cons_succ, ok_bind,
    lexicalCastUInt32_toDigits hp, lexicalCastInt64_integerText_of_range hlo hhi,
    insertEntry_empty]
  rfl

theorem cachefees_survive_iff (hhash : ∀ text, '\r' ∉ hash text)
    (htyped : ∀ p n, cachefees.get? p = some n → p < 2 ^ 32 ∧ -2 ^ 63 ≤ n ∧ n < 2 ^ 63) :
    loadFile inputCachefeesString hash verifyHash
        (lineFile hash (writeMpCachefees cachefees)) ∅ = .ok (0, cachefees) ↔
      cachefees = ∅ ∨ ∃ p n, cachefees = .set ∅ p n := by
  have hfeeds : ∀ c ∈ writeMpCachefees cachefees, c ≠ '\r' ∧ c ≠ '\n' := by
    intro c hc
    obtain ⟨e, -, hce⟩ := List.mem_flatMap.mp hc
    exact feeds_fieldLine (fun text ht => (fieldText_cachefee ht).cleanText) c hce
  constructor
  · intro h
    rcases input_of_loadFile hfeeds h with hempty | ⟨-, rc, hinput⟩
    · exact .inl hempty
    · simp only [inputCachefeesString, bind_eq_ok] at hinput
      obtain ⟨_, _, p, -, _, _, n, -, hok⟩ := hinput
      rw [insertEntry_empty] at hok
      cases hok
      exact .inr ⟨p, n, rfl⟩
  · rintro (rfl | ⟨p, n, rfl⟩)
    · exact loadFile_nil hhash
    · obtain ⟨hp, hlo, hhi⟩ := htyped p n (by rw [OrderedMap.get?_set, if_pos rfl])
      have hline : writeMpCachefees (.set ∅ p n) = cachefeeText (p, n) := by
        rw [writeMpCachefees, toList_set_empty, List.flatMap_singleton]
      rw [hline] at hfeeds ⊢
      apply loadFile_of_input hhash hfeeds _ (inputCachefeesString_text hp hlo hhi)
      exact plainLine_fieldLine (List.cons_ne_nil _ _) fun _ => fieldText_cachefee

end Cachefees

section Channels

variable {channelsMap m m' : ChannelsMap} {c : Channel} {line : List Char}

def Channel.Clean (key : Address) (c : Channel) : Prop :=
  CleanText key ∧ ∀ text ∈ [c.multisig, c.first, c.second], text ≠ [] ∧ CleanText text

instance : Decidable (c.Clean key) :=
  inferInstanceAs (Decidable (CleanText key ∧
    ∀ text ∈ [c.multisig, c.first, c.second], text ≠ [] ∧ CleanText text))

theorem Channel.Clean.fields (h : c.Clean key) :
    (∀ text ∈ [key, c.multisig, c.first, c.second, integerText c.expiryHeight,
        integerText c.lastExchangeBlock], CleanText text) ∧
      ∀ text ∈ [c.multisig, c.first, c.second, integerText c.expiryHeight,
        integerText c.lastExchangeBlock], text ≠ [] := by
  obtain ⟨hkey, htexts⟩ := h
  simp only [List.mem_cons, List.not_mem_nil, or_false, forall_eq_or_imp, forall_eq] at htexts ⊢
  exact ⟨⟨hkey, htexts.1.2, htexts.2.1.2, htexts.2.2.2, fieldText_integerText.cleanText,
      fieldText_integerText.cleanText⟩,
    htexts.1.1, htexts.2.1.1, htexts.2.2.1, fieldText_integerText.1, fieldText_integerText.1⟩

theorem inputActivechannelsString_text (h : c.Clean key) (hexpiry : InInt32 c.expiryHeight)
    (hlast : InInt32 c.lastExchangeBlock) :
    inputActivechannelsString ∅ (channelText (key, c)) = .ok (0, .set ∅ key c) := by
  rw [inputActivechannelsString, channelText,
    splitAny_of_cleanText (List.cons_ne_nil _ _) h.fields.1 h.fields.2]
  simp only [fieldAt, List.getElem?_cons_zero, List.getElem?_cons_succ, ok_bind,
    lexicalCastInt32_integerText hexpiry.1 hexpiry.2, lexicalCastInt32_integerText hlast.1 hlast.2,
    insertEntry_empty]
  rfl

theorem channel_of_input (hline : ∀ c ∈ line, c ≠ '\r' ∧ c ≠ '\n')
    (h : inputActivechannelsString m line = .ok (rc, m')) :
    ∃ key c, c.Clean key ∧ (rc, m') = insertEntry m key c := by
  simp only [inputActivechannelsString, bind_eq_ok, fieldAt_eq_ok] at h
  obtain ⟨key, hkey, multisig, hmultisig, first, hfirst, second, hsecond, _, _, expiry, -, last,
    hlast, block, -, hok⟩ := h
  refine ⟨key, ⟨multisig, first, second, expiry, block⟩, ⟨?_, ?_⟩, (Except.ok.inj hok).symm⟩
  · exact cleanText_of_mem_splitAny hline (List.mem_of_getElem? hkey)
  · have hfield : ∀ i text, i + 1 < 5 → (splitAny separates line)[i + 1]? = some text →
        text ≠ [] ∧ CleanText text := fun i text hi htext =>
      ⟨ne_nil_of_mem_splitAny (mem_tail_dropLast htext hlast hi),
        cleanText_of_mem_splitAny hline (List.mem_of_getElem? htext)⟩
    simp only [List.mem_cons, List.not_mem_nil, or_false, forall_eq_or_imp, forall_eq]
    exact ⟨hfield 0 _ (by decide) hmultisig, hfield 1 _ (by decide) hfirst,
      hfield 2 _ (by decide) hsecond⟩

theorem channels_survive_iff (hhash : ∀ text, '\r' ∉ hash text)
    (htyped : ∀ key c, channelsMap.get? key = some c →
      InInt32 c.expiryHeight ∧ InInt32 c.lastExchangeBlock) :
    loadFile inputActivechannelsString hash verifyHash
        (lineFile hash (writeMpActiveChannels channelsMap)) ∅ = .ok (0, channelsMap) ↔
      channelsMap = ∅ ∨ ∃ key c, channelsMap = .set ∅ key c ∧ c.Clean key ∧
        key.head? ≠ some '#' ∧ key.head? ≠ some '!' := by
  have hone : ∀ key c, writeMpActiveChannels (.set ∅ key c) = channelText (key, c) := by
    intro key c
    rw [writeMpActiveChannels, toList_set_empty, List.flatMap_singleton]
  constructor
  · intro h
    have hclean : ∀ key c, channelsMap.get? key = some c → c.Clean key := by
      apply loadFile_invariant (P := fun m => ∀ key c, m.get? key = some c → c.Clean key) _ _ h
      · intro key c hc
        cases hc
      · intro line m m' rc hline hm hinput key' c' hc'
        obtain ⟨key, c, hclean, heq⟩ := channel_of_input hline hinput
        rw [(Prod.mk.inj heq).2] at hc'
        rcases get?_insertEntry hc' with hold | ⟨rfl, rfl⟩
        · exact hm key' c' hold
        · exact hclean
    have hfeeds : ∀ c ∈ writeMpActiveChannels channelsMap, c ≠ '\r' ∧ c ≠ '\n' := by
      intro c hc
      obtain ⟨e, he, hce⟩ := List.mem_flatMap.mp hc
      exact feeds_fieldLine (hclean e.1 e.2 (OrderedMap.get?_eq_some.mpr he)).fields.1 c hce
    rcases input_of_loadFile hfeeds h with hempty | ⟨hplain, rc, hinput⟩
    · exact .inl hempty
    · obtain ⟨key, c, hclean', heq⟩ := channel_of_input hfeeds hinput
      rw [insertEntry_empty] at heq
      cases heq
      rw [hone] at hplain
      exact .inr ⟨key, c, rfl, hclean', (plainLine_iff hclean'.fields.1).mp hplain⟩
  · rintro (rfl | ⟨key, c, rfl, hclean, hstart⟩)
    · exact loadFile_nil hhash
    · obtain ⟨hexpiry, hlast⟩ := htyped key c (by rw [OrderedMap.get?_set, if_pos rfl])
      rw [hone]
      exact loadFile_of_input hhash (feeds_fieldLine hclean.fields.1)
        ((plainLine_iff hclean.fields.1).mpr hstart)
        (inputActivechannelsString_text hclean hexpiry hlast)

end Channels

section Withdrawals

variable {withdrawalMap m m' : WithdrawalMap} {w : WithdrawalAccepted} {line : List Char}

def WithdrawalAccepted.Clean (key : Address) (w : WithdrawalAccepted) : Prop :=
  CleanText key ∧ w.address ≠ [] ∧ CleanText w.address

instance : Decidable (w.Clean key) := inferInstanceAs (Decidable (_ ∧ _ ∧ _))

theorem WithdrawalAccepted.Clean.fields (h : w.Clean key) :
    (∀ text ∈ [key, w.address, integerText w.deadlineBlock, Nat.toDigits 10 w.propertyId,
        Nat.toDigits 10 w.amount.toNat], CleanText text) ∧
      ∀ text ∈ [w.address, integerText w.deadlineBlock, Nat.toDigits 10 w.propertyId,
        Nat.toDigits 10 w.amount.toNat], text ≠ [] := by
  obtain ⟨hkey, hne, haddress⟩ := h
  simp only [List.mem_cons, List.not_mem_nil, or_false, forall_eq_or_imp, forall_eq]
  exact ⟨⟨hkey, haddress, fieldText_integerText.cleanText, fieldText_toDigits.cleanText,
      fieldText_toDigits.cleanText⟩,
    hne, fieldText_integerText.1, Nat.toDigits_ne_nil, Nat.toDigits_ne_nil⟩

theorem lexicalCastInt64_toDigits {n : Nat} : lexicalCastInt64 (Nat.toDigits 10 n) =
    if n < 2 ^ 63 then .ok (n : Int) else .error .badLexicalCast := by
  rw [lexicalCastInt64, readSigned, readSign_toDigits, readDigits_toDigits]
  simp only [Option.bind_some, Bool.false_eq_true, if_false]
  split_ifs
  · rfl
  · rfl

theorem inputWithdrawalsString_text (h : w.Clean key) (hdeadline : InInt32 w.deadlineBlock)
    (hid : w.propertyId < 2 ^ 32) : inputWithdrawalsString ∅ (withdrawalText key w) =
      if w.amount.toNat < 2 ^ 63 then .ok (0, .set ∅ key [w]) else .error .badLexicalCast := by
  rw [inputWithdrawalsString, withdrawalText,
    splitAny_of_cleanText (List.cons_ne_nil _ _) h.fields.1 h.fields.2]
  simp only [fieldAt, List.getElem?_cons_zero, List.getElem?_cons_succ, ok_bind,
    lexicalCastInt32_integerText hdeadline.1 hdeadline.2, lexicalCastUInt32_toDigits hid,
    lexicalCastInt64_toDigits, OrderedMap.get?_empty, insertEntry_empty]
  split_ifs
  · have hamount : UInt64.ofInt w.amount.toNat = w.amount := by
      have hlt := w.amount.toNat_lt
      rw [UInt64.ofInt, ← UInt64.toNat_inj, UInt64.toNat_ofNat']
      omega
    rw [ok_bind, hamount]
    rfl
  · rfl

theorem withdrawal_of_input (hline : ∀ c ∈ line, c ≠ '\r' ∧ c ≠ '\n')
    (h : inputWithdrawalsString m line = .ok (rc, m')) :
    m' = m ∨ ∃ key w, w.Clean key ∧ m' = m.set key [w] := by
  simp only [inputWithdrawalsString, bind_eq_ok, fieldAt_eq_ok] at h
  obtain ⟨key, hkey, address, haddress, _, hdeadline, deadline, -, _, -, id, -, last, hlast, amount,
    -, hok⟩ := h
  split at hok
  · cases hok
    exact .inl rfl
  · rename_i hnone
    rw [insertEntry, hnone] at hok
    cases hok
    refine .inr ⟨key, _, ⟨?_, ?_, ?_⟩, rfl⟩
    · exact cleanText_of_mem_splitAny hline (List.mem_of_getElem? hkey)
    · exact ne_nil_of_mem_splitAny (mem_tail_dropLast haddress hlast (by decide))
    · exact cleanText_of_mem_splitAny hline (List.mem_of_getElem? haddress)

theorem withdrawals_survive_iff (hhash : ∀ text, '\r' ∉ hash text)
    (htyped : ∀ key ws, withdrawalMap.get? key = some ws → ∀ w ∈ ws,
      InInt32 w.deadlineBlock ∧ w.propertyId < 2 ^ 32) :
    loadFile inputWithdrawalsString hash verifyHash
        (lineFile hash (writeMpWithdrawals withdrawalMap)) ∅ = .ok (0, withdrawalMap) ↔
      withdrawalMap = ∅ ∨ ∃ key w, withdrawalMap = .set ∅ key [w] ∧ w.Clean key ∧
        key.head? ≠ some '#' ∧ key.head? ≠ some '!' ∧ w.amount.toNat < 2 ^ 63 := by
  have hone : ∀ key w, writeMpWithdrawals (.set ∅ key [w]) = withdrawalText key w := by
    intro key w
    rw [writeMpWithdrawals, toList_set_empty, List.flatMap_singleton, List.flatMap_singleton]
  have hget : ∀ key w, withdrawalMap = .set ∅ key [w] →
      InInt32 w.deadlineBlock ∧ w.propertyId < 2 ^ 32 := by
    rintro key w rfl
    exact htyped key [w] (by rw [OrderedMap.get?_set, if_pos rfl]) w List.mem_cons_self
  constructor
  · intro h
    have hclean : ∀ key ws, withdrawalMap.get? key = some ws → ∀ w ∈ ws, w.Clean key := by
      apply loadFile_invariant
        (P := fun m => ∀ key ws, m.get? key = some ws → ∀ w ∈ ws, w.Clean key) _ _ h
      · intro key ws hws
        cases hws
      · intro line m m' rc hline hm hinput key' ws hws
        rcases withdrawal_of_input hline hinput with rfl | ⟨key, w, hw, rfl⟩
        · exact hm key' ws hws
        · rw [OrderedMap.get?_set] at hws
          split_ifs at hws with hkey
          · cases hws
            intro w' hw'
            rw [List.mem_singleton.mp hw', hkey]
            exact hw
          · exact hm key' ws hws
    have hfeeds : ∀ c ∈ writeMpWithdrawals withdrawalMap, c ≠ '\r' ∧ c ≠ '\n' := by
      intro c hc
      obtain ⟨e, he, hce⟩ := List.mem_flatMap.mp hc
      obtain ⟨w, hw, hcw⟩ := List.mem_flatMap.mp hce
      exact feeds_fieldLine (hclean e.1 e.2 (OrderedMap.get?_eq_some.mpr he) w hw).fields.1 c hcw
    rcases input_of_loadFile hfeeds h with hempty | ⟨hplain, rc, hinput⟩
    · exact .inl hempty
    · rcases withdrawal_of_input hfeeds hinput with hempty | ⟨key, w, hw, heq⟩
      · exact .inl hempty
      · obtain ⟨hdeadline, hid⟩ := hget key w heq
        rw [heq, hone] at hplain hinput
        rw [inputWithdrawalsString_text hw hdeadline hid] at hinput
        obtain ⟨hcomment, hhashStart⟩ := (plainLine_iff hw.fields.1).mp hplain
        split_ifs at hinput with hamount
        exact .inr ⟨key, w, heq, hw, hcomment, hhashStart, hamount⟩
  · rintro (rfl | ⟨key, w, rfl, hw, hcomment, hhashStart, hamount⟩)
    · exact loadFile_nil hhash
    · obtain ⟨hdeadline, hid⟩ := hget key w rfl
      have hinput := inputWithdrawalsString_text hw hdeadline hid
      rw [if_pos hamount] at hinput
      rw [hone]
      exact loadFile_of_input hhash (feeds_fieldLine hw.fields.1)
        ((plainLine_iff hw.fields.1).mpr ⟨hcomment, hhashStart⟩) hinput

end Withdrawals

/-- The parts of the state that belong to channels and to the fees of contracts. -/
structure ChannelState where
  channelsMap : ChannelsMap
  withdrawalMap : WithdrawalMap
  cachefees : OrderedMap PropertyId Int

namespace ChannelState

variable {s : ChannelState}

structure Typed (s : ChannelState) : Prop where
  channels : ∀ key c, s.channelsMap.get? key = some c →
    InInt32 c.expiryHeight ∧ InInt32 c.lastExchangeBlock
  withdrawals : ∀ key ws, s.withdrawalMap.get? key = some ws → ∀ w ∈ ws,
    InInt32 w.deadlineBlock ∧ w.propertyId < 2 ^ 32
  cachefees : ∀ p n, s.cachefees.get? p = some n → p < 2 ^ 32 ∧ -2 ^ 63 ≤ n ∧ n < 2 ^ 63

structure Survives (s : ChannelState) (hash : List Char → List Char) (verifyHash : Bool) :
    Prop where
  channels : loadFile inputActivechannelsString hash verifyHash
    (lineFile hash (writeMpActiveChannels s.channelsMap)) ∅ = .ok (0, s.channelsMap)
  withdrawals : loadFile inputWithdrawalsString hash verifyHash
    (lineFile hash (writeMpWithdrawals s.withdrawalMap)) ∅ = .ok (0, s.withdrawalMap)
  cachefees : loadFile inputCachefeesString hash verifyHash
    (lineFile hash (writeMpCachefees s.cachefees)) ∅ = .ok (0, s.cachefees)

structure SingleRecords (s : ChannelState) : Prop where
  channels : s.channelsMap = ∅ ∨ ∃ key c, s.channelsMap = .set ∅ key c ∧ c.Clean key ∧
    key.head? ≠ some '#' ∧ key.head? ≠ some '!'
  withdrawals : s.withdrawalMap = ∅ ∨ ∃ key w, s.withdrawalMap = .set ∅ key [w] ∧ w.Clean key ∧
    key.head? ≠ some '#' ∧ key.head? ≠ some '!' ∧ w.amount.toNat < 2 ^ 63
  cachefees : s.cachefees = ∅ ∨ ∃ p n, s.cachefees = .set ∅ p n

/-- The channels, the withdrawals and the fees survive a restart when there is at most one record
of each kind. -/
theorem survives_iff_singleRecords (hs : s.Typed) (hhash : ∀ text, '\r' ∉ hash text) :
    s.Survives hash verifyHash ↔ s.SingleRecords := by
  constructor
  · intro h
    exact ⟨(channels_survive_iff hhash hs.channels).mp h.channels,
      (withdrawals_survive_iff hhash hs.withdrawals).mp h.withdrawals,
      (cachefees_survive_iff hhash hs.cachefees).mp h.cachefees⟩
  · intro h
    exact ⟨(channels_survive_iff hhash hs.channels).mpr h.channels,
      (withdrawals_survive_iff hhash hs.withdrawals).mpr h.withdrawals,
      (cachefees_survive_iff hhash hs.cachefees).mpr h.cachefees⟩

def sampleSingle : ChannelState where
  channelsMap := .set ∅ ['c'] ⟨['m'], ['a'], ['b'], 120, 0⟩
  withdrawalMap := .set ∅ ['c'] [⟨['a'], 107, 3, 5⟩]
  cachefees := .set ∅ 4 9

theorem typed_sampleSingle : sampleSingle.Typed where
  channels := by
    intro key c h
    rw [sampleSingle, OrderedMap.get?_set] at h
    split_ifs at h
    · cases h
      decide
    · cases h
  withdrawals := by
    intro key ws h
    rw [sampleSingle, OrderedMap.get?_set] at h
    split_ifs at h
    · cases h
      decide
    · cases h
  cachefees := by
    intro p n h
    rw [sampleSingle, OrderedMap.get?_set] at h
    split_ifs at h with hp
    · cases h
      rw [hp]
      decide
    · cases h

theorem survives_of_sampleSingle : sampleSingle.Survives lengthHash true := by
  refine (survives_iff_singleRecords typed_sampleSingle feed_not_mem_lengthHash).mpr ⟨?_, ?_, ?_⟩
  · exact .inr ⟨_, _, rfl, by decide, by decide, by decide⟩
  · exact .inr ⟨_, _, rfl, by decide, by decide, by decide, by decide⟩
  · exact .inr ⟨_, _, rfl⟩

def sampleDouble : ChannelState where
  channelsMap := .set (.set ∅ ['c'] ⟨['m'], ['a'], ['b'], 120, 0⟩) ['d']
    ⟨['m'], ['a'], ['b'], 130, 0⟩
  withdrawalMap := .set ∅ ['c'] [⟨['a'], 107, 3, 5⟩, ⟨['b'], 108, 3, 6⟩]
  cachefees := .set (.set ∅ 4 9) 5 7

/-- The records of each kind run into each other: the fees of the first contract are read as 95,
and the number after the first withdrawal or channel is no number any more. -/
theorem not_survives_of_sampleDouble :
    writeMpCachefees sampleDouble.cachefees = ['4', ',', '9', '5', ',', '7'] ∧
      loadFile inputCachefeesString lengthHash true
        (lineFile lengthHash (writeMpCachefees sampleDouble.cachefees)) ∅ =
          .ok (0, .set ∅ 4 95) ∧
      loadFile inputWithdrawalsString lengthHash true
        (lineFile lengthHash (writeMpWithdrawals sampleDouble.withdrawalMap)) ∅ =
          .error .badLexicalCast ∧
      loadFile inputActivechannelsString lengthHash true
        (lineFile lengthHash (writeMpActiveChannels sampleDouble.channelsMap)) ∅ =
          .error .badLexicalCast ∧
      ¬ sampleDouble.Survives lengthHash true := by
  have hwithdrawals : loadFile inputWithdrawalsString lengthHash true
      (lineFile lengthHash (writeMpWithdrawals sampleDouble.withdrawalMap)) ∅ =
        .error .badLexicalCast := by decide +kernel
  refine ⟨by decide +kernel, by decide +kernel, hwithdrawals, by decide +kernel, ?_⟩
  intro h
  have hload := h.withdrawals
  rw [hwithdrawals] at hload
  cases hload

end ChannelState

end TradeLayer
