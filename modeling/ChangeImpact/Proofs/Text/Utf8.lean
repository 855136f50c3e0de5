import ChangeImpact.Text.Utf8
import Mathlib.Data.List.Basic
import Mathlib.Data.List.TakeWhile

/-!
# Bytes and texts

Bytes are read as a text exactly if they are the bytes of this text (`decode_eq_ok_iff`).  So a text is read as
it was written, and bytes that were written for no text are refused.

The statement is first one about a single character (`utf8EncodeChar_eq_cons_iff`).  Its first byte and those
that continue it make a number; the ranges that a first byte sets for the second one keep out numbers that fewer
bytes would do for, the surrogates, and what is above the last character.
-/

namespace ChangeImpact.Text.Utf8

variable {c : Char} {text : List Char} {first : UInt8} {tails rest bytes : List UInt8} {lead : Lead}

/-! ## Bytes that continue a character -/

/-- Bytes continue a character as its first byte demands. -/
structure Lead.Continued (lead : Lead) (tails : List UInt8) : Prop where
  length : tails.length = lead.owed
  second : ∀ next, tails.head? = some next → lead.least ≤ next.toNat ∧ next.toNat ≤ lead.greatest
  later : ∀ byte ∈ tails.tail, isTail byte = true

/-- Nothing has to follow a byte that is a character of its own. -/
theorem Lead.continued_nil (h : lead.owed = 0) : lead.Continued [] :=
  ⟨h.symm, nofun, nofun⟩

theorem Lead.Continued.tails_append (h : lead.Continued tails) (rest : List UInt8) :
    lead.tails (tails ++ rest) = tails := by
  obtain ⟨hlength, hsecond, hlater⟩ := h
  cases tails with
  | nil =>
      rw [List.length_nil] at hlength
      cases rest with
      | nil => rfl
      | cons next more => simp [Lead.tails, ← hlength]
  | cons next more =>
      have howed : lead.owed - 1 = more.length := by rw [← hlength]; rfl
      rw [List.tail_cons, ← List.takeWhile_eq_self_iff] at hlater
      rw [List.cons_append, Lead.tails, if_pos ⟨by rw [← hlength]; exact Nat.succ_ne_zero _, hsecond next rfl⟩,
        howed, List.take_left, hlater]

theorem Lead.continued_tails (h : (lead.tails rest).length = lead.owed) :
    lead.Continued (lead.tails rest) ∧ rest = lead.tails rest ++ rest.drop lead.owed := by
  cases rest with
  | nil => exact ⟨Lead.continued_nil h.symm, by simp [Lead.tails]⟩
  | cons next more =>
      rw [Lead.tails] at h ⊢
      split at h
      · rename_i hnext
        rw [if_pos hnext]
        obtain ⟨count, hcount⟩ := Nat.exists_eq_succ_of_ne_zero hnext.1
        rw [hcount, Nat.succ_sub_one] at h ⊢
        have hwhole : (more.take count).takeWhile isTail = more.take count := by
          rw [List.length_cons, Nat.succ_inj] at h
          exact (List.takeWhile_prefix _).eq_of_length_le ((List.length_take_le _ _).trans h.ge)
        rw [hwhole] at h ⊢
        refine ⟨⟨by rw [hcount]; exact h, ?_, ?_⟩, by simp⟩
        · rintro _ ⟨⟩
          exact hnext.2
        · exact List.takeWhile_eq_self_iff.mp hwhole
      · rename_i hnext
        rw [if_neg hnext]
        have howed : lead.owed = 0 := h.symm
        exact ⟨Lead.continued_nil howed, by rw [howed]; rfl⟩

/-! ## One character -/

/-- What a first byte says, by the number of bytes that follow. -/
theorem lead?_eq_some_iff : lead? first = some lead ↔
    (first.toNat < 0x80 ∧ lead.value = first.toNat ∧ lead.owed = 0 ∧ lead.least = 0x80 ∧
      lead.greatest = 0xbf) ∨
    (0xc2 ≤ first.toNat ∧ first.toNat < 0xe0 ∧ lead.value = first.toNat - 0xc0 ∧ lead.owed = 1 ∧
      lead.least = 0x80 ∧ lead.greatest = 0xbf) ∨
    (0xe0 ≤ first.toNat ∧ first.toNat < 0xf0 ∧ lead.value = first.toNat - 0xe0 ∧ lead.owed = 2 ∧
      lead.least = (if first.toNat = 0xe0 then 0xa0 else 0x80) ∧
      lead.greatest = if first.toNat = 0xed then 0x9f else 0xbf) ∨
    (0xf0 ≤ first.toNat ∧ first.toNat < 0xf5 ∧ lead.value = first.toNat - 0xf0 ∧ lead.owed = 3 ∧
      lead.least = (if first.toNat = 0xf0 then 0x90 else 0x80) ∧
      lead.greatest = if first.toNat = 0xf4 then 0x8f else 0xbf) := by
  unfold lead?
  dsimp only
  cases lead
  grind

theorem toNat_range (c : Char) : c.toNat < 0xd800 ∨ 0xdfff < c.toNat ∧ c.toNat < 0x110000 :=
  c.valid

theorem toNat_ofNat {n : Nat} (h : n < 0x100) : (UInt8.ofNat n).toNat = n :=
  UInt8.toNat_ofNat_of_lt' h

theorem ofNat_eq_of_toNat {n : Nat} {byte : UInt8} (h : n < 0x100) (hbyte : byte.toNat = n) :
    UInt8.ofNat n = byte := by
  rw [← UInt8.toNat_inj, toNat_ofNat h, hbyte]

theorem isTail_iff {byte : UInt8} : isTail byte = true ↔ 0x80 ≤ byte.toNat ∧ byte.toNat ≤ 0xbf := by
  rw [isTail, Bool.and_eq_true, decide_eq_true_iff, decide_eq_true_iff]

/-- The bytes of a character, by its number. -/
theorem utf8EncodeChar_eq_iff : String.utf8EncodeChar c = bytes ↔
    (c.toNat < 0x80 ∧ ∃ first, bytes = [first] ∧ first.toNat = c.toNat) ∨
    (0x80 ≤ c.toNat ∧ c.toNat < 0x800 ∧ ∃ first second, bytes = [first, second] ∧
      first.toNat = c.toNat / 0x40 + 0xc0 ∧ second.toNat = c.toNat % 0x40 + 0x80) ∨
    (0x800 ≤ c.toNat ∧ c.toNat < 0x10000 ∧ ∃ first second third, bytes = [first, second, third] ∧
      first.toNat = c.toNat / 0x1000 + 0xe0 ∧ second.toNat = c.toNat / 0x40 % 0x40 + 0x80 ∧
      third.toNat = c.toNat % 0x40 + 0x80) ∨
    (0x10000 ≤ c.toNat ∧ ∃ first second third fourth, bytes = [first, second, third, fourth] ∧
      first.toNat = c.toNat / 0x40000 + 0xf0 ∧ second.toNat = c.toNat / 0x1000 % 0x40 + 0x80 ∧
      third.toNat = c.toNat / 0x40 % 0x40 + 0x80 ∧ fourth.toNat = c.toNat % 0x40 + 0x80) := by
  have hrange := toNat_range c
  have hnat : c.val.toNat = c.toNat := rfl
  rw [String.utf8EncodeChar, hnat]
  generalize c.toNat = number at hrange
  constructor
  · intro h
    split_ifs at h with hone htwo hthree
    · exact .inl ⟨by omega, _, h.symm, by rw [toNat_ofNat (by omega)]⟩
    · refine .inr (.inl ⟨by omega, by omega, _, _, h.symm, ?_, ?_⟩)
      all_goals rw [toNat_ofNat (by omega)]
      all_goals omega
    · refine .inr (.inr (.inl ⟨by omega, by omega, _, _, _, h.symm, ?_, ?_, ?_⟩))
      all_goals rw [toNat_ofNat (by omega)]
      all_goals omega
    · refine .inr (.inr (.inr ⟨by omega, _, _, _, _, h.symm, ?_, ?_, ?_, ?_⟩))
      all_goals rw [toNat_ofNat (by omega)]
      all_goals omega
  · rintro (⟨hnumber, first, rfl, hfirst⟩ | ⟨hleast, hnumber, first, second, rfl, hfirst, hsecond⟩ |
      ⟨hleast, hnumber, first, second, third, rfl, hfirst, hsecond, hthird⟩ |
      ⟨hleast, first, second, third, fourth, rfl, hfirst, hsecond, hthird, hfourth⟩)
    · rw [if_pos (by omega), ofNat_eq_of_toNat (by omega) hfirst]
    · rw [if_neg (by omega), if_pos (by omega), ofNat_eq_of_toNat (by omega) (by omega : first.toNat = _),
        ofNat_eq_of_toNat (by omega) hsecond]
    · rw [if_neg (by omega), if_neg (by omega), if_pos (by omega),
        ofNat_eq_of_toNat (by omega) (by omega : first.toNat = _), ofNat_eq_of_toNat (by omega) hsecond,
        ofNat_eq_of_toNat (by omega) hthird]
    · rw [if_neg (by omega), if_neg (by omega), if_neg (by omega),
        ofNat_eq_of_toNat (by omega) (by omega : first.toNat = _), ofNat_eq_of_toNat (by omega) hsecond,
        ofNat_eq_of_toNat (by omega) hthird, ofNat_eq_of_toNat (by omega) hfourth]

theorem toNat_char {n : Nat} (hn : n < 0xd800 ∨ 0xdfff < n ∧ n < 0x110000) : (Char.ofNat n).toNat = n := by
  rw [Char.ofNat, dif_pos hn]
  rfl

theorem exists_lead_of_utf8EncodeChar (h : String.utf8EncodeChar c = first :: tails) :
    ∃ lead, lead? first = some lead ∧ lead.Continued tails ∧ lead.char tails = c := by
  have hrange := toNat_range c
  have hchar : ∀ {n}, n = c.toNat → Char.ofNat n = c := fun heq => heq ▸ Char.ofNat_toNat c
  rcases utf8EncodeChar_eq_iff.mp h with ⟨hnumber, _, ⟨⟩, hfirst⟩ |
    ⟨hleast, hnumber, _, second, ⟨⟩, hfirst, hsecond⟩ |
    ⟨hleast, hnumber, _, second, third, ⟨⟩, hfirst, hsecond, hthird⟩ |
    ⟨hleast, _, second, third, fourth, ⟨⟩, hfirst, hsecond, hthird, hfourth⟩
  · refine ⟨⟨first.toNat, 0, 0x80, 0xbf⟩, ?_, Lead.continued_nil rfl, hchar hfirst⟩
    exact lead?_eq_some_iff.mpr (.inl ⟨by omega, rfl, rfl, rfl, rfl⟩)
  · refine ⟨⟨first.toNat - 0xc0, 1, 0x80, 0xbf⟩, ?_, ⟨rfl, ?_, nofun⟩, hchar ?_⟩
    · exact lead?_eq_some_iff.mpr (.inr (.inl ⟨by omega, by omega, rfl, rfl, rfl, rfl⟩))
    · rintro _ ⟨⟩
      show 0x80 ≤ second.toNat ∧ second.toNat ≤ 0xbf
      omega
    · show 64 * (first.toNat - 0xc0) + (second.toNat - 0x80) = c.toNat
      omega
  · refine ⟨⟨first.toNat - 0xe0, 2, if first.toNat = 0xe0 then 0xa0 else 0x80,
      if first.toNat = 0xed then 0x9f else 0xbf⟩, ?_, ⟨rfl, ?_, ?_⟩, hchar ?_⟩
    · exact lead?_eq_some_iff.mpr (.inr (.inr (.inl ⟨by omega, by omega, rfl, rfl, rfl, rfl⟩)))
    · rintro _ ⟨⟩
      dsimp only
      split_ifs <;> omega
    · rw [List.tail_cons, List.forall_mem_singleton, isTail_iff]
      omega
    · show 64 * (64 * (first.toNat - 0xe0) + (second.toNat - 0x80)) + (third.toNat - 0x80) = c.toNat
      omega
  · refine ⟨⟨first.toNat - 0xf0, 3, if first.toNat = 0xf0 then 0x90 else 0x80,
      if first.toNat = 0xf4 then 0x8f else 0xbf⟩, ?_, ⟨rfl, ?_, ?_⟩, hchar ?_⟩
    · exact lead?_eq_some_iff.mpr (.inr (.inr (.inr ⟨by omega, by omega, rfl, rfl, rfl, rfl⟩)))
    · rintro _ ⟨⟩
      dsimp only
      split_ifs <;> omega
    · rw [List.tail_cons, List.forall_mem_cons, List.forall_mem_singleton, isTail_iff, isTail_iff]
      omega
    · show 64 * (64 * (64 * (first.toNat - 0xf0) + (second.toNat - 0x80)) + (third.toNat - 0x80)) +
        (fourth.toNat - 0x80) = c.toNat
      omega

/-- The bytes of a character are its first byte and those that the first one demands. -/
theorem utf8EncodeChar_eq_cons_iff : String.utf8EncodeChar c = first :: tails ↔
    ∃ lead, lead? first = some lead ∧ lead.Continued tails ∧ lead.char tails = c := by
  refine ⟨exists_lead_of_utf8EncodeChar, ?_⟩
  rintro ⟨lead, hlead, ⟨hlength, hsecond, hlater⟩, rfl⟩
  rw [utf8EncodeChar_eq_iff]
  rcases lead?_eq_some_iff.mp hlead with ⟨hfirst, hvalue, howed, -, -⟩ |
    ⟨hleast, hfirst, hvalue, howed, hlow, hhigh⟩ | ⟨hleast, hfirst, hvalue, howed, hlow, hhigh⟩ |
    ⟨hleast, hfirst, hvalue, howed, hlow, hhigh⟩
  · obtain rfl := List.length_eq_zero_iff.mp (hlength.trans howed)
    have hnumber : (lead.char []).toNat = first.toNat := by
      rw [Lead.char, List.foldl_nil, hvalue, toNat_char (by omega)]
    exact .inl ⟨by omega, first, rfl, hnumber.symm⟩
  · obtain ⟨second, rfl⟩ := List.length_eq_one_iff.mp (hlength.trans howed)
    obtain ⟨hsecondLow, hsecondHigh⟩ := hsecond second rfl
    have hnumber : (lead.char [second]).toNat = 64 * (first.toNat - 0xc0) + (second.toNat - 0x80) := by
      rw [Lead.char, List.foldl_cons, List.foldl_nil, hvalue, toNat_char (by omega)]
    exact .inr (.inl ⟨by omega, by omega, first, second, rfl, by omega, by omega⟩)
  · obtain ⟨second, third, rfl⟩ := List.length_eq_two.mp (hlength.trans howed)
    obtain ⟨hsecondLow, hsecondHigh⟩ := hsecond second rfl
    obtain ⟨hthirdLow, hthirdHigh⟩ := isTail_iff.mp (hlater third (by simp))
    rw [hlow] at hsecondLow
    rw [hhigh] at hsecondHigh
    have hnumber : (lead.char [second, third]).toNat =
        64 * (64 * (first.toNat - 0xe0) + (second.toNat - 0x80)) + (third.toNat - 0x80) := by
      rw [Lead.char, List.foldl_cons, List.foldl_cons, List.foldl_nil, hvalue, toNat_char]
      split_ifs at hsecondLow hsecondHigh <;> omega
    refine .inr (.inr (.inl ⟨?_, ?_, first, second, third, rfl, ?_, ?_, ?_⟩))
    all_goals split_ifs at hsecondLow hsecondHigh <;> omega
  · obtain ⟨second, third, fourth, rfl⟩ := List.length_eq_three.mp (hlength.trans howed)
    obtain ⟨hsecondLow, hsecondHigh⟩ := hsecond second rfl
    obtain ⟨hthirdLow, hthirdHigh⟩ := isTail_iff.mp (hlater third (by simp))
    obtain ⟨hfourthLow, hfourthHigh⟩ := isTail_iff.mp (hlater fourth (by simp))
    rw [hlow] at hsecondLow
    rw [hhigh] at hsecondHigh
    have hnumber : (lead.char [second, third, fourth]).toNat =
        64 * (64 * (64 * (first.toNat - 0xf0) + (second.toNat - 0x80)) + (third.toNat - 0x80)) +
          (fourth.toNat - 0x80) := by
      rw [Lead.char, List.foldl_cons, List.foldl_cons, List.foldl_cons, List.foldl_nil, hvalue, toNat_char]
      split_ifs at hsecondLow hsecondHigh <;> omega
    refine .inr (.inr (.inr ⟨?_, first, second, third, fourth, rfl, ?_, ?_, ?_, ?_⟩))
    all_goals split_ifs at hsecondLow hsecondHigh <;> omega

/-! ## Whole texts -/

theorem encode_cons (c : Char) (text : List Char) : encode (c :: text) = String.utf8EncodeChar c ++ encode text :=
  List.flatMap_cons

theorem utf8EncodeChar_ne_nil (c : Char) : String.utf8EncodeChar c ≠ [] :=
  List.ne_nil_of_length_pos (String.length_utf8EncodeChar c ▸ c.utf8Size_pos)

/-- Bytes that are those of a text start with the bytes of its first character. -/
theorem encode_eq_cons_iff : encode text = first :: rest ↔
    ∃ c others tails, text = c :: others ∧ String.utf8EncodeChar c = first :: tails ∧
      rest = tails ++ encode others := by
  cases text with
  | nil => simp [encode]
  | cons c others =>
      rw [encode_cons, List.append_eq_cons_iff]
      simp [utf8EncodeChar_ne_nil c]

/-- The bytes of a text start with a first byte, those that it demands, and the bytes of the text after it. -/
theorem encode_eq_cons_iff_exists_lead : encode text = first :: rest ↔
    ∃ lead others, lead? first = some lead ∧ (lead.tails rest).length = lead.owed ∧
      text = lead.char (lead.tails rest) :: others ∧ encode others = rest.drop lead.owed := by
  rw [encode_eq_cons_iff]
  constructor
  · rintro ⟨c, others, following, rfl, hc, rfl⟩
    obtain ⟨lead, hlead, hfollowing, rfl⟩ := utf8EncodeChar_eq_cons_iff.mp hc
    have htails : lead.tails (following ++ encode others) = following := hfollowing.tails_append _
    refine ⟨lead, others, hlead, ?_, ?_, ?_⟩
    · rw [htails, hfollowing.length]
    · rw [htails]
    · rw [← hfollowing.length, List.drop_left]
  · rintro ⟨lead, others, hlead, hlength, rfl, hothers⟩
    obtain ⟨hcontinued, hrest⟩ := Lead.continued_tails hlength
    have hchar := utf8EncodeChar_eq_cons_iff.mpr ⟨lead, hlead, hcontinued, rfl⟩
    rw [← hothers] at hrest
    exact ⟨_, others, lead.tails rest, rfl, hchar, hrest⟩

/-- Bytes are read as a text exactly if they are the bytes of the text, wherever they stand. -/
theorem decodeFrom_eq_ok_iff {position : Nat} : decodeFrom position bytes = .ok text ↔ encode text = bytes := by
  -- by the recursion of the reader, which drops the bytes of one character at a time
  fun_induction decodeFrom position bytes generalizing text with
  | case1 position =>
      cases text with
      | nil => exact iff_of_true rfl rfl
      | cons c others => exact iff_of_false nofun (by simp [encode_cons])
  | case2 position first rest hlead =>
      refine iff_of_false nofun fun h => ?_
      obtain ⟨lead, -, hsome, -⟩ := encode_eq_cons_iff_exists_lead.mp h
      rw [hlead] at hsome
      cases hsome
  | case3 position first rest lead hlead tails hlength =>
      rename_i ih
      constructor
      · intro h
        cases hmore : decodeFrom (position + 1 + lead.owed) (rest.drop lead.owed) with
        | error fault =>
            rw [hmore] at h
            cases h
        | ok others =>
            rw [hmore] at h
            cases h
            exact encode_eq_cons_iff_exists_lead.mpr ⟨lead, others, hlead, hlength, rfl, ih.mp hmore⟩
      · intro h
        obtain ⟨other, others, hsome, -, rfl, hmore⟩ := encode_eq_cons_iff_exists_lead.mp h
        obtain rfl : lead = other := Option.some.inj (hlead.symm.trans hsome)
        rw [ih.mpr hmore]
        rfl
  | case4 position first rest lead hlead tails hlength =>
      refine iff_of_false nofun fun h => ?_
      obtain ⟨other, -, hsome, hother, -⟩ := encode_eq_cons_iff_exists_lead.mp h
      obtain rfl : lead = other := Option.some.inj (hlead.symm.trans hsome)
      exact hlength hother

theorem decode_eq_ok_iff : decode bytes = .ok text ↔ encode text = bytes :=
  decodeFrom_eq_ok_iff

/-- A text is read as it was written. -/
theorem decode_encode (text : List Char) : decode (encode text) = .ok text :=
  decode_eq_ok_iff.mpr rfl

end ChangeImpact.Text.Utf8
