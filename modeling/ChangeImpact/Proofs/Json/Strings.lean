import ChangeImpact.Json.Printer
import ChangeImpact.Json.Reader
import ChangeImpact.Proofs.Text.Blank

/-!
# Strings in documents

A string is printed with ASCII alone and is read back as it was (`readString_printed`).  Quotation marks,
backslashes and some control characters have short escapes, all other characters outside of ASCII are
written by their UTF-16 units: one unit, or the two halves of a pair, which the reader puts together again
(`stringStep_escapeChar`).
-/

namespace ChangeImpact

namespace Text

theorem hexValue?_hexDigit : ∀ n < 16, hexValue? (hexDigit n) = some n := by decide

end Text

namespace Json

variable {opening unit : Nat} {c : Char} {tail : List Char}

/-! ## Escapes of units -/

/-- The four digits of a unit. -/
theorem exists_hexDigits (hunit : unit < 0x10000) :
    ∃ a b c d, Text.hexDigits 4 unit = [a, b, c, d] ∧ hexUnit? a b c d = some unit := by
  refine ⟨Text.hexDigit (unit / 16 / 16 / 16 % 16), Text.hexDigit (unit / 16 / 16 % 16),
    Text.hexDigit (unit / 16 % 16), Text.hexDigit (unit % 16), rfl, ?_⟩
  have hdigit : ∀ n, Text.hexValue? (Text.hexDigit (n % 16)) = some (n % 16) := fun n =>
    Text.hexValue?_hexDigit _ (Nat.mod_lt n (by decide))
  have hvalue : (((unit / 16 / 16 / 16 % 16) * 16 + unit / 16 / 16 % 16) * 16 + unit / 16 % 16) * 16 +
      unit % 16 = unit := by omega
  simp only [hexUnit?, hdigit, Option.bind_eq_bind, Option.bind_some, Option.pure_def, hvalue]

/-- A unit that is no first half of a pair is read as the code point with its number. -/
theorem stringStep_escapeUnit (hunit : unit < 0x10000) (hwhole : unit < 0xd800 ∨ 0xdc00 ≤ unit)
    (htail : tail ≠ []) :
    stringStep opening (escapeUnit unit ++ tail) = .point unit tail := by
  obtain ⟨a, b, c, d, hdigits, hvalue⟩ := exists_hexDigits hunit
  have hhigh : isHighSurrogate unit = false := by
    simp only [isHighSurrogate, Bool.and_eq_false_iff, decide_eq_false_iff_not]
    omega
  rw [escapeUnit, hdigits]
  simp [stringStep, unicodeStep, hvalue, hhigh, htail]

/-- The two halves of a pair are read as one code point. -/
theorem stringStep_escapePair {high low : Nat} (hhigh : 0xd800 ≤ high ∧ high < 0xdc00)
    (hlow : 0xdc00 ≤ low ∧ low < 0xe000) (htail : tail ≠ []) :
    stringStep opening (escapeUnit high ++ escapeUnit low ++ tail) =
      .point (0x10000 + (high - 0xd800) * 0x400 + (low - 0xdc00)) tail := by
  obtain ⟨a, b, c, d, hdigits, hvalue⟩ := exists_hexDigits (show high < 0x10000 by omega)
  obtain ⟨a', b', c', d', hdigits', hvalue'⟩ := exists_hexDigits (show low < 0x10000 by omega)
  have hhighHalf : isHighSurrogate high = true := by simp [isHighSurrogate, hhigh]
  have hlowHalf : isLowSurrogate low = true := by simp [isLowSurrogate, hlow]
  obtain ⟨next, rest, rfl⟩ := List.exists_cons_of_ne_nil htail
  rw [escapeUnit, escapeUnit, hdigits, hdigits']
  simp [stringStep, unicodeStep, secondUnit, hvalue, hvalue', hhighHalf, hlowHalf]

/-! ## Characters -/

theorem eq_ofNat_of_toNat {n : Nat} (h : c.toNat = n) : c = Char.ofNat n := by
  rw [← h, Char.ofNat_toNat]

/-- A character that is printed as it is, is no quotation mark and no backslash. -/
theorem stringStep_plain (hquote : c ≠ '"') (hbackslash : c ≠ '\\') (hprintable : 0x20 ≤ c.toNat) :
    stringStep opening (c :: tail) = .point c.toNat tail := by
  rw [stringStep.eq_def]
  split
  · contradiction
  · simp_all
  · simp_all
  · simp_all
  · simp_all
  · rename_i heq
    cases heq
    rw [if_neg (by omega)]

/-- The letters that stand for a character after a backslash, each with its character. -/
def shortEscapes : List (Char × Char) :=
  [('"', '"'), ('\\', '\\'), ('n', '\n'), ('r', '\r'), ('t', '\t'), ('f', Char.ofNat 0x0c),
    ('b', Char.ofNat 0x08)]

/-- How a character is printed. -/
inductive Escaped (c : Char) : List Char → Prop
  /-- A letter after a backslash stands for it. -/
  | short {letter : Char} (hletter : (letter, c) ∈ shortEscapes) : Escaped c ['\\', letter]
  /-- It stands for itself. -/
  | plain (hquote : c ≠ '"') (hbackslash : c ≠ '\\') (hprintable : 0x20 ≤ c.toNat ∧ c.toNat ≤ 0x7e) : Escaped c [c]
  /-- It is a single unit. -/
  | unit (hunit : c.toNat < 0x10000) : Escaped c (escapeUnit c.toNat)
  /-- It is split between the two halves of a pair. -/
  | pair (hlarge : 0x10000 ≤ c.toNat) : Escaped c (escapeUnit (0xd800 + (c.toNat - 0x10000) / 0x400) ++
      escapeUnit (0xdc00 + (c.toNat - 0x10000) % 0x400))

theorem escaped_escapeChar (c : Char) : Escaped c (escapeChar c) := by
  unfold escapeChar
  split
  · subst c
    exact .short (by decide)
  split
  · subst c
    exact .short (by decide)
  split
  · subst c
    exact .short (by decide)
  split
  · subst c
    exact .short (by decide)
  split
  · subst c
    exact .short (by decide)
  split
  · rename_i hcode
    rw [eq_ofNat_of_toNat hcode]
    exact .short (by decide)
  split
  · rename_i hcode
    rw [eq_ofNat_of_toNat hcode]
    exact .short (by decide)
  split
  · rename_i hquote hbackslash _ _ _ _ _ hprintable
    exact .plain hquote hbackslash hprintable
  split
  · rename_i hunit
    exact .unit hunit
  · rename_i hlarge
    exact .pair (Nat.not_lt.mp hlarge)

/-- A letter after a backslash is read as the character that it stands for. -/
theorem stringStep_short {letter : Char} (hletter : (letter, c) ∈ shortEscapes) :
    stringStep opening (['\\', letter] ++ tail) = .point c.toNat tail := by
  simp only [shortEscapes, List.mem_cons, List.not_mem_nil, or_false, Prod.mk.injEq] at hletter
  rcases hletter with ⟨rfl, rfl⟩ | ⟨rfl, rfl⟩ | ⟨rfl, rfl⟩ | ⟨rfl, rfl⟩ | ⟨rfl, rfl⟩ | ⟨rfl, rfl⟩ | ⟨rfl, rfl⟩
  all_goals rfl

/-- Every character is read back from what is printed for it. -/
theorem stringStep_escapeChar (c : Char) (htail : tail ≠ []) :
    stringStep opening (escapeChar c ++ tail) = .point c.toNat tail := by
  have hvalid : c.toNat < 0xd800 ∨ 0xdfff < c.toNat ∧ c.toNat < 0x110000 := c.valid
  have hescaped := escaped_escapeChar c
  generalize escapeChar c = printed at hescaped
  cases hescaped with
  | short hletter => exact stringStep_short hletter
  | plain hquote hbackslash hprintable => exact stringStep_plain hquote hbackslash hprintable.1
  | unit hunit => exact stringStep_escapeUnit hunit (by omega) htail
  | pair hlarge =>
      -- the code point is split between the two halves
      have hhigh : 0xd800 ≤ 0xd800 + (c.toNat - 0x10000) / 0x400 ∧
          0xd800 + (c.toNat - 0x10000) / 0x400 < 0xdc00 := by omega
      have hlow : 0xdc00 ≤ 0xdc00 + (c.toNat - 0x10000) % 0x400 ∧
          0xdc00 + (c.toNat - 0x10000) % 0x400 < 0xe000 := by omega
      have hcode : 0x10000 + (0xd800 + (c.toNat - 0x10000) / 0x400 - 0xd800) * 0x400 +
          (0xdc00 + (c.toNat - 0x10000) % 0x400 - 0xdc00) = c.toNat := by omega
      rw [stringStep_escapePair hhigh hlow htail, hcode]

/-- A character between the blank and the tilde. -/
def Visible (c : Char) : Prop :=
  0x20 ≤ c.toNat ∧ c.toNat ≤ 0x7e

instance (c : Char) : Decidable (Visible c) :=
  inferInstanceAs (Decidable (_ ∧ _))

theorem visible_of_mem_escapeUnit {printed : Char} (h : printed ∈ escapeUnit unit) :
    Visible printed := by
  have hdigits : ∀ n < 16, Visible (Text.hexDigit n) := by decide
  have hdigit : ∀ n, Visible (Text.hexDigit (n % 16)) := fun n =>
    hdigits _ (Nat.mod_lt n (by decide))
  simp only [escapeUnit, Text.hexDigits, List.nil_append, List.cons_append, List.mem_cons,
    List.not_mem_nil, or_false] at h
  rcases h with rfl | rfl | rfl | rfl | rfl | rfl
  · decide
  · decide
  · exact hdigit _
  · exact hdigit _
  · exact hdigit _
  · exact hdigit _

theorem visible_of_mem_escapeChar {printed : Char} (h : printed ∈ escapeChar c) :
    Visible printed := by
  have hescaped := escaped_escapeChar c
  generalize escapeChar c = characters at h hescaped
  cases hescaped with
  | @short letter hletter =>
      have hvisible : ∀ entry ∈ shortEscapes, Visible entry.1 := by decide
      rw [List.mem_cons, List.mem_singleton] at h
      rcases h with rfl | rfl
      · decide
      · exact hvisible _ hletter
  | plain hquote hbackslash hprintable =>
      rw [List.mem_singleton.mp h]
      exact hprintable
  | unit hunit => exact visible_of_mem_escapeUnit h
  | pair hlarge => exact (List.mem_append.mp h).elim visible_of_mem_escapeUnit visible_of_mem_escapeUnit

theorem visible_of_mem_printString {printed : Char} {s : String} (h : printed ∈ printString s) :
    Visible printed := by
  simp only [printString, List.mem_append, List.mem_cons, List.mem_flatMap, List.not_mem_nil,
    or_false] at h
  rcases h with (rfl | ⟨c, -, hmem⟩) | rfl
  · decide
  · exact visible_of_mem_escapeChar hmem
  · decide

theorem visible_of_mem_printHalved {printed : Char} {text : HalvedText} (h : printed ∈ printHalved text) :
    Visible printed := by
  simp only [printHalved, List.mem_append, List.mem_cons, List.mem_flatMap, List.not_mem_nil,
    or_false] at h
  rcases h with (rfl | ⟨point, -, hmem⟩) | rfl
  · decide
  · split at hmem
    · exact visible_of_mem_escapeUnit hmem
    · exact visible_of_mem_escapeChar hmem
  · decide

/-! ## Whole strings -/

theorem readStringFrom_of_point {point : Nat} {sofar : List Nat} {text : List Char}
    (hstep : stringStep opening text = .point point tail) :
    readStringFrom opening sofar text = readStringFrom opening (point :: sofar) tail := by
  rw [readStringFrom.eq_def]
  split
  · simp_all
  · rename_i heq
    rw [hstep] at heq
    cases heq
    rfl
  · simp_all

theorem readStringFrom_of_close {sofar : List Nat} {text : List Char}
    (hstep : stringStep opening text = .close tail) :
    readStringFrom opening sofar text = .ok (.ofPoints sofar.reverse, tail) := by
  rw [readStringFrom.eq_def]
  split
  · rename_i heq
    rw [hstep] at heq
    cases heq
    rfl
  · simp_all
  · simp_all

theorem readStringFrom_escaped (s : List Char) (sofar : List Nat) :
    readStringFrom opening sofar (s.flatMap escapeChar ++ '"' :: tail) =
      .ok (.ofPoints (sofar.reverse ++ s.map Char.toNat), tail) := by
  induction s generalizing sofar with
  | nil =>
      rw [List.flatMap_nil, List.nil_append, readStringFrom_of_close rfl, List.map_nil, List.append_nil]
  | cons c s ih =>
      have hstep : stringStep opening ((c :: s).flatMap escapeChar ++ '"' :: tail) =
          .point c.toNat (s.flatMap escapeChar ++ '"' :: tail) := by
        rw [List.flatMap_cons, List.append_assoc]
        exact stringStep_escapeChar c (by simp)
      rw [readStringFrom_of_point hstep, ih]
      simp

/-- No character is half of a pair. -/
theorem isHalf_toNat (c : Char) : Text.isHalf c.toNat = false := by
  have hvalid : c.toNat < 0xd800 ∨ 0xdfff < c.toNat ∧ c.toNat < 0x110000 := c.valid
  simp only [Text.isHalf, Bool.and_eq_false_iff, decide_eq_false_iff_not]
  omega

/-- The code points of characters are those of a string. -/
theorem ofPoints_map_toNat (s : List Char) : Wording.ofPoints (s.map Char.toNat) = .whole (String.ofList s) := by
  have hwhole : ¬ (s.map Char.toNat).any Text.isHalf = true := by
    simp [List.any_map, isHalf_toNat]
  rw [Wording.ofPoints, dif_neg hwhole, List.map_map]
  congr
  exact List.map_id'' Char.ofNat_toNat s

/-- A printed string is read back, after its opening quotation mark. -/
theorem readString_printed (s : String) (tail : List Char) :
    readString (s.toList.flatMap escapeChar ++ '"' :: tail) = .ok (.whole s, tail) := by
  rw [readString, readStringFrom_escaped, List.reverse_nil, List.nil_append, ofPoints_map_toNat,
    String.ofList_toList]

theorem printString_append (s : String) (tail : List Char) :
    printString s ++ tail = '"' :: (s.toList.flatMap escapeChar ++ '"' :: tail) := by
  simp [printString]

end Json
end ChangeImpact
