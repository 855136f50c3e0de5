import ChangeImpact.Proofs.Json.Strings
import Mathlib.Data.List.TakeDrop
import Mathlib.Data.List.TakeWhile

/-!
# Numbers in documents

A number ends where the text goes on with a comma or a line end, or does not go on (`Delimited`).  The
reader has no look-ahead beyond that, so it reads a number in a document as it reads the number alone
(`readNumber_append`, `readWord?_append`).  Whether it reads the number that was printed is a question about
this number only, and its answer holds wherever the number stands (`readValue_of_readChars`).  For integers
the answer is given: they are read back, unless they have more digits than the reader takes
(`readChars_integer`).
-/

namespace ChangeImpact.Json

variable {text tail rest : List Char} {value : Json}

/-- A text that does not go on with the number before it. -/
def Delimited (tail : List Char) : Prop :=
  ∀ c ∈ tail.head?, c = ',' ∨ c = '\n'

theorem Delimited.cases (htail : Delimited tail) :
    tail = [] ∨ (∃ rest, tail = ',' :: rest) ∨ ∃ rest, tail = '\n' :: rest := by
  cases tail with
  | nil => exact .inl rfl
  | cons c rest =>
      rcases htail c rfl with rfl | rfl
      · exact .inr (.inl ⟨rest, rfl⟩)
      · exact .inr (.inr ⟨rest, rfl⟩)

/-! ## The parts of a number -/

theorem spanDigits_append (htail : Delimited tail) :
    spanDigits (text ++ tail) = ((spanDigits text).1, (spanDigits text).2 ++ tail) := by
  unfold spanDigits
  simp only [List.span_eq_takeWhile_dropWhile]
  induction text with
  | nil =>
      rcases htail.cases with rfl | ⟨rest, rfl⟩ | ⟨rest, rfl⟩
      · rfl
      · rfl
      · rfl
  | cons c text ih =>
      rw [List.cons_append, List.takeWhile_cons, List.takeWhile_cons, List.dropWhile_cons,
        List.dropWhile_cons]
      split
      · rw [Prod.mk.injEq] at ih ⊢
        exact ⟨congrArg _ ih.1, ih.2⟩
      · rfl

theorem wholePart?_append (htail : Delimited tail) :
    wholePart? (text ++ tail) = (wholePart? text).map fun found => (found.1, found.2 ++ tail) := by
  have hdigits : ∀ text, (∀ rest, text ≠ '0' :: rest) → wholePart? text =
      if (spanDigits text).1.isEmpty then none else some (spanDigits text) := by
    intro text hzero
    unfold wholePart?
    split
    · exact absurd rfl (hzero _)
    · rfl
  -- after a zero at the start no further digits are read
  by_cases hzero : ∃ rest, text = '0' :: rest
  · obtain ⟨rest, rfl⟩ := hzero
    rfl
  · rw [not_exists] at hzero
    have hzero' : ∀ rest, text ++ tail ≠ '0' :: rest := by
      intro rest heq
      cases text with
      | nil => rcases htail.cases with rfl | ⟨rest, rfl⟩ | ⟨rest, rfl⟩ <;> simp at heq
      | cons c text => exact hzero text (by rw [(List.cons.inj heq).1])
    rw [hdigits _ hzero, hdigits _ hzero', spanDigits_append htail]
    split
    · rfl
    · rfl

theorem fractionPart?_append (htail : Delimited tail) :
    fractionPart? (text ++ tail) =
      (fractionPart? text).map fun found => (found.1, found.2 ++ tail) := by
  cases text with
  | nil =>
      rcases htail.cases with rfl | ⟨rest, rfl⟩ | ⟨rest, rfl⟩
      · rfl
      · rfl
      · rfl
  | cons c text =>
      by_cases hpoint : c = '.'
      · subst hpoint
        simp only [List.cons_append, fractionPart?, spanDigits_append htail]
        split
        · rfl
        · rfl
      · simp [fractionPart?, hpoint]

theorem exponentPart?_append (htail : Delimited tail) :
    exponentPart? (text ++ tail) =
      (exponentPart? text).map fun found => (found.1, found.2 ++ tail) := by
  cases text with
  | nil =>
      rcases htail.cases with rfl | ⟨rest, rfl⟩ | ⟨rest, rfl⟩
      · rfl
      · rfl
      · rfl
  | cons c text =>
      by_cases hletter : c = 'e' ∨ c = 'E'
      · rcases text with _ | ⟨sign, text⟩
        · -- an exponent without digits is none, whatever follows
          rcases htail.cases with rfl | ⟨rest, rfl⟩ | ⟨rest, rfl⟩
          · simp [exponentPart?, hletter, spanDigits]
          · simp [exponentPart?, hletter, spanDigits, List.span_eq_takeWhile_dropWhile]
          · simp [exponentPart?, hletter, spanDigits, List.span_eq_takeWhile_dropWhile]
        · by_cases hminus : sign = '-'
          · simp only [exponentPart?, List.cons_append, hletter, hminus, spanDigits_append htail, if_true]
            split
            · rfl
            · rfl
          · by_cases hplus : sign = '+'
            · simp only [exponentPart?, List.cons_append, hletter, hplus, spanDigits_append htail, if_true]
              split
              · rfl
              · rfl
            · have hunsigned : spanDigits (sign :: (text ++ tail)) =
                  ((spanDigits (sign :: text)).1, (spanDigits (sign :: text)).2 ++ tail) := by
                rw [← List.cons_append, spanDigits_append htail]
              simp [exponentPart?, hletter, hminus, hplus, hunsigned]
              split
              · rfl
              · rfl
      · simp [exponentPart?, hletter]

/-! ## Whole numbers -/

/-- What follows a part that may be missing. -/
theorem getD_map_append {α : Type} (found : Option (α × List Char)) (text tail : List Char) :
    ((found.map fun part => (part.1, part.2 ++ tail)).map (·.2)).getD (text ++ tail) =
      (found.map (·.2)).getD text ++ tail := by
  cases found with
  | none => rfl
  | some part => rfl

theorem readUnsigned_append {negative : Bool} {source : List Char} (other : List Char)
    (htail : Delimited tail) (h : readUnsigned negative source text = .ok (value, rest)) :
    readUnsigned negative other (text ++ tail) = .ok (value, rest ++ tail) := by
  unfold readUnsigned at h ⊢
  rw [wholePart?_append htail]
  cases hwhole : wholePart? text with
  | none =>
      rw [hwhole] at h
      cases h
  | some found =>
      rw [hwhole] at h
      simp only [Option.map_some, fractionPart?_append htail, getD_map_append, exponentPart?_append htail,
        Option.isNone_map] at h ⊢
      split at h
      · split at h
        · cases h
        · cases h
          rename_i hparts hlength
          rw [if_pos hparts, if_neg hlength]
      · cases h
        rename_i hparts
        rw [if_neg hparts]
        simp only [Option.map_map, Function.comp_def]

/-- A number is read from the start of a text as it is read from the number alone. -/
theorem readNumber_append (htail : Delimited tail) (h : readNumber text = .ok (value, rest)) :
    readNumber (text ++ tail) = .ok (value, rest ++ tail) := by
  rcases text with _ | ⟨c, text⟩
  · cases h
  · by_cases hminus : c = '-'
    · subst hminus
      exact readUnsigned_append _ htail h
    · rw [readNumber.eq_def] at h ⊢
      split at h
      · rename_i heq
        exact absurd (List.cons.inj heq).1 hminus
      · split
        · rename_i heq
          exact absurd (List.cons.inj heq).1 hminus
        · exact readUnsigned_append _ htail h

/-! ## Words -/

theorem isPrefixOf_append {word : List Char} (htail : Delimited tail)
    (hword : ∀ c ∈ word, c ≠ ',' ∧ c ≠ '\n') :
    word.isPrefixOf (text ++ tail) = word.isPrefixOf text := by
  rw [Bool.eq_iff_iff, List.isPrefixOf_iff_prefix, List.isPrefixOf_iff_prefix]
  constructor
  · intro hprefix
    rcases List.prefix_or_prefix_of_prefix hprefix (List.prefix_append text tail) with h | h
    · exact h
    · -- the word would reach into what follows
      obtain ⟨more, rfl⟩ := h
      rw [List.prefix_append_right_inj] at hprefix
      cases more with
      | nil => simp
      | cons d more =>
          obtain ⟨rest, rfl⟩ := hprefix
          have hnot := hword d (by simp)
          rcases htail d rfl with rfl | rfl
          · exact absurd rfl hnot.1
          · exact absurd rfl hnot.2
  · intro hprefix
    exact hprefix.trans (List.prefix_append text tail)

/-- A word is found at the start of a text as it is found in the word alone. -/
theorem readWord?_append (htail : Delimited tail) :
    readWord? (text ++ tail) = (readWord? text).map fun found => (found.1, found.2 ++ tail) := by
  -- by induction on the words, none of which has a character with which the tail may start
  have hwords : ∀ words : List (String × Json),
      (∀ word ∈ words, ∀ c ∈ word.1.toList, c ≠ ',' ∧ c ≠ '\n') →
      (words.findSome? fun entry =>
        if entry.1.toList.isPrefixOf (text ++ tail) then
          some (entry.2, (text ++ tail).drop entry.1.length)
        else none) =
      (words.findSome? fun entry =>
        if entry.1.toList.isPrefixOf text then some (entry.2, text.drop entry.1.length) else none).map
        fun found => (found.1, found.2 ++ tail) := by
    intro words
    induction words with
    | nil => intro _; rfl
    | cons entry words ih =>
        obtain ⟨word, value⟩ := entry
        intro hwords
        have hsame : word.toList.isPrefixOf (text ++ tail) = word.toList.isPrefixOf text :=
          isPrefixOf_append htail (hwords (word, value) List.mem_cons_self)
        simp only [List.findSome?_cons, hsame]
        by_cases hfound : word.toList.isPrefixOf text = true
        · have hlength : word.length ≤ text.length := by
            rw [← String.length_toList]
            exact (List.isPrefixOf_iff_prefix.mp hfound).length_le
          simp [hfound, List.drop_append_of_le_length hlength]
        · simpa [hfound] using ih fun word hmem => hwords word (List.mem_cons_of_mem _ hmem)
  refine hwords _ fun word hword => Text.forall_mem_of_all ?_
  revert word
  decide

/-! ## What is left of a text -/

theorem spanDigits_suffix (text : List Char) : (spanDigits text).2 <:+ text := by
  rw [spanDigits, List.span_eq_takeWhile_dropWhile]
  exact List.dropWhile_suffix _

theorem wholePart?_suffix {digits : List Char} (h : wholePart? text = some (digits, rest)) :
    rest <:+ text := by
  have hspan := spanDigits_suffix text
  unfold wholePart? at h
  split at h
  · cases h
    exact List.suffix_cons _ _
  · simp only [Option.ite_none_left_eq_some, Option.some.injEq, Prod.mk.injEq] at h
    exact h.2.2 ▸ hspan

theorem fractionPart?_suffix {digits : List Char} (h : fractionPart? text = some (digits, rest)) :
    rest <:+ text := by
  unfold fractionPart? at h
  split at h
  · rename_i text
    have hspan := (spanDigits_suffix text).trans (List.suffix_cons '.' text)
    simp only [Option.ite_none_left_eq_some, Option.some.injEq, Prod.mk.injEq] at h
    exact h.2.2 ▸ hspan
  · cases h

theorem exponentPart?_suffix {power : Int} (h : exponentPart? text = some (power, rest)) :
    rest <:+ text := by
  rcases text with _ | ⟨c, text⟩
  · cases h
  · simp only [exponentPart?.eq_def, Option.ite_none_right_eq_some] at h
    obtain ⟨-, h⟩ := h
    have hspan : ∀ unsigned, unsigned <:+ text → (spanDigits unsigned).2 <:+ c :: text := by
      intro unsigned hunsigned
      exact ((spanDigits_suffix unsigned).trans hunsigned).trans (List.suffix_cons c text)
    split at h
    · simp only [Option.ite_none_left_eq_some, Option.some.injEq, Prod.mk.injEq] at h
      exact h.2.2 ▸ hspan _ (List.suffix_cons _ _)
    · simp only [Option.ite_none_left_eq_some, Option.some.injEq, Prod.mk.injEq] at h
      exact h.2.2 ▸ hspan _ (List.suffix_cons _ _)
    · simp only [Option.ite_none_left_eq_some, Option.some.injEq, Prod.mk.injEq] at h
      exact h.2.2 ▸ hspan _ List.suffix_rfl

theorem suffix_getD {α : Type} {found : Option (α × List Char)}
    (h : ∀ part rest, found = some (part, rest) → rest <:+ text) :
    (found.map (·.2)).getD text <:+ text := by
  cases found with
  | none => exact List.suffix_rfl
  | some part => exact h _ _ rfl

theorem readUnsigned_suffix {negative : Bool} {source : List Char}
    (h : readUnsigned negative source text = .ok (value, rest)) : rest <:+ text := by
  unfold readUnsigned at h
  split at h
  · cases h
  · rename_i whole afterWhole hwhole
    let afterFraction := ((fractionPart? afterWhole).map (·.2)).getD afterWhole
    have hfraction : afterFraction <:+ afterWhole := suffix_getD fun _ _ => fractionPart?_suffix
    have hexponent : ((exponentPart? afterFraction).map (·.2)).getD afterFraction <:+ afterFraction :=
      suffix_getD fun _ _ => exponentPart?_suffix
    have hrest := (hexponent.trans hfraction).trans (wholePart?_suffix hwhole)
    simp only at h
    split at h
    · split at h
      · cases h
      · cases h
        exact hrest
    · cases h
      exact hrest

theorem readNumber_suffix (h : readNumber text = .ok (value, rest)) : rest <:+ text := by
  unfold readNumber at h
  split at h
  · exact (readUnsigned_suffix h).trans (List.suffix_cons _ _)
  · exact readUnsigned_suffix h

theorem readWord?_suffix (h : readWord? text = some (value, rest)) : rest <:+ text := by
  obtain ⟨⟨word, value⟩, -, hfound⟩ := List.exists_of_findSome?_eq_some h
  simp only [Option.ite_none_right_eq_some, Option.some.injEq, Prod.mk.injEq] at hfound
  exact hfound.2.2 ▸ List.drop_suffix _ _

/-! ## Printed numbers -/

/-- Whether a character may stand in a printed number. -/
def isNumeral (c : Char) : Bool :=
  c.isDigit || "+-.eInfityNa".toList.contains c

theorem visible_of_isNumeral {c : Char} (h : isNumeral c = true) : Visible c := by
  rw [isNumeral, Bool.or_eq_true] at h
  rcases h with hdigit | hother
  · rw [Char.isDigit_iff_toNat] at hdigit
    have hleast : '0'.toNat = 48 := rfl
    have hgreatest : '9'.toNat = 57 := rfl
    unfold Visible
    omega
  · have hall : ∀ c ∈ "+-.eInfityNa".toList, Visible c := Text.forall_mem_of_all (by decide)
    exact hall c (List.contains_iff_mem.mp hother)

theorem ne_of_isNumeral {c d : Char} (h : isNumeral c = true) (hd : isNumeral d = false) : c ≠ d := by
  rintro rfl
  rw [h] at hd
  cases hd

theorem isNumeral_of_mem_toDigits {c : Char} {n : Nat} (h : c ∈ Nat.toDigits 10 n) :
    isNumeral c = true := by
  rw [isNumeral, Nat.isDigit_of_mem_toDigits (by decide) (by decide) h, Bool.true_or]

theorem toList_toString_int (n : Int) : (toString n).toList =
    if n < 0 then '-' :: Nat.toDigits 10 n.natAbs else Nat.toDigits 10 n.natAbs := by
  have hnatural : ∀ m : Nat, (toString m).toList = Nat.toDigits 10 m := fun m => by
    rw [Nat.toString_eq_ofList_toDigits, String.toList_ofList]
  cases n with
  | ofNat m =>
      have hnot : ¬ (m : Int) < 0 := by omega
      exact (hnatural m).trans (if_neg hnot).symm
  | negSucc m =>
      have hnegative : Int.negSucc m < 0 := by omega
      rw [if_pos hnegative]
      show ("-" ++ toString (m + 1)).toList = _
      rw [String.toList_append, hnatural]
      rfl

theorem isDigit_or_minus_of_mem_integer {c : Char} {n : Int} (h : c ∈ (toString n).toList) :
    c.isDigit = true ∨ c = '-' := by
  have hdigit : ∀ c ∈ Nat.toDigits 10 n.natAbs, c.isDigit = true := fun c hc =>
    Nat.isDigit_of_mem_toDigits (by decide) (by decide) hc
  rw [toList_toString_int] at h
  split at h
  · rcases List.mem_cons.mp h with rfl | h
    · exact .inr rfl
    · exact .inl (hdigit c h)
  · exact .inl (hdigit c h)

theorem isNumeral_of_mem_integer {c : Char} {n : Int} (h : c ∈ (toString n).toList) :
    isNumeral c = true := by
  rcases isDigit_or_minus_of_mem_integer h with hdigit | rfl
  · rw [isNumeral, hdigit, Bool.true_or]
  · decide

theorem isNumeral_of_mem_positional {c : Char} {digits : List Char} {point : Int}
    (hdigits : ∀ c ∈ digits, isNumeral c = true) (h : c ∈ Binary64.positional digits point) :
    isNumeral c = true := by
  have hzeros : ∀ n, c ∈ List.replicate n '0' → isNumeral c = true := by
    intro n hmem
    rw [List.eq_of_mem_replicate hmem]
    decide
  unfold Binary64.positional at h
  split at h
  · simp only [List.mem_append, List.mem_cons, List.not_mem_nil, or_false] at h
    rcases h with ((rfl | rfl) | hzero) | hdigit
    · decide
    · decide
    · exact hzeros _ hzero
    · exact hdigits c hdigit
  · simp only [List.mem_append, List.mem_singleton] at h
    rcases h with ((hwhole | hzero) | rfl) | hfraction
    · exact hdigits c (List.mem_of_mem_take hwhole)
    · exact hzeros _ hzero
    · decide
    · split at hfraction
      · rw [List.mem_singleton.mp hfraction]
        decide
      · exact hdigits c (List.mem_of_mem_drop hfraction)

theorem isNumeral_of_mem_scientific {c : Char} {digits : List Char} {point : Int}
    {style : Binary64.Style} (hdigits : ∀ c ∈ digits, isNumeral c = true)
    (h : c ∈ Binary64.scientific style digits point) : isNumeral c = true := by
  simp only [Binary64.scientific, List.mem_append, List.mem_singleton] at h
  rcases h with (((hfirst | hmore) | rfl) | hsign) | hpower
  · exact hdigits c (List.mem_of_mem_take hfirst)
  · split at hmore
    · cases hmore
    · rcases List.mem_cons.mp hmore with rfl | hdigit
      · decide
      · exact hdigits c (List.mem_of_mem_drop hdigit)
  · decide
  · split at hsign
    · rw [hsign]
      decide
    · rw [hsign]
      decide
  · rw [Binary64.paddedDigits, List.mem_append] at hpower
    rcases hpower with hzero | hdigit
    · rw [List.eq_of_mem_replicate hzero]
      decide
    · exact isNumeral_of_mem_toDigits hdigit

theorem isNumeral_of_mem_printFloat {c : Char} {x : Binary64} (h : c ∈ printFloat x) :
    isNumeral c = true := by
  have hword : ∀ word : String, (∀ c ∈ word.toList, isNumeral c = true) → c ∈ word.toList →
      isNumeral c = true := fun word hall hmem => hall c hmem
  cases x with
  | nan => exact hword "NaN" (Text.forall_mem_of_all (by decide)) h
  | infinite negative =>
      cases negative with
      | false => exact hword "Infinity" (Text.forall_mem_of_all (by decide)) h
      | true => exact hword "-Infinity" (Text.forall_mem_of_all (by decide)) h
  | finite negative significand exponent =>
      have hdigits : ∀ c ∈ (if significand = 0 then ['0', '.', '0']
          else (Binary64.shortest significand exponent).render Binary64.plain), isNumeral c = true := by
        intro c hmem
        split at hmem
        · have hall : ∀ c ∈ ['0', '.', '0'], isNumeral c = true := Text.forall_mem_of_all (by decide)
          exact hall c hmem
        · unfold Binary64.Decimal.render at hmem
          simp only at hmem
          split at hmem
          · exact isNumeral_of_mem_positional (fun _ => isNumeral_of_mem_toDigits) hmem
          · exact isNumeral_of_mem_scientific (fun _ => isNumeral_of_mem_toDigits) hmem
      have hprint : printFloat (.finite negative significand exponent) =
          if negative then '-' :: (if significand = 0 then ['0', '.', '0']
            else (Binary64.shortest significand exponent).render Binary64.plain)
          else (if significand = 0 then ['0', '.', '0']
            else (Binary64.shortest significand exponent).render Binary64.plain) := rfl
      rw [hprint] at h
      split at h
      · rcases List.mem_cons.mp h with rfl | hmem
        · decide
        · exact hdigits c hmem
      · exact hdigits c h

/-! ## Reading a number where it stands -/

theorem skipGap_of_not_isGap {c : Char} (h : isGap c = false) : skipGap (c :: text) = c :: text := by
  simp [skipGap, h]

/-- A value that does not start with a quotation mark or an opening bracket is a word or a number. -/
theorem readValue_of_isNumeral {c : Char} {fuel : Nat} (hc : isNumeral c = true) :
    readValue (fuel + 1) (c :: text) =
      match readWord? (c :: text) with
      | some found => .ok found
      | none => readNumber (c :: text) := by
  have hquote : c ≠ '"' := ne_of_isNumeral hc (by decide)
  have hbrace : c ≠ '\x7b' := ne_of_isNumeral hc (by decide)
  have hbracket : c ≠ '[' := ne_of_isNumeral hc (by decide)
  rw [readValue.eq_def]
  cases hword : readWord? (c :: text) with
  | none =>
      simp only [List.cons.injEq, hquote, hbrace, hbracket, false_and, imp_self, implies_true, hword]
  | some found =>
      simp only [List.cons.injEq, hquote, hbrace, hbracket, false_and, imp_self, implies_true, hword]

/-- What is read of numeral characters, followed by something else, is a suffix of them. -/
theorem suffix_of_readValue {c : Char} {fuel : Nat} (hc : isNumeral c = true)
    (h : readValue (fuel + 1) (c :: text) = .ok (value, rest)) : rest <:+ c :: text := by
  rw [readValue_of_isNumeral hc] at h
  split at h
  · rename_i found hword
    cases h
    exact readWord?_suffix hword
  · exact readNumber_suffix h

theorem readValue_append {c : Char} {fuel fuel' : Nat} (hc : isNumeral c = true)
    (htail : Delimited tail) (h : readValue (fuel + 1) (c :: text) = .ok (value, rest)) :
    readValue (fuel' + 1) (c :: text ++ tail) = .ok (value, rest ++ tail) := by
  rw [readValue_of_isNumeral hc] at h
  rw [List.cons_append, readValue_of_isNumeral hc, ← List.cons_append, readWord?_append htail]
  split at h
  · rename_i found hword
    cases h
    rw [hword]
    rfl
  · rename_i hword
    rw [hword]
    exact readNumber_append htail h

/-- What has been read of a whole text. -/
theorem exists_of_readChars (h : readChars text = .ok value) :
    ∃ rest, readValue (2 * text.length + 2) (skipGap text) = .ok (value, rest) ∧ skipGap rest = [] := by
  unfold readChars at h
  split at h
  · cases h
  · cases hread : readValue (2 * text.length + 2) (skipGap text) with
    | error refusal =>
        rw [hread] at h
        cases h
    | ok found =>
        obtain ⟨found, rest⟩ := found
        rw [hread] at h
        simp only [bind, Except.bind] at h
        split at h
        · rename_i hrest
          cases h
          exact ⟨rest, rfl, List.isEmpty_iff.mp hrest⟩
        · cases h

theorem isGap_of_isNumeral {c : Char} (h : isNumeral c = true) : isGap c = false := by
  have hblank : c ≠ ' ' := ne_of_isNumeral h (by decide)
  have htab : c ≠ '\t' := ne_of_isNumeral h (by decide)
  have hnewline : c ≠ '\n' := ne_of_isNumeral h (by decide)
  have hreturn : c ≠ '\r' := ne_of_isNumeral h (by decide)
  simp [isGap, hblank, htab, hnewline, hreturn]

/-- A text of numeral characters that is a value by itself is the same value in a document. -/
theorem readValue_of_readChars {fuel : Nat} (hnumeral : ∀ c ∈ text, isNumeral c = true)
    (htail : Delimited tail) (h : readChars text = .ok value) :
    readValue (fuel + 1) (text ++ tail) = .ok (value, tail) := by
  rcases text with _ | ⟨c, text⟩
  · cases h
  have hc : isNumeral c = true := hnumeral c List.mem_cons_self
  obtain ⟨rest, hread, hrest⟩ := exists_of_readChars h
  rw [skipGap_of_not_isGap (isGap_of_isNumeral hc)] at hread
  have hempty : rest = [] := by
    rcases rest with _ | ⟨d, rest⟩
    · rfl
    · have hd := hnumeral d ((suffix_of_readValue hc hread).subset List.mem_cons_self)
      rw [skipGap_of_not_isGap (isGap_of_isNumeral hd)] at hrest
      cases hrest
  rw [readValue_append hc htail hread, hempty, List.nil_append]

/-! ## Integers -/

theorem digitsValue_toDigits (n : Nat) : digitsValue (Nat.toDigits 10 n) = n := by
  have hvalue := Nat.ofDigitChars_ten_toDigits (n := n)
  exact hvalue

theorem head_toDigits_ne_zero {n : Nat} (hn : 0 < n) : ∀ rest, Nat.toDigits 10 n ≠ '0' :: rest := by
  induction n using Nat.strongRecOn with
  | ind n ih =>
      intro rest heq
      by_cases hsmall : n < 10
      · rw [Nat.toDigits_of_lt_base hsmall] at heq
        have hdigit : ∀ n < 10, 0 < n → n.digitChar ≠ '0' := by decide
        exact hdigit n hsmall hn (List.cons.inj heq).1
      · rw [Nat.toDigits_of_base_le (by decide) (by omega)] at heq
        rcases hdigits : Nat.toDigits 10 (n / 10) with _ | ⟨c, more⟩
        · exact Nat.toDigits_ne_nil hdigits
        · rw [hdigits] at heq
          have hc : c = '0' := (List.cons.inj heq).1
          subst hc
          exact ih (n / 10) (by omega) (by omega) more hdigits

theorem spanDigits_toDigits (n : Nat) : spanDigits (Nat.toDigits 10 n) = (Nat.toDigits 10 n, []) := by
  have hdigits : ∀ c ∈ Nat.toDigits 10 n, c.isDigit = true := fun c hc =>
    Nat.isDigit_of_mem_toDigits (by decide) (by decide) hc
  rw [spanDigits, List.span_eq_takeWhile_dropWhile, List.takeWhile_eq_self_iff.mpr hdigits,
    List.dropWhile_eq_nil_iff.mpr hdigits]

theorem wholePart?_toDigits (n : Nat) : wholePart? (Nat.toDigits 10 n) = some (Nat.toDigits 10 n, []) := by
  rcases Nat.eq_zero_or_pos n with rfl | hn
  · rfl
  · have hempty : (Nat.toDigits 10 n).isEmpty = false := by
      simp [Nat.toDigits_ne_nil]
    unfold wholePart?
    split
    · rename_i heq
      exact absurd heq (head_toDigits_ne_zero hn _)
    · simp only [spanDigits_toDigits, hempty]
      rfl

theorem readUnsigned_toDigits {negative : Bool} {source : List Char} {n : Nat}
    (hlength : (Nat.toDigits 10 n).length ≤ longestInteger) :
    readUnsigned negative source (Nat.toDigits 10 n) = .ok (int (if negative then -(n : Int) else n), []) := by
  have hlong : ¬ longestInteger < (Nat.toDigits 10 n).length := Nat.not_lt.mpr hlength
  simp only [readUnsigned, wholePart?_toDigits, fractionPart?, exponentPart?, Option.isNone_none, hlong,
    if_false, digitsValue_toDigits]
  rfl

/-- No word starts like a number: a digit or a minus and a digit. -/
theorem readWord?_of_isDigit {c : Char} (hc : c.isDigit = true) (negative : Bool) :
    readWord? (if negative then '-' :: c :: text else c :: text) = none := by
  have hne : ∀ d : Char, d.isDigit = false → d ≠ c := by
    rintro d hd rfl
    rw [hc] at hd
    cases hd
  have hletters : 'n' ≠ c ∧ 't' ≠ c ∧ 'f' ≠ c ∧ 'N' ≠ c ∧ 'I' ≠ c ∧ '-' ≠ c :=
    ⟨hne _ (by decide), hne _ (by decide), hne _ (by decide), hne _ (by decide), hne _ (by decide),
      hne _ (by decide)⟩
  cases negative with
  | false => simp [readWord?, hletters]
  | true => simp [readWord?, hletters]

/-- What is read without its sign and to its end is read with its sign. -/
theorem readChars_of_readUnsigned {c : Char} {negative : Bool} (hc : c.isDigit = true)
    (h : ∀ source, readUnsigned negative source (c :: text) = .ok (value, [])) :
    readChars (if negative then '-' :: c :: text else c :: text) = .ok value := by
  have hnumber : readNumber (if negative then '-' :: c :: text else c :: text) = .ok (value, []) := by
    cases negative with
    | true => exact h _
    | false =>
        have hminus : c ≠ '-' := by
          rintro rfl
          revert hc
          decide
        rw [readNumber.eq_def]
        split
        · rename_i heq
          exact absurd (List.cons.inj heq).1 hminus
        · exact h _
  have hword : readWord? (if negative then '-' :: c :: text else c :: text) = none :=
    readWord?_of_isDigit hc negative
  obtain ⟨d, rest, htext, hd⟩ : ∃ d rest,
      (if negative then '-' :: c :: text else c :: text) = d :: rest ∧ isNumeral d = true := by
    cases negative with
    | true => exact ⟨'-', c :: text, rfl, by decide⟩
    | false => exact ⟨c, text, rfl, by rw [isNumeral, hc, Bool.true_or]⟩
  have hhead : (d == Char.ofNat 0xfeff) = false := beq_false_of_ne (ne_of_isNumeral hd (by decide))
  rw [htext] at hnumber hword ⊢
  rw [readChars, skipGap_of_not_isGap (isGap_of_isNumeral hd), readValue_of_isNumeral hd, hword, hnumber]
  simp only [List.head?_cons, Option.some_beq_some, hhead]
  rfl

/-- An integer is read back, unless it has too many digits. -/
theorem readChars_integer {n : Int} (hlength : (Nat.toDigits 10 n.natAbs).length ≤ longestInteger) :
    readChars (toString n).toList = .ok (int n) := by
  have hread : ∀ source, readUnsigned (decide (n < 0)) source (Nat.toDigits 10 n.natAbs) =
      .ok (int n, []) := by
    intro source
    rw [readUnsigned_toDigits hlength]
    congr 3
    by_cases hnegative : n < 0
    · simp only [hnegative, decide_true, if_true]
      omega
    · simp only [hnegative, decide_false, Bool.false_eq_true, if_false]
      omega
  have hdigits : ∀ c ∈ Nat.toDigits 10 n.natAbs, c.isDigit = true := fun c =>
    Nat.isDigit_of_mem_toDigits (by decide) (by decide)
  obtain ⟨c, text, htext⟩ := List.exists_cons_of_ne_nil (Nat.toDigits_ne_nil (b := 10) (n := n.natAbs))
  rw [htext] at hread hdigits
  have hchars := readChars_of_readUnsigned (hdigits c List.mem_cons_self) hread
  rw [toList_toString_int, htext]
  simpa only [decide_eq_true_eq] using hchars

end ChangeImpact.Json
