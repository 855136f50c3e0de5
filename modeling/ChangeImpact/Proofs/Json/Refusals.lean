import ChangeImpact.Proofs.Json.Numbers

/-!
# What a reader makes of a text

Two outcomes of reading a text are not told apart from others by the text being JSON or not.

* The null value is read from the word for it, with blanks around it, and from nothing else
  (`readChars_eq_null_iff`).
* A text may be refused although its notation is right, for an integer with too many digits.  Then these digits
  stand in the text one after another (`holdsLongInteger_of_readChars`).

The second statement is about the place where reading stops, so it is proved together with what is left of the
text after each part that has been read (`Within`).
-/

namespace ChangeImpact.Json

variable {α β : Type} {text rest : List Char} {value : Json} {found : Except Refusal (α × List Char)}

/-! ## Parts of a text -/

/-- A text holds an integer that is too long to be read. -/
def HoldsLongInteger (text : List Char) (length : Nat) : Prop :=
  ∃ digits, digits <:+: text ∧ (∀ c ∈ digits, c.isDigit = true) ∧ digits.length = length ∧
    longestInteger < length

/-- What comes of reading a part of a text: what is left is an end of the text, and an integer that is too
long stands in it. -/
def Within (text : List Char) : Except Refusal (α × List Char) → Prop
  | .ok (_, rest) => rest <:+ text
  | .error refusal => ∀ length, refusal.cause = .longInteger length → HoldsLongInteger text length

theorem HoldsLongInteger.mono {length : Nat} (hrest : rest <:+ text) (h : HoldsLongInteger rest length) :
    HoldsLongInteger text length := by
  obtain ⟨digits, hinfix, hdigits⟩ := h
  exact ⟨digits, hinfix.trans hrest.isInfix, hdigits⟩

theorem Within.mono (hrest : rest <:+ text) (h : Within rest found) : Within text found := by
  cases found with
  | ok pair => exact List.IsSuffix.trans h hrest
  | error refusal => exact fun length hcause => (h length hcause).mono hrest

/-- Reading one part after another. -/
theorem Within.bind {next : α × List Char → Except Refusal (β × List Char)} (h : Within text found)
    (hnext : ∀ value rest, rest <:+ text → Within rest (next (value, rest))) : Within text (found >>= next) := by
  cases found with
  | ok pair => exact (hnext pair.1 pair.2 h).mono h
  | error refusal => exact h

theorem skipGap_suffix (text : List Char) : skipGap text <:+ text :=
  List.dropWhile_suffix _

theorem suffix_of_skipGap {c : Char} (h : skipGap text = c :: rest) : rest <:+ text :=
  (List.suffix_cons c rest).trans (h ▸ skipGap_suffix text)

/-! ## Numbers -/

theorem prefix_of_wholePart? {whole : List Char} (h : wholePart? text = some (whole, rest)) :
    whole <+: text ∧ ∀ c ∈ whole, c.isDigit = true := by
  unfold wholePart? at h
  split at h
  · cases h
    exact ⟨List.cons_prefix_cons.mpr ⟨rfl, List.nil_prefix⟩, List.forall_mem_singleton.mpr (by decide)⟩
  · simp only [Option.ite_none_left_eq_some, Option.some.injEq, Prod.mk.injEq, spanDigits,
      List.span_eq_takeWhile_dropWhile] at h
    obtain ⟨-, rfl, -⟩ := h
    exact ⟨List.takeWhile_prefix _, fun c hc => List.mem_takeWhile_imp hc⟩

theorem within_readUnsigned (negative : Bool) (source text : List Char) :
    Within text (readUnsigned negative source text) := by
  cases hread : readUnsigned negative source text with
  | ok pair => exact readUnsigned_suffix hread
  | error refusal =>
      intro length hcause
      unfold readUnsigned at hread
      split at hread
      · cases hread
        cases hcause
      · rename_i whole afterWhole hwhole
        obtain ⟨hwithin, hdigits⟩ := prefix_of_wholePart? hwhole
        simp only at hread
        split at hread
        · split at hread
          · rename_i hlong
            cases hread
            cases hcause
            exact ⟨whole, hwithin.isInfix, hdigits, rfl, hlong⟩
          · cases hread
        · cases hread

theorem within_readNumber (text : List Char) : Within text (readNumber text) := by
  unfold readNumber
  split
  · exact (within_readUnsigned _ _ _).mono (List.suffix_cons _ _)
  · exact within_readUnsigned _ _ _

/-! ## Strings -/

/-- What the next code point of a string is, in a text. -/
def StringStep.Within (text : List Char) : StringStep → Prop
  | .close rest => rest <:+ text
  | .point _ rest => rest <:+ text
  | .refused refusal => ∀ length, refusal.cause ≠ .longInteger length

theorem StringStep.Within.mono {step : StringStep} (hrest : rest <:+ text) (h : step.Within rest) :
    step.Within text := by
  cases step with
  | close last => exact List.IsSuffix.trans h hrest
  | point point last => exact List.IsSuffix.trans h hrest
  | refused refusal => exact h

theorem within_unicodeStep (escape : Nat) (text : List Char) : (unicodeStep escape text).Within text := by
  unfold unicodeStep
  split
  · rename_i a b c d rest
    have hrest : rest <:+ a :: b :: c :: d :: rest := List.suffix_append [a, b, c, d] rest
    split_ifs with hempty
    · exact fun _ => ReadCause.noConfusion
    · cases hexUnit? a b c d with
      | none => exact fun _ => ReadCause.noConfusion
      | some high =>
          dsimp only
          split_ifs with hhigh
          · cases secondUnit rest with
            | absent => exact hrest
            | invalid => exact fun _ => ReadCause.noConfusion
            | unit low =>
                dsimp only
                split_ifs with hlow
                · exact (List.drop_suffix 6 rest).trans hrest
                · exact hrest
          · exact hrest
  · exact fun _ => ReadCause.noConfusion

theorem within_stringStep (opening : Nat) (text : List Char) : (stringStep opening text).Within text := by
  unfold stringStep
  split
  · exact fun _ => ReadCause.noConfusion
  · exact List.suffix_cons _ _
  · exact fun _ => ReadCause.noConfusion
  · exact (within_unicodeStep _ _).mono (List.suffix_append ['\\', 'u'] _)
  · rename_i c rest _
    cases shortEscape? c with
    | none => exact fun _ => ReadCause.noConfusion
    | some e => exact List.suffix_append ['\\', c] rest
  · split_ifs
    · exact fun _ => ReadCause.noConfusion
    · exact List.suffix_cons _ _

theorem within_readStringFrom (opening : Nat) (sofar : List Nat) (text : List Char) :
    Within text (readStringFrom opening sofar text) := by
  fun_induction readStringFrom opening sofar text with
  | case1 sofar text rest hstep =>
      have h := within_stringStep opening text
      rw [hstep] at h
      exact h
  | case2 sofar text point rest hstep ih =>
      have h := within_stringStep opening text
      rw [hstep] at h
      exact ih.mono h
  | case3 sofar text refusal hstep =>
      have h := within_stringStep opening text
      rw [hstep] at h
      exact fun length hcause => absurd hcause (h length)

theorem within_readString (text : List Char) : Within text (readString text) :=
  within_readStringFrom _ _ _

/-! ## Values -/

theorem within_readItems {fuel : Nat} (hvalue : ∀ text, Within text (readValue fuel text))
    (hitems : ∀ sofar text, Within text (readItems fuel sofar text)) (sofar : List Json) (text : List Char) :
    Within text (readItems (fuel + 1) sofar text) := by
  rw [readItems]
  refine (hvalue text).bind fun item rest _ => ?_
  dsimp only
  split
  · exact suffix_of_skipGap ‹_›
  · rename_i last heq
    exact (hitems _ _).mono ((skipGap_suffix last).trans (suffix_of_skipGap heq))
  · exact fun _ => ReadCause.noConfusion

theorem within_readFields {fuel : Nat} (hvalue : ∀ text, Within text (readValue fuel text))
    (hfields : ∀ sofar text, Within text (readFields fuel sofar text)) (sofar : List (Wording × Json))
    (text : List Char) : Within text (readFields (fuel + 1) sofar text) := by
  rw [readFields.eq_def]
  dsimp only
  split
  · rename_i named
    refine ((within_readString named).bind fun name rest _ => ?_).mono (List.suffix_cons _ _)
    dsimp only
    split
    · rename_i valued heq
      refine ((hvalue _).bind fun value rest _ => ?_).mono ((skipGap_suffix valued).trans (suffix_of_skipGap heq))
      dsimp only
      split
      · exact suffix_of_skipGap ‹_›
      · rename_i last heq
        exact (hfields _ _).mono ((skipGap_suffix last).trans (suffix_of_skipGap heq))
      · exact fun _ => ReadCause.noConfusion
    · exact fun _ => ReadCause.noConfusion
  · exact fun _ => ReadCause.noConfusion

theorem within_readValue {fuel : Nat} (hitems : ∀ text, Within text (readItems fuel [] text))
    (hfields : ∀ text, Within text (readFields fuel [] text)) (text : List Char) :
    Within text (readValue (fuel + 1) text) := by
  rw [readValue.eq_def]
  dsimp only
  split
  · refine Within.mono (List.suffix_cons _ _) ((within_readString _).bind fun _ _ _ => ?_)
    exact List.suffix_rfl
  · rename_i opened
    split
    · exact (suffix_of_skipGap ‹_›).trans (List.suffix_cons _ _)
    · refine Within.mono ((skipGap_suffix opened).trans (List.suffix_cons _ _))
        ((hfields _).bind fun _ _ _ => ?_)
      exact List.suffix_rfl
  · rename_i opened
    split
    · exact (suffix_of_skipGap ‹_›).trans (List.suffix_cons _ _)
    · refine Within.mono ((skipGap_suffix opened).trans (List.suffix_cons _ _))
        ((hitems _).bind fun _ _ _ => ?_)
      exact List.suffix_rfl
  · split
    · exact readWord?_suffix ‹_›
    · exact within_readNumber _

/-- Values, items and fields are read within a text, by induction on the fuel. -/
theorem within (fuel : Nat) : (∀ text, Within text (readValue fuel text)) ∧
    (∀ sofar text, Within text (readItems fuel sofar text)) ∧
    ∀ sofar text, Within text (readFields fuel sofar text) := by
  induction fuel with
  | zero => exact ⟨fun _ _ => nofun, fun _ _ _ => nofun, fun _ _ _ => nofun⟩
  | succ fuel ih =>
      obtain ⟨hvalue, hitems, hfields⟩ := ih
      exact ⟨within_readValue (hitems []) (hfields []), within_readItems hvalue hitems,
        within_readFields hvalue hfields⟩

/-! ## Whole texts -/

/-- Where an integer is too long to be read its digits stand in the text one after another. -/
theorem holdsLongInteger_of_readChars {error : ReadError} {length : Nat} (h : readChars text = .error error)
    (hcause : error.cause = .longInteger length) : HoldsLongInteger text length := by
  have hvalue := (within (2 * text.length + 2)).1 (skipGap text)
  unfold readChars at h
  split at h
  · cases h
    cases hcause
  · cases hread : readValue (2 * text.length + 2) (skipGap text) with
    | error refusal =>
        rw [hread] at h hvalue
        cases h
        exact (hvalue length hcause).mono (skipGap_suffix text)
    | ok found =>
        rw [hread] at h
        simp only [bind, Except.bind] at h
        split at h
        · cases h
        · cases h
          cases hcause

/-! ## The null value -/

theorem readNumber_ne_null : readNumber text ≠ .ok (.null, rest) := by
  have hunsigned : ∀ negative source unsigned, readUnsigned negative source unsigned ≠ .ok (.null, rest) := by
    intro negative source unsigned h
    unfold readUnsigned at h
    split at h
    · cases h
    · dsimp only at h
      split at h
      · split at h
        · cases h
        · cases h
      · cases h
  unfold readNumber
  split
  · exact hunsigned _ _ _
  · exact hunsigned _ _ _

theorem readWord?_eq_null (h : readWord? text = some (.null, rest)) : text = "null".toList ++ rest := by
  obtain ⟨⟨word, value⟩, hword, hfound⟩ := List.exists_of_findSome?_eq_some h
  simp only [Option.ite_none_right_eq_some, Option.some.injEq, Prod.mk.injEq] at hfound
  obtain ⟨hstart, rfl, rfl⟩ := hfound
  obtain ⟨after, rfl⟩ := List.isPrefixOf_iff_prefix.mp hstart
  have hnull : word = "null" := by simpa using hword
  subst hnull
  rfl

theorem ofWording_ne_null (text : Wording) : ofWording text ≠ null := by
  cases text with
  | whole text => exact nofun
  | halved text => exact nofun

theorem ofFields_ne_null (fields : List (Wording × Json)) : ofFields fields ≠ null := by
  unfold ofFields
  split
  · exact nofun
  · exact nofun

/-- The null value is read from its word. -/
theorem readValue_eq_null {fuel : Nat} (h : readValue fuel text = .ok (.null, rest)) :
    text = "null".toList ++ rest := by
  cases fuel with
  | zero => cases h
  | succ fuel =>
      rw [readValue.eq_def] at h
      dsimp only at h
      split at h
      · rename_i opened
        cases hread : readString opened with
        | error refusal => rw [hread] at h; cases h
        | ok found =>
            rw [hread] at h
            exact absurd (Prod.mk.inj (Except.ok.inj h)).1 (ofWording_ne_null _)
      · split at h
        · cases h
        · rename_i opened _ _
          cases hread : readFields fuel [] (skipGap opened) with
          | error refusal => rw [hread] at h; cases h
          | ok found =>
              rw [hread] at h
              exact absurd (Prod.mk.inj (Except.ok.inj h)).1 (ofFields_ne_null _)
      · split at h
        · cases h
        · rename_i opened _ _
          cases hread : readItems fuel [] (skipGap opened) with
          | error refusal => rw [hread] at h; cases h
          | ok found => rw [hread] at h; cases h
      · split at h
        · rename_i found hword
          cases h
          exact readWord?_eq_null hword
        · exact absurd h readNumber_ne_null

/-- A text that is the word for the null value, with blanks around it. -/
def SpellsNull (text : List Char) : Prop :=
  ∃ before after, (∀ c ∈ before, isGap c = true) ∧ (∀ c ∈ after, isGap c = true) ∧
    text = before ++ "null".toList ++ after

theorem readChars_eq_null_iff : readChars text = .ok .null ↔ SpellsNull text := by
  constructor
  · intro h
    obtain ⟨rest, hread, hrest⟩ := exists_of_readChars h
    have htext := readValue_eq_null hread
    refine ⟨text.takeWhile isGap, rest, fun c hc => List.mem_takeWhile_imp hc, ?_, ?_⟩
    · exact List.dropWhile_eq_nil_iff.mp hrest
    · rw [List.append_assoc, ← htext]
      exact List.takeWhile_append_dropWhile.symm
  · rintro ⟨before, after, hbefore, hafter, rfl⟩
    have hskip : skipGap (before ++ "null".toList ++ after) = "null".toList ++ after := by
      rw [skipGap, List.append_assoc, List.dropWhile_append_of_pos hbefore]
      rfl
    have hmark : ((before ++ "null".toList ++ after).head? == some (Char.ofNat 0xfeff)) = false := by
      cases before with
      | nil => rfl
      | cons c before =>
          have hc : c ≠ Char.ofNat 0xfeff := fun heq =>
            absurd (heq ▸ hbefore c List.mem_cons_self) (by decide)
          simpa using hc
    have hread : ∀ fuel, readValue (fuel + 1) ("null".toList ++ after) = .ok (.null, after) := fun fuel =>
      readValue_of_isNumeral (by decide)
    have hend : skipGap after = [] := List.dropWhile_eq_nil_iff.mpr hafter
    unfold readChars
    rw [hmark, hskip, hread]
    simp only [bind, Except.bind, hend]
    rfl

end ChangeImpact.Json
