import ChangeImpact.Proofs.Json.Numbers
import ChangeImpact.Proofs.Number.Shortest

/-!
# Binary numbers in documents

A binary number is written with its shortest digits, and what is written is read as the number
(`readChars_printFloat`).  There are two notations, and the digits stand differently to the point in each of
them.  The reader takes the digits before and after the point together and counts those after it, so that it
arrives at the digits and the exponent that were printed, or else at the same value with zeros at the end of
its digits.
-/

namespace ChangeImpact.Json

open Binary64

variable {negative : Bool} {source digits whole fraction tail : List Char} {point power : Int}

/-! ## Digits -/

theorem digitsValue_append (first second : List Char) :
    digitsValue (first ++ second) = digitsValue first * 10 ^ second.length + digitsValue second := by
  have hsecond := @Nat.ofDigitChars_eq_ofDigitChars_zero second (digitsValue first)
  rw [mul_comm] at hsecond
  exact (Nat.ofDigitChars_append (b := 10) (l := first) (m := second) 0).trans hsecond

theorem digitsValue_zeros (count : Nat) : digitsValue (List.replicate count '0') = 0 :=
  Nat.ofDigitChars_replicate_zero

theorem isDigit_of_mem_zeros {count : Nat} : ∀ c ∈ List.replicate count '0', c.isDigit = true := by
  intro c hc
  rw [List.eq_of_mem_replicate hc]
  decide

/-- A text that does not go on with the digits before it. -/
def EndsDigits (tail : List Char) : Prop :=
  ∀ c ∈ tail.head?, c.isDigit = false

theorem endsDigits_nil : EndsDigits [] := by
  intro c hc
  cases hc

theorem endsDigits_cons {c : Char} (hc : c.isDigit = false) : EndsDigits (c :: tail) := by
  intro d hd
  cases hd
  exact hc

theorem spanDigits_of_digits (hdigits : ∀ c ∈ digits, c.isDigit = true) (htail : EndsDigits tail) :
    spanDigits (digits ++ tail) = (digits, tail) := by
  have htake : tail.takeWhile Char.isDigit = [] ∧ tail.dropWhile Char.isDigit = tail := by
    cases tail with
    | nil => exact ⟨rfl, rfl⟩
    | cons c tail => simp [htail c rfl]
  rw [spanDigits, List.span_eq_takeWhile_dropWhile, List.takeWhile_append_of_pos hdigits,
    List.dropWhile_append_of_pos hdigits, htake.1, htake.2, List.append_nil]

/-- Digits that are read as the whole part of a number: a zero alone, or digits without a zero before
them. -/
structure IsWhole (whole : List Char) : Prop where
  digits : ∀ c ∈ whole, c.isDigit = true
  nonempty : whole ≠ []
  leading : whole = ['0'] ∨ ∀ rest, whole ≠ '0' :: rest

theorem isWhole_zero : IsWhole ['0'] :=
  ⟨Text.forall_mem_of_all (by decide), List.cons_ne_nil _ _, .inl rfl⟩

theorem IsWhole.wholePart?_append (h : IsWhole whole) (htail : EndsDigits tail) :
    wholePart? (whole ++ tail) = some (whole, tail) := by
  rcases h.leading with rfl | hleading
  · rfl
  · unfold wholePart?
    split
    · rename_i heq
      obtain ⟨c, more, rfl⟩ := List.exists_cons_of_ne_nil h.nonempty
      exact absurd (congrArg (· :: more) (List.cons.inj heq).1) (hleading more)
    · rw [spanDigits_of_digits h.digits htail]
      simp [h.nonempty]

theorem fractionPart?_of_digits (hdigits : ∀ c ∈ fraction, c.isDigit = true) (hne : fraction ≠ [])
    (htail : EndsDigits tail) : fractionPart? ('.' :: (fraction ++ tail)) = some (fraction, tail) := by
  simp only [fractionPart?, spanDigits_of_digits hdigits htail, List.isEmpty_iff, hne, if_false]

/-- A number with a fraction, and perhaps with an exponent. -/
theorem readUnsigned_of_fraction (hwhole : IsWhole whole) (hdigits : ∀ c ∈ fraction, c.isDigit = true)
    (hne : fraction ≠ []) (htail : EndsDigits tail) :
    readUnsigned negative source (whole ++ '.' :: (fraction ++ tail)) =
      .ok (float (ofDecimal negative (digitsValue (whole ++ fraction))
        (((exponentPart? tail).map (·.1)).getD 0 - fraction.length)),
        ((exponentPart? tail).map (·.2)).getD tail) := by
  have hpoint : EndsDigits ('.' :: (fraction ++ tail)) := endsDigits_cons (by decide)
  simp only [readUnsigned, hwhole.wholePart?_append hpoint, fractionPart?_of_digits hdigits hne htail,
    Option.map_some, Option.getD_some, Option.isNone_some, Bool.false_and, Bool.false_eq_true, if_false]

/-- A number with an exponent and without a fraction. -/
theorem readUnsigned_of_exponent (hwhole : IsWhole whole) (htail : EndsDigits tail)
    (hfraction : fractionPart? tail = none) (hexponent : exponentPart? tail = some (power, [])) :
    readUnsigned negative source (whole ++ tail) =
      .ok (float (ofDecimal negative (digitsValue whole) power), []) := by
  simp only [readUnsigned, hwhole.wholePart?_append htail, hfraction, hexponent, Option.map_none,
    Option.getD_none, Option.map_some, Option.getD_some, Option.isNone_some, Bool.and_false,
    Bool.false_eq_true, if_false, List.append_nil, List.length_nil, Nat.cast_zero, sub_zero]

/-! ## The positional notation -/

theorem readUnsigned_point (hwhole : IsWhole whole) (hdigits : ∀ c ∈ fraction, c.isDigit = true)
    (hne : fraction ≠ []) : readUnsigned negative source (whole ++ '.' :: fraction) =
      .ok (float (ofDecimal negative (digitsValue (whole ++ fraction)) (-fraction.length)), []) := by
  have hread : readUnsigned negative source (whole ++ '.' :: (fraction ++ [])) = _ :=
    readUnsigned_of_fraction hwhole hdigits hne endsDigits_nil
  rw [List.append_nil] at hread
  rw [hread, ← zero_sub]
  rfl

/-- Leading digits that are read as digits of the number. -/
theorem IsWhole.append_zeros (h : IsWhole whole) (hleading : ∀ rest, whole ≠ '0' :: rest) (count : Nat) :
    IsWhole (whole ++ List.replicate count '0') := by
  obtain ⟨c, more, rfl⟩ := List.exists_cons_of_ne_nil h.nonempty
  refine ⟨?_, List.cons_ne_nil _ _, .inr ?_⟩
  · intro d hd
    rcases List.mem_append.mp hd with hd | hd
    · exact h.digits d hd
    · exact isDigit_of_mem_zeros d hd
  · intro rest heq
    exact hleading more (by rw [(List.cons.inj heq).1])

theorem IsWhole.take (h : IsWhole whole) (hleading : ∀ rest, whole ≠ '0' :: rest) (count : Nat) :
    IsWhole (whole.take (count + 1)) := by
  obtain ⟨c, more, rfl⟩ := List.exists_cons_of_ne_nil h.nonempty
  refine ⟨?_, List.cons_ne_nil _ _, .inr ?_⟩
  · intro d hd
    exact h.digits d (List.mem_of_mem_take hd)
  · intro rest heq
    exact hleading more (by rw [(List.cons.inj heq).1])

section

variable (hdigits : IsWhole digits)
include hdigits

theorem readUnsigned_positional_of_nonpos (hpoint : point ≤ 0) :
    readUnsigned negative source (positional digits point) =
      .ok (float (ofDecimal negative (digitsValue digits) (point - digits.length)), []) := by
  have hfraction : ∀ c ∈ List.replicate (-point).toNat '0' ++ digits, c.isDigit = true := by
    intro c hc
    rcases List.mem_append.mp hc with hc | hc
    · exact isDigit_of_mem_zeros c hc
    · exact hdigits.digits c hc
  have hvalue : digitsValue (['0'] ++ (List.replicate (-point).toNat '0' ++ digits)) =
      digitsValue digits := by
    have hzero : digitsValue ['0'] = 0 := rfl
    rw [digitsValue_append, digitsValue_append, digitsValue_zeros, hzero]
    omega
  have hpower : (-(List.replicate (-point).toNat '0' ++ digits).length : Int) =
      point - digits.length := by
    rw [List.length_append, List.length_replicate]
    omega
  have htext : positional digits point = ['0'] ++ '.' :: (List.replicate (-point).toNat '0' ++ digits) := by
    simp [positional, hpoint]
  rw [htext, readUnsigned_point isWhole_zero hfraction (by simp [hdigits.nonempty]), hvalue, hpower]

variable (hleading : ∀ rest, digits ≠ '0' :: rest)
include hleading

theorem readUnsigned_positional_of_lt (hpoint : 0 < point) (hlength : point < digits.length) :
    readUnsigned negative source (positional digits point) =
      .ok (float (ofDecimal negative (digitsValue digits) (point - digits.length)), []) := by
  have hdrop : digits.drop point.toNat ≠ [] := by
    rw [Ne, List.drop_eq_nil_iff]
    omega
  have htext : positional digits point = digits.take point.toNat ++ '.' :: digits.drop point.toNat := by
    have hfull : point.toNat - min point.toNat digits.length = 0 := by omega
    simp [positional, not_le.mpr hpoint, hfull, hdrop]
  have hwhole : IsWhole (digits.take point.toNat) := by
    have hcount : point.toNat = (point.toNat - 1) + 1 := by omega
    rw [hcount]
    exact hdigits.take hleading _
  have hfraction : ∀ c ∈ digits.drop point.toNat, c.isDigit = true := fun c hc =>
    hdigits.digits c (List.mem_of_mem_drop hc)
  have hpower : (-(digits.drop point.toNat).length : Int) = point - digits.length := by
    rw [List.length_drop]
    omega
  rw [htext, readUnsigned_point hwhole hfraction hdrop, List.take_append_drop, hpower]

theorem readUnsigned_positional_of_le (hpoint : 0 < point) (hlength : digits.length ≤ point) :
    readUnsigned negative source (positional digits point) =
      .ok (float (ofDecimal negative
        (digitsValue digits * 10 ^ ((point - digits.length).toNat + 1)) (-1)), []) := by
  have htake : digits.take point.toNat = digits := List.take_of_length_le (by omega)
  have hdrop : digits.drop point.toNat = [] := List.drop_of_length_le (by omega)
  have hcount : point.toNat - digits.length = (point - digits.length).toNat := by omega
  have htext : positional digits point =
      digits ++ List.replicate (point - digits.length).toNat '0' ++ '.' :: ['0'] := by
    simp only [positional, not_le.mpr hpoint, if_false, htake, hdrop, hcount, List.isEmpty_nil, if_true,
      List.append_assoc, List.cons_append, List.nil_append]
  have hvalue : digitsValue (digits ++ List.replicate (point - digits.length).toNat '0' ++ ['0']) =
      digitsValue digits * 10 ^ ((point - digits.length).toNat + 1) := by
    have hzero : digitsValue ['0'] = 0 := rfl
    rw [digitsValue_append, digitsValue_append, digitsValue_zeros, hzero, List.length_replicate,
      List.length_singleton, pow_succ]
    ring
  rw [htext, readUnsigned_point (hdigits.append_zeros hleading _) isWhole_zero.digits
    isWhole_zero.nonempty, hvalue]
  rfl

/-! ## The notation with an exponent -/

omit hdigits hleading in
theorem exponentPart?_printed (width : Nat) (power : Int) :
    exponentPart? ('e' :: (if power < 0 then '-' else '+') :: paddedDigits width power.natAbs) =
      some (power, []) := by
  have hpadded : ∀ c ∈ paddedDigits width power.natAbs, c.isDigit = true := by
    intro c hc
    rcases List.mem_append.mp hc with hc | hc
    · exact isDigit_of_mem_zeros c hc
    · exact Nat.isDigit_of_mem_toDigits (by decide) (by decide) hc
  have hne : (paddedDigits width power.natAbs).isEmpty = false := by
    simp [paddedDigits, Nat.toDigits_ne_nil]
  have hspan := spanDigits_of_digits hpadded endsDigits_nil
  rw [List.append_nil] at hspan
  have hvalue : digitsValue (paddedDigits width power.natAbs) = power.natAbs := by
    rw [paddedDigits, digitsValue_append, digitsValue_zeros, digitsValue_toDigits]
    omega
  by_cases hsign : power < 0
  · have habs : -(power.natAbs : Int) = power := by omega
    simp only [exponentPart?, hsign, if_true, true_or, hspan, hne, hvalue, habs, Bool.false_eq_true,
      if_false]
  · have habs : (power.natAbs : Int) = power := by omega
    simp only [exponentPart?, hsign, if_true, true_or, hspan, hne, hvalue, habs, Bool.false_eq_true,
      if_false]

theorem readUnsigned_scientific (style : Style) :
    readUnsigned negative source (scientific style digits point) =
      .ok (float (ofDecimal negative (digitsValue digits) (point - digits.length)), []) := by
  obtain ⟨c, more, rfl⟩ := List.exists_cons_of_ne_nil hdigits.nonempty
  have hwhole : IsWhole [c] := hdigits.take hleading 0
  have hexponent := exponentPart?_printed style.exponentWidth (point - 1)
  have hends : EndsDigits ('e' :: (if point - 1 < 0 then '-' else '+') ::
    paddedDigits style.exponentWidth (point - 1).natAbs) := endsDigits_cons (by decide)
  rcases more with _ | ⟨d, more⟩
  · have htext : scientific style [c] point = [c] ++ 'e' :: (if point - 1 < 0 then '-' else '+') ::
        paddedDigits style.exponentWidth (point - 1).natAbs := rfl
    rw [htext, readUnsigned_of_exponent hwhole hends rfl hexponent]
    rfl
  · have htext : scientific style (c :: d :: more) point = [c] ++ '.' :: ((d :: more) ++
        'e' :: (if point - 1 < 0 then '-' else '+') ::
          paddedDigits style.exponentWidth (point - 1).natAbs) := by
      simp [scientific]
    have hmore : ∀ x ∈ d :: more, x.isDigit = true := fun x hx =>
      hdigits.digits x (List.mem_cons_of_mem _ hx)
    have hpower : point - 1 - ((d :: more).length : Int) = point - ((c :: d :: more).length : Int) := by
      rw [List.length_cons (a := c)]
      omega
    rw [htext, readUnsigned_of_fraction hwhole hmore (List.cons_ne_nil _ _) hends, hexponent]
    simp only [Option.map_some, Option.getD_some, List.singleton_append, hpower]

end

/-! ## Decimals -/

theorem isWhole_toDigits (n : Nat) : IsWhole (Nat.toDigits 10 n) := by
  refine ⟨fun c => Nat.isDigit_of_mem_toDigits (by decide) (by decide), Nat.toDigits_ne_nil, ?_⟩
  rcases Nat.eq_zero_or_pos n with rfl | hn
  · exact .inl rfl
  · exact .inr (head_toDigits_ne_zero hn)

/-- A decimal is read as the number nearest to its value. -/
theorem readUnsigned_render {d : Decimal} (hd : 0 < d.digits) :
    readUnsigned negative source (d.render plain) = .ok (float (nearest negative d.value), []) := by
  have hleading := head_toDigits_ne_zero hd
  have hdigits := isWhole_toDigits d.digits
  have hpoint : ((Nat.toDigits 10 d.digits).length : Int) + d.exponent -
      (Nat.toDigits 10 d.digits).length = d.exponent := by omega
  have hexact : ofDecimal negative d.digits d.exponent = nearest negative d.value :=
    ofDecimal_eq_nearest hd
  unfold Decimal.render
  simp only
  split
  · rename_i hplace
    by_cases hnonpos : ((Nat.toDigits 10 d.digits).length : Int) + d.exponent ≤ 0
    · rw [readUnsigned_positional_of_nonpos hdigits hnonpos, hpoint, digitsValue_toDigits, hexact]
    · by_cases hlength : ((Nat.toDigits 10 d.digits).length : Int) + d.exponent <
          (Nat.toDigits 10 d.digits).length
      · rw [readUnsigned_positional_of_lt hdigits hleading (by omega) hlength, hpoint,
          digitsValue_toDigits, hexact]
      · -- the zeros up to the point and the one behind it are read as digits
        obtain ⟨count, hcount⟩ : ∃ count : Nat, d.exponent = count := ⟨d.exponent.toNat, by omega⟩
        have hvalue : ((d.digits * 10 ^ (count + 1) : Nat) : ℚ) * 10 ^ (-1 : Int) = d.value := by
          rw [Decimal.value, hcount, zpow_natCast, zpow_neg_one, pow_succ]
          push_cast
          ring
        rw [readUnsigned_positional_of_le hdigits hleading (by omega) (by omega), hpoint,
          digitsValue_toDigits, hcount, Int.toNat_natCast,
          ofDecimal_eq_nearest (Nat.mul_pos hd (Nat.pow_pos (by decide))), hvalue]
  · rw [readUnsigned_scientific hdigits hleading, hpoint, digitsValue_toDigits, hexact]

/-! ## Printed numbers -/

theorem printFloat_finite (negative : Bool) (m : Nat) (e : Int) : printFloat (.finite negative m e) =
    if negative then '-' :: (if m = 0 then ['0', '.', '0'] else (shortest m e).render plain)
    else if m = 0 then ['0', '.', '0'] else (shortest m e).render plain := rfl

/-- A rendered decimal starts with a digit. -/
theorem exists_render_eq_cons (d : Decimal) :
    ∃ c text, d.render plain = c :: text ∧ c.isDigit = true := by
  have hdigits := isWhole_toDigits d.digits
  obtain ⟨c, more, heq⟩ := List.exists_cons_of_ne_nil hdigits.nonempty
  have hc : c.isDigit = true := hdigits.digits c (heq ▸ List.mem_cons_self)
  unfold Decimal.render
  simp only [heq]
  split
  · by_cases hpoint : (((c :: more).length : Nat) : Int) + d.exponent ≤ 0
    · rw [positional, if_pos hpoint]
      exact ⟨_, _, rfl, by decide⟩
    · obtain ⟨count, hcount⟩ : ∃ count, ((((c :: more).length : Nat) : Int) + d.exponent).toNat =
          count + 1 := ⟨((((c :: more).length : Nat) : Int) + d.exponent).toNat - 1, by omega⟩
      rw [positional, if_neg hpoint, hcount]
      exact ⟨c, _, rfl, hc⟩
  · exact ⟨c, _, rfl, hc⟩

/-- A binary number is read back. -/
theorem readChars_printFloat {x : Binary64} (hx : x.Canonical) : readChars (printFloat x) = .ok (float x) := by
  cases x with
  | nan => rfl
  | infinite negative =>
      cases negative with
      | false => rfl
      | true => rfl
  | finite negative m e =>
      rw [printFloat_finite]
      -- zero has no shortest digits and is printed by itself
      by_cases hm : m = 0
      · subst hm
        have hexponent : e = leastExponent := by
          rcases hx.2.1 with hnormal | hleast
          · omega
          · exact hleast
        subst hexponent
        cases negative with
        | false => rfl
        | true => rfl
      · have hpositive : (Binary64.finite false m e).Canonical := hx
        obtain ⟨hdigits, hnearest⟩ := shortest_spec hpositive (Nat.pos_of_ne_zero hm)
        obtain ⟨c, text, htext, hc⟩ := exists_render_eq_cons (shortest m e)
        have hread : ∀ source, readUnsigned negative source ((shortest m e).render plain) =
            .ok (float (.finite negative m e), []) := fun source => by
          rw [readUnsigned_render hdigits, nearest_negative hnearest]
        simp only [hm, if_false]
        rw [htext] at hread ⊢
        exact readChars_of_readUnsigned hc hread

end ChangeImpact.Json
