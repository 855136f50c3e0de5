import ChangeImpact.Text.Blank
import Mathlib.Data.List.Basic
import Mathlib.Data.List.TakeDrop
import Mathlib.Data.List.TakeWhile

/-!
# Characters of a text, and stripped texts

Stripping takes nothing out of the middle of a text, and leaves a text as it is if and only if that neither starts
nor ends with a blank (`strip_eq_self_iff`).  Blanks around a text make no difference to it, and around a character
that is not blank each end is stripped by itself (`strip_append_cons`).
-/

namespace ChangeImpact.Text

variable {text front back : List Char} {c : Char}

/-- What is decided for the characters of a list is decided one after another, and not for all characters
that there are. -/
theorem forall_mem_of_all {p : Char → Prop} [DecidablePred p] {word : List Char}
    (h : word.all (fun c => decide (p c)) = true) : ∀ c ∈ word, p c := fun c hc =>
  of_decide_eq_true (List.all_eq_true.mp h c hc)

/-- What is known of its first character is known of the start of a text. -/
theorem forall_mem_head?_cons {p : Char → Bool} {value : Bool} (hc : p c = value) :
    ∀ d ∈ (c :: text).head?, p d = value :=
  fun _ hd => Option.some.inj hd ▸ hc

theorem span_append {p : Char → Bool} (hfront : ∀ c ∈ front, p c = true) (hback : ∀ c ∈ back.head?, p c = false) :
    (front ++ back).span p = (front, back) := by
  rw [List.span_eq_takeWhile_dropWhile, List.takeWhile_append_of_pos hfront, List.dropWhile_append_of_pos hfront]
  cases back with
  | nil => simp
  | cons c others => simp [hback c rfl]

/-- What a span takes and what it leaves. -/
theorem span_eq_iff {p : Char → Bool} : text.span p = (front, back) ↔
    text = front ++ back ∧ (∀ c ∈ front, p c = true) ∧ ∀ c ∈ back.head?, p c = false := by
  constructor
  · rw [List.span_eq_takeWhile_dropWhile, Prod.mk.injEq]
    rintro ⟨rfl, rfl⟩
    refine ⟨List.takeWhile_append_dropWhile.symm, fun c hc => List.mem_takeWhile_imp hc, fun c hc => ?_⟩
    have hstop := List.head?_dropWhile_not p text
    rwa [hc] at hstop
  · rintro ⟨rfl, hfront, hback⟩
    exact span_append hfront hback

theorem dropWhile_isBlank_eq_self_iff :
    text.dropWhile isBlank = text ↔ ∀ c ∈ text.head?, isBlank c = false := by
  cases text with
  | nil => simp
  | cons c rest =>
      constructor
      · intro hkept d hd
        obtain rfl : c = d := Option.some.inj hd
        have hfirst := List.head?_dropWhile_not isBlank (c :: rest)
        rw [hkept] at hfirst
        exact hfirst
      · exact fun h => List.dropWhile_cons_of_neg (by simp [h c rfl])

/-- What stripping takes from the start are blanks. -/
theorem exists_stripLeft (text : List Char) :
    ∃ blanks, (∀ c ∈ blanks, isBlank c = true) ∧ text = blanks ++ stripLeft text :=
  ⟨text.takeWhile isBlank, fun _ hc => List.mem_takeWhile_imp hc, List.takeWhile_append_dropWhile.symm⟩

theorem stripLeft_append (hfront : ∀ c ∈ front, isBlank c = true) (hc : isBlank c = false) (rest : List Char) :
    stripLeft (front ++ c :: rest) = c :: rest := by
  rw [stripLeft, List.dropWhile_append_of_pos hfront, List.dropWhile_cons_of_neg (by simp [hc])]

theorem stripRight_append (hfront : ∀ c ∈ front.getLast?, isBlank c = false) (hback : ∀ c ∈ back, isBlank c = true) :
    stripRight (front ++ back) = front := by
  rw [stripRight, List.reverse_append, List.dropWhile_append_of_pos (by simpa using hback),
    dropWhile_isBlank_eq_self_iff.mpr (by simpa using hfront), List.reverse_reverse]

/-- What stripping takes from the end are blanks. -/
theorem exists_stripRight (text : List Char) :
    ∃ blanks, (∀ c ∈ blanks, isBlank c = true) ∧ text = stripRight text ++ blanks := by
  refine ⟨(text.reverse.takeWhile isBlank).reverse, fun c hc => List.mem_takeWhile_imp (List.mem_reverse.mp hc), ?_⟩
  rw [stripRight, ← List.reverse_append, List.takeWhile_append_dropWhile, List.reverse_reverse]

theorem strip_sublist_stripLeft (text : List Char) : (strip text).Sublist (stripLeft text) := by
  have hdropped := (List.dropWhile_sublist (l := (stripLeft text).reverse) isBlank).reverse
  rwa [List.reverse_reverse] at hdropped

theorem strip_sublist (text : List Char) : (strip text).Sublist text :=
  (strip_sublist_stripLeft text).trans (List.dropWhile_sublist isBlank)

theorem strip_eq_self_iff : strip text = text ↔
    (∀ c ∈ text.head?, isBlank c = false) ∧ ∀ c ∈ text.getLast?, isBlank c = false := by
  have hright : stripRight text = text ↔ ∀ c ∈ text.getLast?, isBlank c = false := by
    rw [stripRight, List.reverse_eq_iff, dropWhile_isBlank_eq_self_iff, List.head?_reverse]
  constructor
  · intro hkept
    -- nothing can be put back at the end, so nothing has been taken from the start
    have hle := (strip_sublist_stripLeft text).length_le
    rw [hkept] at hle
    have hleft : stripLeft text = text := (List.dropWhile_sublist isBlank).eq_of_length_le hle
    rw [strip, hleft] at hkept
    exact ⟨dropWhile_isBlank_eq_self_iff.mp hleft, hright.mp hkept⟩
  · rintro ⟨hfirst, hlast⟩
    have hleft : stripLeft text = text := dropWhile_isBlank_eq_self_iff.mpr hfirst
    rw [strip, hleft]
    exact hright.mpr hlast

theorem strip_cons (h : isBlank c = false) (rest : List Char) :
    ∃ others, strip (c :: rest) = c :: others := by
  rw [strip, stripLeft, List.dropWhile_cons_of_neg (by simp [h]), stripRight, List.reverse_cons,
    List.dropWhile_append]
  split
  · exact ⟨[], by simp [h]⟩
  · exact ⟨(rest.reverse.dropWhile isBlank).reverse, by simp⟩

/-! ## Stripping around a character that is not blank, and around blanks -/

theorem stripLeft_append_cons (hc : isBlank c = false) (front rest : List Char) :
    stripLeft (front ++ c :: rest) = stripLeft front ++ c :: rest := by
  rw [stripLeft, List.dropWhile_append]
  split
  · rename_i hblank
    rw [stripLeft, List.isEmpty_iff.mp hblank, List.dropWhile_cons_of_neg (by simp [hc]), List.nil_append]
  · rfl

theorem stripRight_append_cons (hc : isBlank c = false) (front back : List Char) :
    stripRight (front ++ c :: back) = front ++ c :: stripRight back := by
  have hreversed : (front ++ c :: back).reverse = back.reverse ++ c :: front.reverse := by simp
  calc stripRight (front ++ c :: back)
      = (stripLeft (back.reverse ++ c :: front.reverse)).reverse := by rw [stripRight, hreversed, stripLeft]
    _ = (stripLeft back.reverse ++ c :: front.reverse).reverse := by rw [stripLeft_append_cons hc]
    _ = front ++ c :: stripRight back := by simp [stripLeft, stripRight]

/-- Around a character that is not blank each end is stripped by itself. -/
theorem strip_append_cons (hc : isBlank c = false) (front back : List Char) :
    strip (front ++ c :: back) = stripLeft front ++ c :: stripRight back := by
  rw [strip, stripLeft_append_cons hc, stripRight_append_cons hc]

theorem strip_blanks_append (hfront : ∀ c ∈ front, isBlank c = true) (text : List Char) :
    strip (front ++ text) = strip text := by
  rw [strip, stripLeft, List.dropWhile_append_of_pos hfront]
  rfl

theorem strip_append_blanks (hback : ∀ c ∈ back, isBlank c = true) (text : List Char) :
    strip (text ++ back) = strip text := by
  rw [strip, strip, stripLeft, stripLeft, List.dropWhile_append]
  split
  · rename_i hblank
    rw [List.isEmpty_iff.mp hblank, List.dropWhile_eq_nil_iff.mpr hback]
  · rw [stripRight, List.reverse_append, List.dropWhile_append_of_pos (by simpa using hback), stripRight]

theorem strip_stripLeft (text : List Char) : strip (stripLeft text) = strip text := by
  obtain ⟨blanks, hblanks, htext⟩ := exists_stripLeft text
  rw [← strip_blanks_append hblanks (stripLeft text), ← htext]

theorem strip_stripRight (text : List Char) : strip (stripRight text) = strip text := by
  obtain ⟨blanks, hblanks, htext⟩ := exists_stripRight text
  rw [← strip_append_blanks hblanks (stripRight text), ← htext]

end ChangeImpact.Text
