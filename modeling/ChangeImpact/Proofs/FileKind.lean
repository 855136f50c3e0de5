import ChangeImpact.FileKind
import Mathlib.Data.List.Forall2

/-!
# Names that mark tests

A file name marks a test by its end: a mark, a dot and the extension of a script, in whatever case, possibly with a
line feed after it.  Of a name of which the mark and the extension are given, only the extension has to be looked at,
and that there is no line feed before the mark (`isTestName_iff`).

An extension has one dot, its first character, and no other character is a spelling of a dot (`spells_dot`).  So the
last dot of a name is where an extension has to start, and nothing in front of it can be mistaken for a part of it.
-/

namespace ChangeImpact

theorem Text.eq_of_ofNat_eq_dot {n : Nat} (h : Char.ofNat n = '.') : n = 0x2e := by
  by_cases hvalid : n.isValidChar
  · rw [show Char.ofNat n = Char.ofNatAux n hvalid from dif_pos hvalid] at h
    exact congrArg Char.toNat h
  · rw [show Char.ofNat n = _ from dif_neg hvalid] at h
    cases h

/-- No other character has a dot as its small letter. -/
theorem Text.lowerChar_eq_dot {c : Char} (h : Text.lowerChar c = '.') : c = '.' := by
  have hascii : ∀ n < 0x80, (Char.ofNat n).toLower = '.' → Char.ofNat n = '.' := by decide +kernel
  have hruns : ∀ run ∈ Text.caseRuns, (0x2e : Int) < run.first + run.offset := by decide +kernel
  unfold Text.lowerChar at h
  split at h
  · rename_i hlow
    have hc := hascii c.toNat hlow
    rw [Char.ofNat_toNat] at hc
    exact hc h
  · split at h
    · rename_i run hrun
      have hlt := hruns run (List.mem_of_find?_eq_some hrun)
      have hrange := List.find?_some hrun
      simp only [Bool.and_eq_true, decide_eq_true_eq] at hrange
      have hnumber := Text.eq_of_ofNat_eq_dot h
      omega
    · exact h

namespace FileKind

variable {pattern text front back base letters : List Char} {c p : Char}

/-! ## Spellings -/

/-- A text spells a pattern, character by character. -/
def Spelled (pattern text : List Char) : Prop :=
  List.Forall₂ (fun p c => spells p c = true) pattern text

theorem spells_dot (h : spells '.' c = true) : c = '.' := by
  have hlow : Text.lowerChar c = '.' := by simpa [spells] using h
  exact Text.lowerChar_eq_dot hlow

theorem eq_dot_of_spells (h : spells p '.' = true) : p = '.' := by
  have hlow : Text.lowerChar '.' = '.' := by decide
  have hdot : '.' = p := by simpa [spells, hlow] using h
  exact hdot.symm

theorem afterSpelling?_eq_some_nil_iff : afterSpelling? pattern text = some [] ↔ Spelled pattern text := by
  induction pattern generalizing text with
  | nil => simp [afterSpelling?, Spelled]
  | cons p pattern ih =>
      cases text with
      | nil => simp [afterSpelling?, Spelled]
      | cons c text => simp [afterSpelling?, Spelled, ih]

instance : Decidable (Spelled pattern text) := decidable_of_iff _ afterSpelling?_eq_some_nil_iff

theorem spelled_append_iff {first second : List Char} : Spelled (first ++ second) text ↔
    ∃ front back, text = front ++ back ∧ Spelled first front ∧ Spelled second back := by
  constructor
  · intro h
    induction first generalizing text with
    | nil => exact ⟨[], text, rfl, .nil, h⟩
    | cons p first ih =>
        obtain ⟨c, rest, hc, hrest, rfl⟩ := List.forall₂_cons_left_iff.mp h
        obtain ⟨front, back, rfl, hfront, hback⟩ := ih hrest
        exact ⟨c :: front, back, rfl, .cons hc hfront, hback⟩
  · rintro ⟨front, back, rfl, hfront, hback⟩
    exact List.rel_append hfront hback

theorem Spelled.not_mem_dot (h : Spelled pattern text) (hpattern : '.' ∉ pattern) : '.' ∉ text := by
  induction h with
  | nil => exact List.not_mem_nil
  | cons hc hrest ih =>
      rw [List.mem_cons, not_or] at hpattern ⊢
      exact ⟨fun heq => hpattern.1 (eq_dot_of_spells (heq ▸ hc)).symm, ih hpattern.2⟩

theorem lineEndsWith_iff {pattern : String} : lineEndsWith pattern text = true ↔
    ∃ front back, text = front ++ back ∧ '\n' ∉ front ∧ Spelled pattern.toList back := by
  simp only [lineEndsWith, Bool.and_eq_true, decide_eq_true_eq, Bool.not_eq_true', beq_iff_eq,
    afterSpelling?_eq_some_nil_iff]
  constructor
  · rintro ⟨⟨-, hline⟩, hspelled⟩
    exact ⟨_, _, (List.take_append_drop _ _).symm, by simpa using hline, hspelled⟩
  · rintro ⟨front, back, rfl, hline, hspelled⟩
    have hlength : pattern.length = back.length := by
      rw [← String.length_toList]
      exact List.Forall₂.length_eq hspelled
    have hcut : (front ++ back).length - pattern.length = front.length := by
      rw [List.length_append, hlength, Nat.add_sub_cancel]
    rw [hcut, List.take_left, List.drop_left]
    exact ⟨⟨by rw [List.length_append]; omega, by simpa using hline⟩, hspelled⟩

/-! ## Marks and extensions -/

/-- The extensions of scripts. -/
def scriptExtensions : List String :=
  [".", ".c", ".m"].flatMap fun lead => ["js", "ts", "jsx", "tsx"].map fun rest => lead ++ rest

theorem testEndings_eq : testEndings = [".test", ".spec"].flatMap fun mark => scriptExtensions.map (mark ++ ·) := by
  decide

/-- The last dot of a text is in one place only. -/
theorem append_dot_inj {first second : List Char} (hfirst : '.' ∉ first) (hsecond : '.' ∉ second) :
    front ++ '.' :: first = back ++ '.' :: second ↔ front = back ∧ first = second := by
  constructor
  · intro h
    rcases List.append_eq_append_iff.mp h with ⟨between, rfl, hbetween⟩ | ⟨between, rfl, hbetween⟩
    · cases between with
      | nil => exact ⟨(List.append_nil _).symm, (List.cons.inj hbetween).2⟩
      | cons c between =>
          rw [(List.cons.inj hbetween).2] at hfirst
          exact absurd (List.mem_append_right _ List.mem_cons_self) hfirst
    · cases between with
      | nil => exact ⟨List.append_nil _, (List.cons.inj hbetween).2.symm⟩
      | cons c between =>
          rw [(List.cons.inj hbetween).2] at hsecond
          exact absurd (List.mem_append_right _ List.mem_cons_self) hsecond
  · rintro ⟨rfl, rfl⟩
    rfl

theorem lineForms_append (h : text ≠ []) : lineForms (front ++ text) = (lineForms text).map (front ++ ·) := by
  rw [lineForms, lineForms, List.getLast?_append_of_ne_nil _ h, List.dropLast_append_of_ne_nil h]
  split
  · rfl
  · rfl

/-- With or without the line feed, an extension is a dot and has no other one. -/
theorem exists_of_mem_lineForms {form : List Char} (hletters : '.' ∉ letters) (h : form ∈ lineForms ('.' :: letters)) :
    ∃ others, form = '.' :: others ∧ '.' ∉ others := by
  rw [lineForms] at h
  split at h
  · rename_i hlast
    obtain ⟨c, rest, rfl⟩ : ∃ c rest, letters = c :: rest := by
      refine List.exists_cons_of_ne_nil ?_
      rintro rfl
      cases hlast
    rcases List.mem_pair.mp h with rfl | rfl
    · exact ⟨_, rfl, hletters⟩
    · exact ⟨(c :: rest).dropLast, rfl, fun hmem => hletters ((List.dropLast_sublist _).subset hmem)⟩
  · exact ⟨letters, List.mem_singleton.mp h, hletters⟩

/-- The mark and the extension of a pattern meet the mark and the extension of a name. -/
theorem lineEndsWith_test_iff {mark other extension : String} (hmark : mark ∈ [".test", ".spec"])
    (hother : other ∈ [".test", ".spec"]) (hextension : extension ∈ scriptExtensions) (hletters : '.' ∉ letters) :
    lineEndsWith (other ++ extension) (base ++ mark.toList ++ '.' :: letters) = true ↔
      '\n' ∉ base ∧ Spelled other.toList mark.toList ∧ Spelled extension.toList ('.' :: letters) := by
  have hlength : other.toList.length = mark.toList.length := by
    have hall : ∀ mark ∈ [".test", ".spec"], mark.toList.length = 5 := by decide
    rw [hall other hother, hall mark hmark]
  have hdot : ∀ extension ∈ scriptExtensions,
      extension.toList.head? = some '.' ∧ '.' ∉ extension.toList.tail := by decide
  obtain ⟨hhead, htail⟩ := hdot extension hextension
  obtain ⟨others, hextension⟩ := List.head?_eq_some_iff.mp hhead
  rw [hextension, List.tail_cons] at htail
  rw [lineEndsWith_iff, String.toList_append]
  constructor
  · rintro ⟨front, back, htext, hline, hspelled⟩
    obtain ⟨first, second, rfl, hfirst, hsecond⟩ := spelled_append_iff.mp hspelled
    have hsecond' := hsecond
    rw [hextension] at hsecond'
    obtain ⟨c, rest, hc, hrest, rfl⟩ := List.forall₂_cons_left_iff.mp hsecond'
    obtain rfl := spells_dot hc
    -- the extension of the pattern starts at the last dot of the name
    rw [← List.append_assoc, append_dot_inj hletters (Spelled.not_mem_dot hrest htail)] at htext
    obtain ⟨hfront, rfl⟩ := htext
    obtain ⟨rfl, rfl⟩ := List.append_inj' hfront (hlength.symm.trans (List.Forall₂.length_eq hfirst))
    exact ⟨hline, hfirst, hsecond⟩
  · rintro ⟨hline, hfirst, hsecond⟩
    exact ⟨base, mark.toList ++ '.' :: letters, List.append_assoc .., hline, spelled_append_iff.mpr
      ⟨_, _, rfl, hfirst, hsecond⟩⟩

/-- A name with a mark and an extension marks a test if the extension is spelled like that of a script, and there is
no line feed but perhaps one at the end. -/
theorem isTestName_iff {mark : String} (hmark : mark ∈ [".test", ".spec"]) (hletters : '.' ∉ letters) :
    isTestName (base ++ mark.toList ++ '.' :: letters) = true ↔ '\n' ∉ base ∧
      ∃ extension ∈ scriptExtensions, ∃ form ∈ lineForms ('.' :: letters), Spelled extension.toList form := by
  have hself : ∀ mark ∈ [".test", ".spec"], Spelled mark.toList mark.toList := by decide
  rw [isTestName, lineForms_append (List.cons_ne_nil _ _), List.any_map, testEndings_eq]
  simp only [List.any_eq_true, List.mem_flatMap, List.mem_map, Function.comp_apply]
  constructor
  · rintro ⟨form, hform, _, ⟨other, hother, extension, hextension, rfl⟩, hends⟩
    obtain ⟨others, rfl, hothers⟩ := exists_of_mem_lineForms hletters hform
    obtain ⟨hline, -, hspelled⟩ := (lineEndsWith_test_iff hmark hother hextension hothers).mp hends
    exact ⟨hline, extension, hextension, _, hform, hspelled⟩
  · rintro ⟨hline, extension, hextension, form, hform, hspelled⟩
    obtain ⟨others, rfl, hothers⟩ := exists_of_mem_lineForms hletters hform
    refine ⟨_, hform, _, ⟨mark, hmark, extension, hextension, rfl⟩, ?_⟩
    exact (lineEndsWith_test_iff hmark hmark hextension hothers).mpr ⟨hline, hself mark hmark, hspelled⟩

end FileKind
end ChangeImpact
