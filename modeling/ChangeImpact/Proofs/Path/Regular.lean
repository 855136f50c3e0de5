import ChangeImpact.Proofs.Path.Settling
import Mathlib.Data.List.Infix

/-!
# The spelling of keys

Every key is spelled regularly: with slashes, without segments that lead nowhere, and with steps up only where they
cannot be resolved.  And whatever is spelled like that, with no blanks at its ends, is its own key
(`regular_key_and_key_eq_self_iff`).

What a regular spelling is, is said of the text (`Regular`), not of the segments that collapsing leaves.  The two
agree: a text without backslashes is regular if and only if it is made of at most two slashes and of segments that
are entered as they stand (`regular_iff`).
-/

namespace ChangeImpact.Path

variable {path text rest : List Char} {names : List Segment} {slashes : Nat}

/-- A regular spelling: no backslashes, no segments `.`, two slashes in a row only at the start and not three, a slash
at the end only if there is nothing but slashes, and `..` only before all other segments of a relative path. -/
structure Regular (text : List Char) : Prop where
  backslash : '\\' ∉ text
  dot : here ∉ text.splitOn '/'
  double : ¬ ['/', '/'] <:+: text.drop 1
  trailing : text.getLast? = some '/' → text = ['/'] ∨ text = ['/', '/']
  steps : above ∉ (text.splitOn '/').dropWhile (· = above)

instance : DecidablePred Regular := fun text =>
  decidable_of_iff ('\\' ∉ text ∧ here ∉ text.splitOn '/' ∧ ¬ ['/', '/'] <:+: text.drop 1 ∧
      (text.getLast? = some '/' → text = ['/'] ∨ text = ['/', '/']) ∧ above ∉ (text.splitOn '/').dropWhile (· = above))
    ⟨fun ⟨hslashes, hdot, hdouble, htrailing, hsteps⟩ => ⟨hslashes, hdot, hdouble, htrailing, hsteps⟩,
      fun h => ⟨h.backslash, h.dot, h.double, h.trailing, h.steps⟩⟩

/-! ## Segments that are entered as they stand -/

/-- Segments that nothing is resolved of: steps up, but none from the top, and then plain names. -/
def Final (absolute : Bool) (names : List Segment) : Prop :=
  ∃ up plain, (absolute = true → up = 0) ∧ (∀ name ∈ plain, Named name ∧ Plain name) ∧
    names = List.replicate up above ++ plain

theorem final_segments (path : List Char) : Final (isAbsolute path) (segments path) := by
  obtain ⟨up, plain, hup, hplain, hsegments⟩ := exists_segments path
  refine ⟨up, plain, hup, fun name hname => ⟨?_, hplain name hname⟩, hsegments⟩
  exact named_of_mem_segments (hsegments ▸ List.mem_append_right _ hname)

theorem Final.named {absolute : Bool} (h : Final absolute names) {name : Segment} (hname : name ∈ names) :
    Named name ∧ name ≠ here := by
  obtain ⟨up, plain, -, hplain, rfl⟩ := h
  rcases List.mem_append.mp hname with hup | hname
  · rw [List.eq_of_mem_replicate hup]
    decide
  · exact ⟨(hplain name hname).1, (hplain name hname).2.2.1⟩

theorem Final.foldl_enter {absolute : Bool} (h : Final absolute names) :
    names.foldl (enter absolute) [] = names.reverse := by
  obtain ⟨up, plain, hup, hplain, rfl⟩ := h
  have hclimb : (List.replicate up above).foldl (enter absolute) [] = List.replicate up above := by
    cases absolute with
    | true => rw [hup rfl, List.replicate_zero, List.foldl_nil]
    | false => exact foldl_enter_replicate_above up
  rw [List.foldl_append, hclimb, foldl_enter_of_plain fun name hname => (hplain name hname).2, List.reverse_append,
    List.reverse_replicate]

/-- A text of slashes and names. -/
def spelled (slashes : Nat) (names : List Segment) : List Char :=
  List.replicate slashes '/' ++ ['/'].intercalate names

theorem splitOn_spelled (slashes : Nat) (hnamed : ∀ name ∈ names, Named name) (hsome : names ≠ []) :
    (spelled slashes names).splitOn '/' = List.replicate slashes [] ++ names := by
  rw [spelled, splitOn_slashes, List.splitOn_intercalate '/' (fun name hname => (hnamed name hname).2) hsome]

theorem isAbsolute_spelled (hnamed : ∀ name ∈ names, Named name) :
    isAbsolute (spelled slashes names) = decide (0 < slashes) := by
  cases slashes with
  | zero => exact isAbsolute_intercalate hnamed
  | succ slashes => rfl

theorem mem_spelled {c : Char} (h : c ∈ spelled slashes names) : c = '/' ∨ ∃ name ∈ names, c ∈ name :=
  (List.mem_append.mp h).elim (fun hslash => .inl (List.eq_of_mem_replicate hslash)) mem_intercalate

/-- Collapsing changes nothing about a text of at most two slashes and of final segments. -/
theorem collapseKey_spelled (hfew : slashes < 3) (hfinal : Final (decide (0 < slashes)) names) :
    collapseKey (spelled slashes names) = spelled slashes names := by
  have hnamed : ∀ name ∈ names, Named name := fun name hname => (hfinal.named hname).1
  by_cases hempty : spelled slashes names = []
  · rw [hempty]
    rfl
  have hslashes : rootSlashes (spelled slashes names) = slashes :=
    rootSlashes_replicate_append hfew (isAbsolute_intercalate hnamed)
  have hself : spell (spelled slashes names) names = spelled slashes names := by
    rw [spell, hslashes]
    exact if_neg fun hnone => hempty (List.isEmpty_iff.mp hnone)
  have htidy : tidySegments (spelled slashes names) = names := by
    rw [← hself]
    exact tidySegments_spell _ fun name hname => hfinal.named hname
  have hsegments : segments (spelled slashes names) = names := by
    rw [segments_eq, htidy, isAbsolute_spelled hnamed, hfinal.foldl_enter, List.reverse_reverse]
  have hcollapse : collapse (spelled slashes names) = spelled slashes names := by
    change spell (spelled slashes names) (segments (spelled slashes names)) = _
    rw [hsegments, hself]
  -- a dot is no final segment, so the text is not the one that stands for the current directory
  have hhere : spelled slashes names ≠ here := by
    intro hhere
    have hdot : '.' ∈ spelled slashes names := hhere ▸ List.mem_singleton_self '.'
    rcases mem_spelled hdot with hslash | ⟨name, hname, -⟩
    · cases hslash
    · have hsplit := splitOn_spelled slashes hnamed (List.ne_nil_of_mem hname)
      rw [hhere] at hsplit
      have hmem : name ∈ here.splitOn '/' := hsplit ▸ List.mem_append_right _ hname
      exact (hfinal.named hname).2 (List.mem_singleton.mp hmem)
  rw [collapseKey, hcollapse, if_neg hhere]

/-! ## Regular texts are made of final segments -/

theorem mem_splitOn_spelled (hnamed : ∀ name ∈ names, Named name) {segment : Segment}
    (h : segment ∈ (spelled slashes names).splitOn '/') : segment = [] ∨ segment ∈ names := by
  by_cases hnone : names = []
  · rw [hnone, spelled, splitOn_slashes, List.intercalate_nil, List.splitOn_nil, List.mem_append,
      List.mem_singleton] at h
    exact .inl (h.elim List.eq_of_mem_replicate id)
  · rw [splitOn_spelled slashes hnamed hnone, List.mem_append] at h
    exact h.imp_left List.eq_of_mem_replicate

/-- Two slashes in a row, not both at the start, have an empty segment between them. -/
theorem not_double_spelled (hfew : slashes < 3) (hnamed : ∀ name ∈ names, Named name) :
    ¬ ['/', '/'] <:+: (spelled slashes names).drop 1 := by
  rintro ⟨front, back, hdouble⟩
  obtain ⟨c, hc⟩ : ∃ c, spelled slashes names = (c :: front) ++ '/' :: '/' :: back := by
    cases htext : spelled slashes names with
    | nil => simp [htext] at hdouble
    | cons c rest =>
        rw [htext, List.drop_one, List.tail_cons] at hdouble
        exact ⟨c, by rw [← hdouble]; simp⟩
  by_cases hnone : names = []
  · have hlength := congrArg List.length hc
    rw [hnone, spelled, List.intercalate_nil, List.append_nil] at hlength
    simp only [List.length_replicate, List.length_append, List.length_cons] at hlength
    omega
  have hempty : [] ∉ names := fun hmem => (hnamed [] hmem).1 rfl
  have hsplit := splitOn_spelled slashes hnamed hnone
  rw [hc, List.splitOn_append_cons_self, splitOn_cons_slash] at hsplit
  rcases List.append_eq_append_iff.mp hsplit with ⟨others, hslashes, hnames⟩ | ⟨others, -, hnames⟩
  · -- what stands before the empty segment is one of the slashes at the start, with the other one before it
    have hall : ∀ segment ∈ (c :: front).splitOn '/', segment = [] := fun segment hsegment =>
      List.eq_of_mem_replicate (hslashes ▸ List.mem_append_left _ hsegment)
    have hfirst : c = '/' := by
      by_contra hne
      have hhead := head?_splitOn_ne (List.cons_ne_nil c front) (by simpa [isAbsolute] using hne)
      obtain ⟨segment, others, hparts⟩ := List.exists_cons_of_ne_nil (List.splitOn_ne_nil '/' (c :: front))
      rw [hparts] at hall hhead
      exact hhead (congrArg some (hall segment List.mem_cons_self))
    rw [hfirst, splitOn_cons_slash] at hslashes
    have hlength := congrArg List.length hslashes
    have hfront := List.length_pos_iff.mpr (List.splitOn_ne_nil '/' front)
    rw [List.length_replicate, List.length_append, List.length_cons] at hlength
    have hothers : others = [] := List.length_eq_zero_iff.mp (by omega)
    rw [hothers, List.nil_append] at hnames
    exact hempty (hnames ▸ List.mem_cons_self)
  · exact hempty (hnames ▸ List.mem_append_right _ List.mem_cons_self)

theorem regular_spelled (hfew : slashes < 3) (hfinal : Final (decide (0 < slashes)) names)
    (hslashes : '\\' ∉ spelled slashes names) : Regular (spelled slashes names) := by
  have hnamed : ∀ name ∈ names, Named name := fun name hname => (hfinal.named hname).1
  refine ⟨hslashes, fun hhere => ?_, not_double_spelled hfew hnamed, fun hlast => ?_, fun habove => ?_⟩
  · rcases mem_splitOn_spelled hnamed hhere with hempty | hname
    · cases hempty
    · exact (hfinal.named hname).2 rfl
  · by_cases hnone : names = []
    · rw [hnone, spelled, List.intercalate_nil, List.append_nil] at hlast ⊢
      obtain rfl | rfl | rfl : slashes = 0 ∨ slashes = 1 ∨ slashes = 2 := by omega
      · cases hlast
      · exact .inl rfl
      · exact .inr rfl
    · rw [spelled, List.getLast?_append_of_ne_nil _ (intercalate_ne_nil hnamed hnone)] at hlast
      exact absurd hlast (getLast?_intercalate_ne hnamed)
  · have hname : above ∈ names :=
      (mem_splitOn_spelled hnamed ((List.dropWhile_sublist _).subset habove)).resolve_left (by decide)
    have hsplit := splitOn_spelled slashes hnamed (List.ne_nil_of_mem hname)
    obtain ⟨up, plain, hup, hplain, rfl⟩ := hfinal
    have hnone : above ∉ plain := fun hmem => (hplain above hmem).2.2.2 rfl
    cases slashes with
    | zero =>
        rw [hsplit, List.replicate_zero, List.nil_append, List.dropWhile_append_of_pos (by simp)] at habove
        exact hnone ((List.dropWhile_sublist _).subset habove)
    | succ slashes =>
        rw [hup (by simp), List.replicate_zero, List.nil_append] at hname
        exact hnone hname

/-- Behind the slashes at its start a regular text has no empty segments. -/
theorem Regular.named (h : Regular (List.replicate slashes '/' ++ rest)) (hrest : rest ≠ [])
    (hrelative : isAbsolute rest = false) : ∀ name ∈ rest.splitOn '/', Named name := by
  refine fun name hname => ⟨?_, not_mem_of_mem_splitOn hname⟩
  rintro rfl
  obtain ⟨front, back, hsplit⟩ := List.append_of_mem hname
  have hfront : front ≠ [] := by
    rintro rfl
    exact head?_splitOn_ne hrest hrelative (by rw [hsplit]; rfl)
  have hjoined : rest = ['/'].intercalate front ++ '/' :: ['/'].intercalate ([] :: back) := by
    rw [← intercalate_append hfront (List.cons_ne_nil _ _), ← hsplit, List.intercalate_splitOn]
  cases back with
  | nil =>
      -- the text ends in a slash, and not all of it are slashes
      have hlast : (List.replicate slashes '/' ++ rest).getLast? = some '/' := by
        rw [List.getLast?_append_of_ne_nil _ hrest, hjoined, List.intercalate_singleton, List.getLast?_concat]
      have hall : ∀ c ∈ rest, c = '/' := by
        intro c hc
        have hc := List.mem_append_right (List.replicate slashes '/') hc
        rcases h.trailing hlast with htext | htext
        · rw [htext] at hc
          exact List.mem_singleton.mp hc
        · rw [htext] at hc
          exact List.eq_of_mem_replicate (n := 2) hc
      obtain ⟨c, others, rfl⟩ := List.exists_cons_of_ne_nil hrest
      rw [hall c List.mem_cons_self] at hrelative
      cases hrelative
  | cons next others =>
      -- there are two slashes in a row, and something before them
      rw [List.intercalate_cons_cons, List.nil_append, List.singleton_append] at hjoined
      obtain ⟨c, start, hstart⟩ : ∃ c start, List.replicate slashes '/' ++ ['/'].intercalate front = c :: start := by
        refine List.exists_cons_of_ne_nil fun hnone => ?_
        rw [(List.append_eq_nil_iff.mp hnone).2] at hjoined
        rw [hjoined] at hrelative
        cases hrelative
      apply h.double
      refine ⟨start, ['/'].intercalate (next :: others), ?_⟩
      rw [hjoined, ← List.append_assoc, hstart]
      simp

theorem Regular.exists_spelled (h : Regular text) :
    ∃ slashes names, slashes < 3 ∧ Final (decide (0 < slashes)) names ∧ text = spelled slashes names := by
  obtain ⟨slashes, rest, rfl, hrelative⟩ := exists_slashes text
  have hfew : slashes < 3 := by
    by_contra hmany
    obtain ⟨more, rfl⟩ := Nat.exists_eq_add_of_le' (Nat.not_lt.mp hmany)
    exact h.double ⟨[], List.replicate more '/' ++ rest, rfl⟩
  by_cases hrest : rest = []
  · exact ⟨slashes, [], hfew, ⟨0, [], by simp, by simp, rfl⟩, by rw [hrest]; rfl⟩
  have hnamed := h.named hrest hrelative
  have hsplit := splitOn_slashes slashes rest
  have hhere : here ∉ rest.splitOn '/' := fun hmem => h.dot (hsplit ▸ List.mem_append_right _ hmem)
  have habove := h.steps
  rw [hsplit] at habove
  refine ⟨slashes, rest.splitOn '/', hfew, ?_, by rw [spelled, List.intercalate_splitOn]⟩
  generalize rest.splitOn '/' = names at hnamed hhere habove
  -- the steps up are all at the start, and if there are slashes in front of them, there are none
  have hsteps : names.takeWhile (· = above) = List.replicate (names.takeWhile (· = above)).length above :=
    List.eq_replicate_of_mem fun name hname => by simpa using List.mem_takeWhile_imp hname
  have hnone : 0 < slashes → above ∉ names := by
    intro hpos hmem
    obtain ⟨more, rfl⟩ := Nat.exists_eq_add_one.mpr hpos
    exact habove (List.mem_cons_of_mem _ (List.mem_append_right _ hmem))
  have hplain : above ∉ names.dropWhile (· = above) := by
    rcases Nat.eq_zero_or_pos slashes with rfl | hpos
    · exact habove
    · exact fun hmem => hnone hpos ((List.dropWhile_sublist _).subset hmem)
  refine ⟨(names.takeWhile (· = above)).length, names.dropWhile (· = above), fun hpos => ?_, fun name hname => ?_, ?_⟩
  · rw [List.length_eq_zero_iff, List.eq_nil_iff_forall_not_mem]
    intro name hname
    obtain rfl : name = above := by simpa using List.mem_takeWhile_imp hname
    exact hnone (of_decide_eq_true hpos) ((List.takeWhile_sublist _).subset hname)
  · have hmem := (List.dropWhile_sublist _).subset hname
    exact ⟨hnamed name hmem, (hnamed name hmem).1, fun heq => hhere (heq ▸ hmem), fun heq => hplain (heq ▸ hname)⟩
  · rw [← hsteps, List.takeWhile_append_dropWhile]

/-- A text without backslashes is regular if and only if it is made of at most two slashes and of final segments. -/
theorem regular_iff (hslashes : '\\' ∉ text) : Regular text ↔
    ∃ slashes names, slashes < 3 ∧ Final (decide (0 < slashes)) names ∧ text = spelled slashes names := by
  refine ⟨Regular.exists_spelled, ?_⟩
  rintro ⟨slashes, names, hfew, hfinal, rfl⟩
  exact regular_spelled hfew hfinal hslashes

/-! ## Keys are regular -/

theorem regular_collapseKey (hslashes : '\\' ∉ collapseKey path) : Regular (collapseKey path) := by
  by_cases hnone : collapse path = here
  · rw [collapseKey, if_pos hnone]
    exact ⟨by decide, by decide, by decide, by decide, by decide⟩
  · have habsolute : decide (0 < rootSlashes path) = isAbsolute path := by
      cases habsolute : isAbsolute path with
      | true => exact decide_eq_true (rootSlashes_pos habsolute)
      | false =>
          rw [rootSlashes_eq_zero habsolute]
          rfl
    have hspelled : collapseKey path = spelled (rootSlashes path) (segments path) := by
      rw [collapseKey, if_neg hnone]
      exact if_neg fun hempty => hnone (if_pos hempty)
    exact (regular_iff hslashes).mpr ⟨_, _, rootSlashes_lt path, habsolute ▸ final_segments path, hspelled⟩

theorem KeyOf.regular {root : Option Root} {made : List Char} (h : KeyOf root text made) (hslashes : '\\' ∉ made) :
    Regular made := by
  have hkept := h.collapseKey_eq
  rw [← hkept] at hslashes ⊢
  exact regular_collapseKey hslashes

theorem Regular.collapseKey_eq (h : Regular text) : collapseKey text = text := by
  obtain ⟨slashes, names, hfew, hfinal, rfl⟩ := h.exists_spelled
  exact collapseKey_spelled hfew hfinal

theorem Regular.keyChars_eq (h : Regular text) (htrimmed : Text.strip text = text) : keyChars none text = text := by
  rw [keyChars, htrimmed, withSlashes_eq_self h.backslash]
  split
  · rename_i hempty
    exact (List.isEmpty_iff.mp hempty).symm
  · exact h.collapseKey_eq

theorem strip_of_keyChars_eq {root : Option Root} (h : keyChars root text = text) : Text.strip text = text := by
  have hle := length_keyChars_le root text
  rw [h] at hle
  exact (Text.strip_sublist text).eq_of_length_le hle

/-- Every key is spelled regularly, whatever the root and the path.  A text is its own key, where no root is given,
if and only if it is spelled regularly and has no blanks at its ends. -/
theorem regular_key_and_key_eq_self_iff :
    (∀ (root : Option Root) (path : String), Regular (key root path).toList) ∧
      ∀ text : String, key none text = text ↔ Regular text.toList ∧ Text.stripString text = text := by
  have hregular : ∀ (root : Option Root) (path : String), Regular (key root path).toList := by
    intro root path
    rw [key, String.toList_ofList]
    exact (keyOf_keyChars root path.toList).regular (not_mem_keyChars root path.toList)
  refine ⟨hregular, fun text => ?_⟩
  have hkey : key none text = text ↔ keyChars none text.toList = text.toList := by
    rw [key, ← String.toList_inj, String.toList_ofList]
  have hstrip : Text.stripString text = text ↔ Text.strip text.toList = text.toList := by
    rw [Text.stripString, ← String.toList_inj, String.toList_ofList]
  constructor
  · intro hself
    exact ⟨hself ▸ hregular none text, hstrip.mpr (strip_of_keyChars_eq (hkey.mp hself))⟩
  · rintro ⟨htext, htrimmed⟩
    exact hkey.mpr (htext.keyChars_eq (hstrip.mp htrimmed))

example : (∀ text ∈ ["", "/", "//", "//a/b", "../../a b", " a"], Regular text.toList) ∧
    ∀ text ∈ [".", "///", "a/", "a//b", "./a", "a/../b", "/..", "a\\b"], ¬ Regular text.toList := by decide

end ChangeImpact.Path
