import ChangeImpact.Path.Tidy
import ChangeImpact.Proofs.Path.Below
import Mathlib.Data.List.Induction

/-!
# Tidy paths

A tidy path is spelled with the segments that lead somewhere (`splitOn_spell`), and it is all the same for
collapsing a path whether it has been tidied before (`segments_eq`).  So the names on the way to where a path leads
from a working directory, its `route`, do not depend on how the path is spelled (`route_tidy`), and what is joined
to a path goes on from its route (`route_join`).

A relative path either climbs out of the working directory or goes on from it (`route_of_relative`).
-/

namespace ChangeImpact.Path

variable {path outer inner working : List Char} {names : List Segment} {c : Char}

/-! ## The characters of a tidy path -/

theorem mem_intercalate (h : c ∈ ['/'].intercalate names) : c = '/' ∨ ∃ name ∈ names, c ∈ name := by
  induction names with
  | nil => cases h
  | cons name rest ih =>
      cases rest with
      | nil =>
          rw [List.intercalate_singleton] at h
          exact .inr ⟨name, List.mem_cons_self, h⟩
      | cons next others =>
          rw [List.intercalate_cons_cons, List.mem_append, List.mem_append, List.mem_singleton] at h
          rcases h with (hname | hslash) | hrest
          · exact .inr ⟨name, List.mem_cons_self, hname⟩
          · exact .inl hslash
          · exact (ih hrest).imp_right fun ⟨other, hother, hc⟩ => ⟨other, List.mem_cons_of_mem _ hother, hc⟩

theorem mem_intercalate_of_mem {name : Segment} (hname : name ∈ names) (hc : c ∈ name) :
    c ∈ ['/'].intercalate names := by
  induction names with
  | nil => cases hname
  | cons first rest ih =>
      cases rest with
      | nil =>
          rw [List.mem_singleton.mp hname] at hc
          rwa [List.intercalate_singleton]
      | cons next others =>
          rw [List.intercalate_cons_cons, List.mem_append, List.mem_append]
          rcases List.mem_cons.mp hname with rfl | hrest
          · exact .inl (.inl hc)
          · exact .inr (ih hrest)

theorem mem_of_mem_splitOn {segment : Segment} (hsegment : segment ∈ path.splitOn '/') (hc : c ∈ segment) : c ∈ path := by
  have hjoined : ['/'].intercalate (path.splitOn '/') = path := List.intercalate_splitOn '/'
  exact hjoined ▸ mem_intercalate_of_mem hsegment hc

theorem intercalate_ne_nil (hnames : ∀ name ∈ names, Named name) (hsome : names ≠ []) :
    ['/'].intercalate names ≠ [] := by
  obtain ⟨name, hname⟩ := List.exists_mem_of_ne_nil names hsome
  obtain ⟨c, hc⟩ := List.exists_mem_of_ne_nil name (hnames name hname).1
  exact List.ne_nil_of_mem (mem_intercalate_of_mem hname hc)

theorem isAbsolute_intercalate (hnames : ∀ name ∈ names, Named name) :
    isAbsolute (['/'].intercalate names) = false := by
  cases names with
  | nil => rfl
  | cons name rest =>
      obtain ⟨hsome, hslash⟩ := hnames name List.mem_cons_self
      obtain ⟨c, others, rfl⟩ := List.exists_cons_of_ne_nil hsome
      have hc : c ≠ '/' := fun heq => hslash (heq ▸ List.mem_cons_self)
      obtain ⟨after, hafter⟩ : ∃ after, ['/'].intercalate ((c :: others) :: rest) = c :: after := by
        cases rest with
        | nil => exact ⟨others, List.intercalate_singleton⟩
        | cons next more =>
            rw [List.intercalate_cons_cons]
            exact ⟨_, rfl⟩
      rw [hafter]
      simpa [isAbsolute] using hc

theorem not_mem_spell (hpath : '\x00' ∉ path) (hnames : ∀ name ∈ names, name ∈ tidySegments path) :
    '\x00' ∉ spell path names := by
  unfold spell
  dsimp only
  split
  · decide
  · intro hmem
    rcases List.mem_append.mp hmem with hslash | hname
    · cases (List.mem_replicate.mp hslash).2
    · rcases mem_intercalate hname with hslash | ⟨name, hname, hc⟩
      · cases hslash
      · exact hpath (mem_of_mem_splitOn (List.mem_of_mem_filter (hnames name hname)) hc)

/-! ## The segments of a tidy path -/

/-- A segment that leads nowhere. -/
def Idle (segment : Segment) : Prop := segment = [] ∨ segment = here

theorem named_of_mem_tidySegments {name : Segment} (hname : name ∈ tidySegments path) : Named name := by
  obtain ⟨hsegment, hkept⟩ := List.mem_filter.mp hname
  rw [decide_eq_true_eq] at hkept
  exact ⟨hkept.1, not_mem_of_mem_splitOn hsegment⟩

/-- A path is spelled with segments that lead nowhere at its start, and the names after them. -/
theorem splitOn_spell (path : List Char) (hnames : ∀ name ∈ names, Named name) :
    ∃ idle, (∀ segment ∈ idle, Idle segment) ∧ (spell path names).splitOn '/' = idle ++ names := by
  have hslashes : ∀ slashes, ∀ segment ∈ List.replicate slashes ([] : Segment), Idle segment :=
    fun slashes segment hsegment => .inl (List.eq_of_mem_replicate hsegment)
  unfold spell
  dsimp only
  -- without names there is a dot, or there are slashes only, and neither leads anywhere
  by_cases hnone : names = []
  · subst hnone
    rw [List.intercalate_nil, List.append_nil]
    cases rootSlashes path with
    | zero => exact ⟨[here], by simp [Idle], by decide⟩
    | succ slashes =>
        refine ⟨List.replicate (slashes + 2) [], hslashes _, ?_⟩
        have hsplit := splitOn_slashes (slashes + 1) []
        rw [List.append_nil, List.splitOn_nil] at hsplit
        rw [if_neg (by simp [List.replicate_succ]), hsplit, List.append_nil,
          ← List.replicate_succ']
  · refine ⟨List.replicate (rootSlashes path) [], hslashes _, ?_⟩
    have hsome : List.replicate (rootSlashes path) '/' ++ ['/'].intercalate names ≠ [] :=
      List.append_ne_nil_of_right_ne_nil _ (intercalate_ne_nil hnames hnone)
    rw [if_neg (by simpa using hsome), splitOn_slashes,
      List.splitOn_intercalate '/' (fun name hname => (hnames name hname).2) hnone]

theorem spell_ne_nil (path : List Char) (names : List Segment) : spell path names ≠ [] := by
  unfold spell
  dsimp only
  split
  · decide
  · rename_i hsome
    exact fun hnone => hsome (List.isEmpty_iff.mpr hnone)

theorem rootSlashes_eq_zero (hrelative : isAbsolute path = false) : rootSlashes path = 0 := by
  unfold rootSlashes
  split
  · cases hrelative
  · cases hrelative
  · cases hrelative
  · rfl

theorem isAbsolute_spell (hnames : ∀ name ∈ names, Named name) :
    isAbsolute (spell path names) = isAbsolute path := by
  unfold spell
  dsimp only
  cases habsolute : isAbsolute path with
  | true =>
      obtain ⟨slashes, hslashes⟩ := Nat.exists_eq_succ_of_ne_zero (Nat.ne_of_gt (rootSlashes_pos habsolute))
      rw [hslashes, List.replicate_succ]
      rfl
  | false =>
      rw [rootSlashes_eq_zero habsolute, List.replicate_zero, List.nil_append]
      split
      · rfl
      · exact isAbsolute_intercalate hnames

/-- The ancestry of a path starts with the tidy path itself. -/
theorem exists_ancestry (path : List Char) : ∃ above, (ancestry path).map String.ofList =
    String.ofList (tidy path) :: above := by
  rw [ancestry, List.range_succ, List.map_append, List.reverse_append]
  simp only [List.map_cons, List.map_nil, List.reverse_cons, List.reverse_nil, List.nil_append,
    List.singleton_append, List.take_length]
  exact ⟨_, rfl⟩

/-! ## Joined paths -/

theorem tidySegments_append_cons (front back : List Char) :
    tidySegments (front ++ '/' :: back) = tidySegments front ++ tidySegments back := by
  rw [tidySegments, List.splitOn_append_cons_self, List.filter_append]
  rfl

/-- A relative path is joined with a slash, where there is none yet. -/
theorem exists_join (outer : List Char) (hempty : outer ≠ []) : ∃ front, tidySegments front = tidySegments outer ∧
    ∀ inner, isAbsolute inner = false → join outer inner = front ++ '/' :: inner := by
  by_cases hlast : outer.getLast? = some '/'
  · obtain ⟨front, rfl⟩ := List.getLast?_eq_some_iff.mp hlast
    refine ⟨front, ?_, fun inner hinner => ?_⟩
    · rw [tidySegments_append_cons]
      exact (List.append_nil _).symm
    · rw [join_of_relative hinner, if_pos (by simp), List.append_assoc]
      rfl
  · exact ⟨outer, rfl, fun inner hinner => by rw [join_of_relative hinner, if_neg (by simp [hempty, hlast])]⟩

/-- What a path is joined to is split by itself. -/
theorem exists_splitOn_join (outer : List Char) (absolute : Bool) : ∃ base : List Segment,
    ∀ inner, isAbsolute inner = absolute → (join outer inner).splitOn '/' = base ++ inner.splitOn '/' := by
  cases absolute with
  | true => exact ⟨[], fun inner hinner => by rw [join, if_pos hinner, List.nil_append]⟩
  | false =>
      by_cases hempty : outer = []
      · refine ⟨[], fun inner hinner => ?_⟩
        rw [join, hinner, hempty]
        rfl
      · obtain ⟨front, -, hjoin⟩ := exists_join outer hempty
        refine ⟨front.splitOn '/', fun inner hinner => ?_⟩
        rw [hjoin inner hinner]
        exact List.splitOn_append_cons_self front inner

theorem tidySegments_join (hinner : isAbsolute inner = false) :
    tidySegments (join outer inner) = tidySegments outer ++ tidySegments inner := by
  by_cases hempty : outer = []
  · rw [join, hinner, hempty]
    rfl
  · obtain ⟨front, hfront, hjoin⟩ := exists_join outer hempty
    rw [hjoin inner hinner, tidySegments_append_cons, hfront]

/-! ## Paths that are tidied -/

theorem tidySegments_intercalate (hnames : ∀ name ∈ names, Named name ∧ name ≠ here) :
    tidySegments (['/'].intercalate names) = names := by
  by_cases hnone : names = []
  · rw [hnone]
    rfl
  · rw [tidySegments, List.splitOn_intercalate '/' (fun name hname => (hnames name hname).1.2) hnone,
      List.filter_eq_self]
    intro name hname
    exact decide_eq_true ⟨(hnames name hname).1.1, (hnames name hname).2⟩

/-- A path that is spelled with names has them as its tidy segments. -/
theorem tidySegments_spell (path : List Char) (hnames : ∀ name ∈ names, Named name ∧ name ≠ here) :
    tidySegments (spell path names) = names := by
  obtain ⟨idle, hidle, hsplit⟩ := splitOn_spell path fun name hname => (hnames name hname).1
  have hnone : idle.filter (fun segment => segment ≠ [] ∧ segment ≠ here) = [] := by
    rw [List.filter_eq_nil_iff]
    intro segment hsegment
    rcases hidle segment hsegment with rfl | rfl
    · simp
    · simp
  have hkept : names.filter (fun segment => segment ≠ [] ∧ segment ≠ here) = names := by
    rw [List.filter_eq_self]
    intro name hname
    exact decide_eq_true ⟨(hnames name hname).1.1, (hnames name hname).2⟩
  rw [tidySegments, hsplit, List.filter_append, hnone, hkept, List.nil_append]

theorem ne_here_of_mem_tidySegments {name : Segment} (hname : name ∈ tidySegments path) : name ≠ here :=
  (of_decide_eq_true (List.mem_filter.mp hname).2).2

theorem tidySegments_tidy (path : List Char) : tidySegments (tidy path) = tidySegments path := by
  apply tidySegments_spell
  intro name hname
  exact ⟨named_of_mem_tidySegments hname, ne_here_of_mem_tidySegments hname⟩

theorem isAbsolute_tidy (path : List Char) : isAbsolute (tidy path) = isAbsolute path :=
  isAbsolute_spell fun _ hname => named_of_mem_tidySegments hname

theorem isAbsolute_iff : isAbsolute path = true ↔ ∃ rest, path = '/' :: rest := by
  cases path with
  | nil => simp [isAbsolute]
  | cons c rest => simp [isAbsolute]

theorem isAbsolute_join (h : isAbsolute outer = true) : isAbsolute (join outer inner) = true := by
  obtain ⟨rest, rfl⟩ := isAbsolute_iff.mp h
  unfold join
  split
  · assumption
  · split
    · rfl
    · rfl

theorem isAbsolute_join_eq_false (houter : isAbsolute outer = false) (hinner : isAbsolute inner = false) :
    isAbsolute (join outer inner) = false := by
  rw [join_of_relative hinner]
  cases outer with
  | nil => exact hinner
  | cons c rest =>
      split
      · exact houter
      · exact houter

/-! ## The names on the way -/

theorem enter_idle {absolute : Bool} {walked : List Segment} {segment : Segment}
    (hidle : segment = [] ∨ segment = here) : enter absolute walked segment = walked :=
  if_pos hidle

/-- Only the segments that lead somewhere count for a collapsed path. -/
theorem segments_eq (path : List Char) :
    segments path = ((tidySegments path).foldl (enter (isAbsolute path)) []).reverse := by
  have hidle : (fun walked segment => if decide (segment ≠ [] ∧ segment ≠ here) = true then
      enter (isAbsolute path) walked segment else walked) = enter (isAbsolute path) := by
    funext walked segment
    split
    · rfl
    · rename_i hidle
      exact (enter_idle (by simpa [or_iff_not_imp_left] using hidle)).symm
  rw [segments, tidySegments, List.foldl_filter, hidle]

/-- The names on the way to where a path leads from a working directory, as its text tells. -/
def route (working path : List Char) : List Segment := segments (join working path)

theorem route_of_isAbsolute (h : isAbsolute path = true) : route working path = segments path := by
  rw [route, join, if_pos h]

theorem route_eq (hworking : isAbsolute working = true) (h : isAbsolute path = false) :
    route working path = ((tidySegments path).foldl (enter true) (segments working).reverse).reverse := by
  have hwalked : (segments working).reverse = (tidySegments working).foldl (enter true) [] := by
    rw [segments_eq, hworking, List.reverse_reverse]
  calc route working path
      = ((tidySegments working ++ tidySegments path).foldl (enter true) []).reverse := by
        rw [route, segments_eq, isAbsolute_join hworking, tidySegments_join h]
    _ = ((tidySegments path).foldl (enter true) (segments working).reverse).reverse := by
        rw [List.foldl_append, hwalked]

theorem plain_of_mem_route (hworking : isAbsolute working = true) {name : Segment} (h : name ∈ route working path) :
    Plain name :=
  plain_of_mem_segments (isAbsolute_join hworking) h

theorem route_tidy (hworking : isAbsolute working = true) (path : List Char) :
    route working (tidy path) = route working path := by
  cases habsolute : isAbsolute path with
  | true =>
      have htidy := (isAbsolute_tidy path).trans habsolute
      rw [route_of_isAbsolute htidy, route_of_isAbsolute habsolute, segments_eq, tidySegments_tidy, htidy,
        segments_eq, habsolute]
  | false =>
      rw [route_eq hworking ((isAbsolute_tidy path).trans habsolute), tidySegments_tidy, route_eq hworking habsolute]

/-- What is joined to a path goes on from its route. -/
theorem route_join (hworking : isAbsolute working = true) (hinner : isAbsolute inner = false)
    (hplain : ∀ name ∈ tidySegments inner, Plain name) :
    route working (join outer inner) = route working outer ++ tidySegments inner := by
  have hgoes : ∀ walked : List Segment, (tidySegments inner).foldl (enter true) walked =
      (tidySegments inner).reverse ++ walked := fun walked => foldl_enter_of_plain hplain
  cases houter : isAbsolute outer with
  | true =>
      calc route working (join outer inner)
          = ((tidySegments outer ++ tidySegments inner).foldl (enter true) []).reverse := by
            rw [route_of_isAbsolute (isAbsolute_join houter), segments_eq, isAbsolute_join houter,
              tidySegments_join hinner]
        _ = ((tidySegments inner).reverse ++ (tidySegments outer).foldl (enter true) []).reverse := by
            rw [List.foldl_append, hgoes]
        _ = route working outer ++ tidySegments inner := by
            rw [route_of_isAbsolute houter, segments_eq, houter, List.reverse_append, List.reverse_reverse]
  | false =>
      have hjoin := isAbsolute_join_eq_false houter hinner
      rw [route_eq hworking hjoin, route_eq hworking houter, tidySegments_join hinner, List.foldl_append, hgoes]
      simp

/-! ## Climbing out of a directory -/

theorem enter_plain {absolute : Bool} {walked : List Segment} {segment : Segment} (hplain : Plain segment) :
    enter absolute walked segment = segment :: walked := by
  obtain ⟨hempty, hhere, habove⟩ := hplain
  simp [enter, hempty, hhere, habove]

theorem enter_above_cons {absolute : Bool} {last : Segment} {walked : List Segment} (hlast : last ≠ above) :
    enter absolute (last :: walked) above = walked := by
  simp [enter, show above ≠ here by decide, show above ≠ [] by decide, hlast]

theorem enter_above_replicate (up : Nat) :
    enter false (List.replicate up above) above = List.replicate (up + 1) above := by
  cases up with
  | zero => rfl
  | succ up => rfl

theorem enter_above_of_plain {walked : List Segment} (hwalked : ∀ other ∈ walked, Plain other) :
    enter true walked above = walked.drop 1 := by
  cases walked with
  | nil => rfl
  | cons last rest => exact enter_above_cons (hwalked last List.mem_cons_self).2.2

/-- Entered from a relative start, segments climb some directories up and go on with names.  From the top they do
the same, as far as there are directories. -/
theorem exists_climb (parts : List Segment) : ∃ names up, (∀ name ∈ names, Plain name) ∧
    parts.foldl (enter false) [] = names ++ List.replicate up above ∧
    ∀ walked, (∀ other ∈ walked, Plain other) → parts.foldl (enter true) walked = names ++ walked.drop up := by
  -- from the end, because the last part is entered into what all the others have left
  induction parts using List.reverseRecOn with
  | nil => exact ⟨[], 0, by simp, rfl, by simp⟩
  | append_singleton parts part ih =>
      obtain ⟨names, up, hplain, hrelative, htop⟩ := ih
      simp only [List.foldl_append, List.foldl_cons, List.foldl_nil, hrelative]
      by_cases hidle : part = [] ∨ part = here
      · exact ⟨names, up, hplain, enter_idle hidle, fun walked hwalked => by rw [htop walked hwalked, enter_idle hidle]⟩
      · rw [not_or] at hidle
        by_cases habove : part = above
        · subst habove
          cases names with
          | nil =>
              refine ⟨[], up + 1, hplain, enter_above_replicate up, fun walked hwalked => ?_⟩
              rw [htop walked hwalked, List.nil_append, List.nil_append, ← List.drop_drop]
              exact enter_above_of_plain fun other hother => hwalked other (List.mem_of_mem_drop hother)
          | cons last names =>
              have hlast : last ≠ above := (hplain last List.mem_cons_self).2.2
              refine ⟨names, up, fun name hname => hplain name (List.mem_cons_of_mem _ hname),
                enter_above_cons hlast, fun walked hwalked => ?_⟩
              rw [htop walked hwalked]
              exact enter_above_cons hlast
        · have hpart : Plain part := ⟨hidle.1, hidle.2, habove⟩
          exact ⟨part :: names, up, List.forall_mem_cons.mpr ⟨hpart, hplain⟩, enter_plain hpart,
            fun walked hwalked => by rw [htop walked hwalked]; exact enter_plain hpart⟩

/-- A relative path that does not climb goes on from the working directory. -/
theorem route_of_relative (hworking : isAbsolute working = true) (hpath : isAbsolute path = false)
    (hhead : (segments path).head? ≠ some above) :
    route working path = segments working ++ segments path ∧ ∀ name ∈ segments path, Plain name := by
  obtain ⟨names, up, hplain, hrelative, htop⟩ := exists_climb (tidySegments path)
  have hsegments : segments path = List.replicate up above ++ names.reverse := by
    rw [segments_eq, hpath, hrelative, List.reverse_append, List.reverse_replicate]
  cases up with
  | succ up =>
      rw [hsegments] at hhead
      exact absurd rfl hhead
  | zero =>
      rw [List.replicate_zero, List.nil_append] at hsegments
      refine ⟨?_, by simpa [hsegments] using hplain⟩
      rw [route_eq hworking hpath, htop _ fun other hother =>
        plain_of_mem_segments hworking (List.mem_reverse.mp hother)]
      simp [hsegments]

end ChangeImpact.Path
