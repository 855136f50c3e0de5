import ChangeImpact.Proofs.Path.Keys

/-!
# Collapsing a collapsed path

What is left of a path when it is collapsed are steps up and then names (`exists_segments`), and an absolute path
has no steps up left.  Entered once more these segments stay as they are, and as the slashes at the start stay, too,
a collapsed path is its own collapsed form (`collapse_collapse`).

A collapsed path is not longer than the path (`length_collapse_le`).  This is counted in segments with a slash after
each (`extent`): entering a segment adds at most its own extent, and the slashes at the start of a path, of which at
most two are kept, are segments that add nothing.
-/

namespace ChangeImpact.Path

variable {path text rest : List Char} {names : List Segment}

/-! ## Collapsing again -/

/-- A path first climbs, which an absolute one does not, and goes on with names. -/
theorem exists_segments (path : List Char) : ∃ up names, (isAbsolute path = true → up = 0) ∧
    (∀ name ∈ names, Plain name) ∧ segments path = List.replicate up above ++ names := by
  cases habsolute : isAbsolute path with
  | true => exact ⟨0, segments path, fun _ => rfl, fun name => plain_of_mem_segments habsolute, rfl⟩
  | false =>
      obtain ⟨names, up, hplain, hrelative, -⟩ := exists_climb (tidySegments path)
      refine ⟨up, names.reverse, nofun, by simpa using hplain, ?_⟩
      rw [segments_eq, habsolute, hrelative, List.reverse_append, List.reverse_replicate]

theorem ne_here_of_mem_segments {name : Segment} (h : name ∈ segments path) : name ≠ here := by
  obtain ⟨up, names, -, hplain, hsegments⟩ := exists_segments path
  rw [hsegments] at h
  rcases List.mem_append.mp h with hup | hname
  · rw [List.eq_of_mem_replicate hup]
    decide
  · exact (hplain name hname).2.1

theorem foldl_enter_replicate_above (up : Nat) :
    (List.replicate up above).foldl (enter false) [] = List.replicate up above := by
  induction up with
  | zero => rfl
  | succ up ih =>
      rw [List.replicate_succ', List.foldl_append, ih]
      exact (enter_above_replicate up).trans List.replicate_succ'

/-- A collapsed path leads where the path leads. -/
theorem segments_collapse (path : List Char) : segments (collapse path) = segments path := by
  have hnamed : ∀ name ∈ segments path, Named name := fun name hname => named_of_mem_segments hname
  have htidy : tidySegments (collapse path) = segments path :=
    tidySegments_spell path fun name hname => ⟨hnamed name hname, ne_here_of_mem_segments hname⟩
  have habsolute : isAbsolute (collapse path) = isAbsolute path := isAbsolute_spell hnamed
  obtain ⟨up, names, hup, hplain, hsegments⟩ := exists_segments path
  have hclimb : (List.replicate up above).foldl (enter (isAbsolute path)) [] = List.replicate up above := by
    cases hpath : isAbsolute path with
    | true => rw [hup hpath, List.replicate_zero, List.foldl_nil]
    | false => exact foldl_enter_replicate_above up
  calc segments (collapse path)
      = ((List.replicate up above ++ names).foldl (enter (isAbsolute path)) []).reverse := by
        rw [segments_eq, htidy, habsolute, hsegments]
    _ = (names.reverse ++ List.replicate up above).reverse := by
        rw [List.foldl_append, hclimb, foldl_enter_of_plain hplain]
    _ = List.replicate up above ++ names := by
        rw [List.reverse_append, List.reverse_reverse, List.reverse_replicate]
    _ = segments path := hsegments.symm

theorem rootSlashes_lt (path : List Char) : rootSlashes path < 3 := by
  rw [rootSlashes_eq]
  split
  · assumption
  · decide

theorem rootSlashes_replicate_append {slashes : Nat} (hfew : slashes < 3) (htext : isAbsolute text = false) :
    rootSlashes (List.replicate slashes '/' ++ text) = slashes := by
  have hstart : (List.replicate slashes '/' ++ text).takeWhile (· == '/') = List.replicate slashes '/' := by
    rw [List.takeWhile_append_of_pos (by simp), takeWhile_slash_eq_nil, List.append_nil]
    intro rest heq
    rw [heq] at htext
    cases htext
  rw [rootSlashes_eq, hstart, List.length_replicate, if_pos hfew]

theorem rootSlashes_spell (path : List Char) (hnames : ∀ name ∈ names, Named name) :
    rootSlashes (spell path names) = rootSlashes path := by
  cases habsolute : isAbsolute path with
  | true =>
      have hsome : ¬ (List.replicate (rootSlashes path) '/' ++ ['/'].intercalate names).isEmpty = true := by
        simp [(rootSlashes_pos habsolute).ne']
      rw [spell, if_neg hsome, rootSlashes_replicate_append (rootSlashes_lt path) (isAbsolute_intercalate hnames)]
  | false =>
      have hspell : isAbsolute (spell path names) = false := (isAbsolute_spell hnames).trans habsolute
      rw [rootSlashes_eq_zero hspell, rootSlashes_eq_zero habsolute]

/-- A path that is spelled with names is tidy. -/
theorem tidy_spell (path : List Char) (hnames : ∀ name ∈ names, Named name ∧ name ≠ here) :
    tidy (spell path names) = spell path names := by
  have hslashes := rootSlashes_spell path fun name hname => (hnames name hname).1
  calc tidy (spell path names)
      = spell (spell path names) names := by rw [tidy, tidySegments_spell path hnames]
    _ = spell path names := by rw [spell, hslashes]; rfl

/-- What is directly above a path is tidy. -/
theorem tidy_parent (path : List Char) : tidy (parent path) = parent path := by
  refine tidy_spell path fun name hname => ?_
  have hmem := List.dropLast_subset _ hname
  exact ⟨named_of_mem_tidySegments hmem, ne_here_of_mem_tidySegments hmem⟩

theorem rootSlashes_collapse (path : List Char) : rootSlashes (collapse path) = rootSlashes path :=
  rootSlashes_spell path fun _ hname => named_of_mem_segments hname

theorem collapse_collapse (path : List Char) : collapse (collapse path) = collapse path := by
  calc collapse (collapse path)
      = spell (collapse path) (segments path) := congrArg (spell (collapse path)) (segments_collapse path)
    _ = spell path (segments path) := by rw [spell, rootSlashes_collapse]; rfl
    _ = collapse path := rfl

theorem collapseKey_collapseKey (path : List Char) : collapseKey (collapseKey path) = collapseKey path := by
  by_cases hhere : collapse path = here
  · have hnone : collapseKey path = [] := if_pos hhere
    rw [hnone]
    rfl
  · have hkept : collapseKey path = collapse path := if_neg hhere
    rw [hkept, collapseKey, collapse_collapse, if_neg hhere]

theorem isAbsolute_collapseKey_eq (path : List Char) : isAbsolute (collapseKey path) = isAbsolute path := by
  have hcollapse : isAbsolute (collapse path) = isAbsolute path :=
    isAbsolute_spell fun name hname => named_of_mem_segments hname
  rw [collapseKey]
  split
  · rename_i hhere
    rw [hhere] at hcollapse
    exact hcollapse
  · exact hcollapse

/-! ## Collapsed paths are not longer -/

/-- How long segments are with a slash after each of them. -/
def extent : List Segment → Nat
  | [] => 0
  | segment :: rest => segment.length + 1 + extent rest

@[simp] theorem extent_nil : extent [] = 0 := rfl

@[simp] theorem extent_cons (segment : Segment) (rest : List Segment) :
    extent (segment :: rest) = segment.length + 1 + extent rest := rfl

theorem extent_append (front back : List Segment) : extent (front ++ back) = extent front + extent back := by
  induction front with
  | nil => exact (Nat.zero_add _).symm
  | cons segment rest ih =>
      rw [List.cons_append, extent_cons, extent_cons, ih]
      omega

theorem extent_reverse (names : List Segment) : extent names.reverse = extent names := by
  induction names with
  | nil => rfl
  | cons name rest ih =>
      rw [List.reverse_cons, extent_append, ih, extent_cons, extent_cons, extent_nil]
      omega

theorem length_intercalate (hsome : names ≠ []) : (['/'].intercalate names).length + 1 = extent names := by
  induction names with
  | nil => exact absurd rfl hsome
  | cons name rest ih =>
      cases rest with
      | nil => simp [List.intercalate_singleton]
      | cons next others =>
          have hrest := ih (List.cons_ne_nil next others)
          rw [extent_cons, ← hrest, List.intercalate_cons_cons]
          simp only [List.length_append, List.length_singleton]
          omega

theorem extent_splitOn (path : List Char) : extent (path.splitOn '/') = path.length + 1 := by
  rw [← length_intercalate (List.splitOn_ne_nil _ _), List.intercalate_splitOn]

theorem extent_enter_le (absolute : Bool) (walked : List Segment) (segment : Segment) :
    extent (enter absolute walked segment) ≤ extent walked + (segment.length + 1) := by
  unfold enter
  split
  · omega
  · split
    · rename_i habove
      subst habove
      cases walked with
      | nil => cases absolute <;> decide
      | cons last rest =>
          dsimp only
          split
          · simp only [extent_cons]
            omega
          · simp only [extent_cons]
            omega
    · simp only [extent_cons]
      omega

theorem extent_foldl_enter_le (absolute : Bool) (parts walked : List Segment) :
    extent (parts.foldl (enter absolute) walked) ≤ extent walked + extent parts := by
  induction parts generalizing walked with
  | nil => exact le_rfl
  | cons part rest ih =>
      have hrest := ih (enter absolute walked part)
      have hpart := extent_enter_le absolute walked part
      rw [List.foldl_cons, extent_cons]
      omega

/-- The slashes at the start of a path count once. -/
theorem extent_segments_le {slashes : Nat} (hpath : path = List.replicate slashes '/' ++ rest) :
    extent (segments path) ≤ rest.length + 1 := by
  have hparts : path.splitOn '/' = List.replicate slashes [] ++ rest.splitOn '/' := by
    rw [hpath, splitOn_slashes]
  have hidle : ∀ count : Nat, (List.replicate count ([] : Segment)).foldl (enter (isAbsolute path)) [] = [] := by
    intro count
    induction count with
    | zero => rfl
    | succ count ih => exact ih
  have hle := extent_foldl_enter_le (isAbsolute path) (rest.splitOn '/') []
  rw [segments, extent_reverse, hparts, List.foldl_append, hidle]
  rw [extent_nil, extent_splitOn] at hle
  omega

theorem length_collapse_le (hsome : path ≠ []) : (collapse path).length ≤ path.length := by
  have hpath := (slashes_append_dropWhile path).symm
  have hextent := extent_segments_le hpath
  have hlength := congrArg List.length hpath
  have hpos : 0 < path.length := List.length_pos_iff.mpr hsome
  have hslashes : rootSlashes path ≤ (path.takeWhile (· == '/')).length := by
    rw [rootSlashes_eq]
    split
    · exact le_rfl
    · omega
  rw [List.length_append, List.length_replicate] at hlength
  unfold collapse
  dsimp only
  split
  · exact hpos
  · rw [List.length_append, List.length_replicate]
    by_cases hnone : segments path = []
    · rw [hnone, List.intercalate_nil, List.length_nil]
      omega
    · have hnames := length_intercalate hnone
      omega

theorem length_collapseKey_le (path : List Char) : (collapseKey path).length ≤ path.length := by
  by_cases hsome : path = []
  · rw [hsome]
    exact le_rfl
  · rw [collapseKey]
    split
    · exact Nat.zero_le _
    · exact length_collapse_le hsome

end ChangeImpact.Path
