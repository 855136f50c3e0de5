import ChangeImpact.Proofs.Path.Segments

/-!
# Paths below a directory

The collapsed form of an absolute path has no `.` and no `..` in it (`plain_of_mem_segments`).  So what
follows a directory in it is collapsed already (`plain_of_below`), and the key of a path below a root is
what stands after the root and a slash (`keyBelow_eq_iff`).  A path that is not below the root has no
key or an absolute one.
-/

namespace ChangeImpact.Path

/-- A segment that a collapsed path may have anywhere. -/
def Plain (segment : Segment) : Prop := segment ≠ [] ∧ segment ≠ here ∧ segment ≠ above

instance : DecidablePred Plain := fun _ => inferInstanceAs (Decidable (_ ∧ _))

variable {path text root key : List Char}

theorem plain_enter {walked : List Segment} {segment : Segment}
    (hwalked : ∀ other ∈ walked, Plain other) : ∀ other ∈ enter true walked segment, Plain other := by
  unfold enter
  split
  · exact hwalked
  · rename_i hnamed
    rw [not_or] at hnamed
    split
    · cases walked with
      | nil => simp
      | cons last rest =>
          have hlast : last ≠ above := (hwalked last List.mem_cons_self).2.2
          simp only [if_neg hlast]
          exact fun other hother => hwalked other (List.mem_cons_of_mem _ hother)
    · rename_i habove
      intro other hother
      rcases List.mem_cons.mp hother with rfl | hother
      · exact ⟨hnamed.1, hnamed.2, habove⟩
      · exact hwalked other hother

theorem plain_of_mem_segments (habsolute : isAbsolute path = true) {segment : Segment}
    (h : segment ∈ segments path) : Plain segment := by
  have hfold : ∀ (parts walked : List Segment), (∀ other ∈ walked, Plain other) →
      ∀ other ∈ parts.foldl (enter true) walked, Plain other := by
    intro parts
    induction parts with
    | nil => exact fun walked hwalked => hwalked
    | cons part rest ih => exact fun walked hwalked => ih _ (plain_enter hwalked)
  rw [segments, habsolute, List.mem_reverse] at h
  exact hfold _ [] (by simp) segment h

/-! ## Paths that are collapsed already -/

theorem foldl_enter_of_plain {absolute : Bool} {parts walked : List Segment}
    (hparts : ∀ part ∈ parts, Plain part) :
    parts.foldl (enter absolute) walked = parts.reverse ++ walked := by
  induction parts generalizing walked with
  | nil => rfl
  | cons part rest ih =>
      obtain ⟨hempty, hhere, habove⟩ := hparts part List.mem_cons_self
      have henter : enter absolute walked part = part :: walked := by
        simp [enter, hempty, hhere, habove]
      rw [List.foldl_cons, henter, ih fun other hother => hparts other (List.mem_cons_of_mem _ hother)]
      simp

theorem collapse_eq_self (hparts : ∀ part ∈ path.splitOn '/', Plain part) : collapse path = path := by
  have hrelative : ∀ rest, path ≠ '/' :: rest := by
    rintro rest rfl
    have hfirst : [] ∈ ('/' :: rest).splitOn '/' := by
      rw [splitOn_cons_slash]
      exact List.mem_cons_self
    exact (hparts [] hfirst).1 rfl
  have hslashes : rootSlashes path = 0 := by
    unfold rootSlashes
    split
    · exact absurd rfl (hrelative _)
    · exact absurd rfl (hrelative _)
    · exact absurd rfl (hrelative _)
    · rfl
  have hpath : path ≠ [] := by
    rintro rfl
    exact (hparts [] (by rw [List.splitOn_nil]; exact List.mem_singleton_self _)).1 rfl
  have hsegments : segments path = path.splitOn '/' := by
    rw [segments, foldl_enter_of_plain hparts, List.append_nil, List.reverse_reverse]
  rw [collapse, hslashes, hsegments, List.intercalate_splitOn]
  simp [hpath]

theorem collapseKey_eq_self (hparts : ∀ part ∈ path.splitOn '/', Plain part) : collapseKey path = path := by
  have hhere : path ≠ here := by
    rintro rfl
    exact (hparts here (by decide)).2.1 rfl
  rw [collapseKey, collapse_eq_self hparts, if_neg hhere]

theorem not_isPrefixOf_above (hparts : ∀ part ∈ path.splitOn '/', Plain part) :
    (above ++ ['/']).isPrefixOf path = false := by
  rw [← Bool.not_eq_true, List.isPrefixOf_iff_prefix]
  rintro ⟨rest, rfl⟩
  have habove : above ∈ (above ++ ['/'] ++ rest).splitOn '/' := by
    rw [List.append_assoc, List.singleton_append, List.splitOn_append_cons_self]
    exact List.mem_append_left _ (by decide)
  exact (hparts above habove).2.2 rfl

/-! ## What follows a directory -/

theorem splitOn_slashes (slashes : Nat) (text : List Char) :
    (List.replicate slashes '/' ++ text).splitOn '/' = List.replicate slashes [] ++ text.splitOn '/' := by
  induction slashes with
  | zero => rfl
  | succ slashes ih =>
      rw [List.replicate_succ, List.cons_append, splitOn_cons_slash, ih]
      rfl

theorem rootSlashes_pos (habsolute : isAbsolute path = true) : 0 < rootSlashes path := by
  obtain ⟨rest, rfl⟩ : ∃ rest, path = '/' :: rest := by
    cases path with
    | nil => cases habsolute
    | cons c rest =>
        have hc : c = '/' := by simpa [isAbsolute] using habsolute
        exact ⟨rest, by rw [hc]⟩
  unfold rootSlashes
  split
  · decide
  · decide
  · decide
  · rename_i hother
    exact absurd rfl (hother rest)

theorem collapse_of_isAbsolute (habsolute : isAbsolute path = true) :
    collapse path = List.replicate (rootSlashes path) '/' ++ ['/'].intercalate (segments path) := by
  have hsome : List.replicate (rootSlashes path) '/' ≠ [] := by
    rw [Ne, List.replicate_eq_nil_iff]
    exact Nat.ne_of_gt (rootSlashes_pos habsolute)
  simp [collapse, hsome]

/-- Behind the slashes at its start, a collapsed absolute path has only plain segments. -/
theorem splitOn_collapse (habsolute : isAbsolute path = true) :
    ∃ slashes names, (collapse path).splitOn '/' = List.replicate slashes [] ++ names ∧
      ∀ name ∈ names, Plain name := by
  rw [collapse_of_isAbsolute habsolute, splitOn_slashes]
  by_cases hnone : segments path = []
  · refine ⟨rootSlashes path + 1, [], ?_, by simp⟩
    rw [hnone, List.replicate_succ']
    simp
  · refine ⟨rootSlashes path, segments path, ?_, fun name => plain_of_mem_segments habsolute⟩
    rw [List.splitOn_intercalate '/' (fun name hname => (named_of_mem_segments hname).2) hnone]

theorem head?_splitOn_ne (hpath : path ≠ []) (hrelative : isAbsolute path = false) :
    (path.splitOn '/').head? ≠ some [] := by
  cases path with
  | nil => exact absurd rfl hpath
  | cons c rest =>
      have hc : ¬ (c == '/') = true := by simpa [isAbsolute] using hrelative
      rw [List.splitOn_cons_eq_if_modifyHead, if_neg hc]
      cases rest.splitOn '/' with
      | nil => simp
      | cons first others => simp

/-- What follows a directory in a collapsed path has only plain segments. -/
theorem plain_of_below (habsolute : isAbsolute path = true) (hbelow : collapse path = root ++ '/' :: key)
    (hkey : key ≠ []) (hrelative : isAbsolute key = false) : ∀ part ∈ key.splitOn '/', Plain part := by
  obtain ⟨slashes, names, hsplit, hplain⟩ := splitOn_collapse habsolute
  rw [hbelow, List.splitOn_append_cons_self] at hsplit
  have hhead := head?_splitOn_ne hkey hrelative
  intro part hpart
  rcases List.append_eq_append_iff.mp hsplit with ⟨others, hslashes, hparts⟩ | ⟨others, -, hnames⟩
  · -- none of the slashes at the start belongs to what follows the directory
    have hnone : others = [] := by
      cases others with
      | nil => rfl
      | cons first others =>
          have hfirst : first ∈ List.replicate slashes ([] : Segment) := by
            rw [hslashes]
            exact List.mem_append_right _ List.mem_cons_self
          rw [hparts, List.eq_of_mem_replicate hfirst] at hhead
          exact absurd rfl hhead
    rw [hparts, hnone, List.nil_append] at hpart
    exact hplain part hpart
  · exact hplain part (hnames ▸ List.mem_append_right _ hpart)

/-! ## The key of an absolute path -/

theorem isAbsolute_collapse (habsolute : isAbsolute path = true) : isAbsolute (collapse path) = true := by
  obtain ⟨slashes, hslashes⟩ := Nat.exists_eq_add_one.mpr (rootSlashes_pos habsolute)
  rw [collapse_of_isAbsolute habsolute, hslashes]
  rfl

theorem isAbsolute_collapseKey (habsolute : isAbsolute path = true) :
    isAbsolute (collapseKey path) = true := by
  have hcollapse := isAbsolute_collapse habsolute
  have hhere : collapse path ≠ here := by
    intro heq
    rw [heq] at hcollapse
    cases hcollapse
  rwa [collapseKey, if_neg hhere]

/-- The key of an absolute path below the root is what stands behind the root; any other absolute path
has an absolute key or none. -/
theorem keyBelow_eq_iff (habsolute : isAbsolute path = true) (hkey : key ≠ [])
    (hrelative : isAbsolute key = false) :
    keyBelow root path = key ↔ collapse path = root ++ '/' :: key := by
  unfold keyBelow
  simp only
  constructor
  · intro heq
    split at heq
    · exact absurd heq.symm hkey
    · split at heq
      · rename_i hprefix
        obtain ⟨rest, hrest⟩ := List.isPrefixOf_iff_prefix.mp hprefix
        rw [List.append_assoc, List.singleton_append] at hrest
        rw [← hrest, List.drop_length_add_append, List.drop_one, List.tail_cons] at heq
        have hsome : rest ≠ [] := by
          rintro rfl
          exact hkey (heq.symm.trans rfl)
        have hbelow : isAbsolute rest = false := by
          rw [← Bool.not_eq_true]
          intro hrest
          rw [← heq, isAbsolute_collapseKey hrest] at hrelative
          cases hrelative
        rw [collapseKey_eq_self (plain_of_below habsolute hrest.symm hsome hbelow)] at heq
        rw [← hrest, heq]
      · rw [← heq, isAbsolute_collapseKey habsolute] at hrelative
        cases hrelative
  · intro hbelow
    have hne : root ++ '/' :: key ≠ root := by
      intro heq
      simpa using congrArg List.length heq
    have hprefix : (root ++ ['/']).isPrefixOf (root ++ '/' :: key) = true :=
      List.isPrefixOf_iff_prefix.mpr ⟨key, by simp⟩
    have hplain := plain_of_below habsolute hbelow hkey hrelative
    rw [hbelow, if_neg hne, if_pos hprefix, List.drop_length_add_append, List.drop_one, List.tail_cons,
      collapseKey_eq_self hplain]

end ChangeImpact.Path
