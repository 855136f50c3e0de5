import ChangeImpact.Proofs.Path.Keys

/-!
# Paths that are keys

A canonical path is relative, and spelled as a key is: with neither backslashes nor blanks at its ends, and with
plain names only.  It is its own key, whatever the root is (`Canonical.keyChars_eq`), and its names are all the
segments that it has.

From one canonical path to another there is always a way by the root (`pathByRoot`): as many steps up as the first
has directories, which is one for each of its slashes, and then down the whole other path.  Joined to the directory
of the first, it has the key of the second again (`keyChars_join_pathByRoot`), because each step up leaves one
directory that has been entered before (`foldl_enter_above`), and then the second path is all that is left
(`segments_join_pathByRoot`).  Nothing has to be known of where the two paths part.
-/

namespace ChangeImpact.Path

variable {path importer file outer inner : List Char} {names walked : List Segment}

/-! ## Paths that are keys -/

/-- A relative path that is spelled as a key is. -/
structure Canonical (path : List Char) : Prop where
  tame : Tame path
  plain : ∀ name ∈ path.splitOn '/', Plain name

instance : DecidablePred Canonical := fun path =>
  decidable_of_iff (Tame path ∧ ∀ name ∈ path.splitOn '/', Plain name)
    ⟨fun h => ⟨h.1, h.2⟩, fun h => ⟨h.tame, h.plain⟩⟩

theorem Canonical.named (h : Canonical path) : ∀ name ∈ path.splitOn '/', Named name :=
  fun name hname => ⟨(h.plain name hname).1, not_mem_of_mem_splitOn hname⟩

theorem Canonical.ne_nil (h : Canonical path) : path ≠ [] := by
  rintro rfl
  exact (h.plain [] (by decide)).1 rfl

theorem Canonical.relative (h : Canonical path) : isAbsolute path = false := by
  have hjoined : ['/'].intercalate (path.splitOn '/') = path := List.intercalate_splitOn '/'
  rw [← hjoined]
  exact isAbsolute_intercalate h.named

theorem Canonical.keyChars_eq (h : Canonical path) (root : Option Root) : keyChars root path = path := by
  rw [keyChars_of_relative root h.tame h.relative, collapseKey_eq_self h.plain]

theorem Canonical.tidySegments_eq (h : Canonical path) : tidySegments path = path.splitOn '/' := by
  rw [tidySegments, List.filter_eq_self]
  intro name hname
  exact decide_eq_true ⟨(h.plain name hname).1, (h.plain name hname).2.1⟩

/-! ## The directories above a file -/

theorem length_splitOn (path : List Char) : (path.splitOn '/').length = path.count '/' + 1 := by
  induction path with
  | nil => rfl
  | cons c rest ih =>
      rw [List.splitOn_cons_eq_if_modifyHead, List.count_cons]
      split
      · rw [List.length_cons, ih]
      · rw [List.length_modifyHead, ih]

/-- The directory of a file has the names before the last one. -/
theorem directory_eq (hnames : ∀ name ∈ path.splitOn '/', Named name) :
    directory path = ['/'].intercalate (path.splitOn '/').dropLast := by
  obtain ⟨front, name, hsplit⟩ : ∃ front name, path.splitOn '/' = front ++ [name] :=
    ⟨_, _, (List.dropLast_append_getLast (List.splitOn_ne_nil '/' path)).symm⟩
  have hjoined : ['/'].intercalate (path.splitOn '/') = path := List.intercalate_splitOn '/'
  rw [hsplit] at hnames hjoined ⊢
  have hname : '/' ∉ name := (hnames name (List.mem_append_right _ (List.mem_singleton_self name))).2
  have hfront : ∀ other ∈ front, Named other := fun other hother => hnames other (List.mem_append_left _ hother)
  rw [List.dropLast_concat, ← hjoined]
  by_cases hnone : front = []
  · rw [hnone, List.nil_append, List.intercalate_singleton, List.intercalate_nil]
    exact directory_of_not_mem hname
  · have hstem : ['/'].intercalate (front ++ [name]) = (['/'].intercalate front ++ ['/']) ++ name := by
      rw [intercalate_append hnone (List.cons_ne_nil _ _), List.intercalate_singleton, List.append_assoc]
      rfl
    rw [hstem, directory_append_name (by simp) hname,
      directory_append_slash (intercalate_ne_nil hfront hnone) (getLast?_intercalate_ne hfront)]

/-! ## Up to the root and down again -/

/-- Some steps up. -/
def stepsUp : Nat → List Char
  | 0 => []
  | count + 1 => above ++ '/' :: stepsUp count

theorem tidySegments_stepsUp (count : Nat) (path : List Char) :
    tidySegments (stepsUp count ++ path) = List.replicate count above ++ tidySegments path := by
  induction count with
  | zero => rfl
  | succ count ih =>
      rw [stepsUp, List.append_assoc, List.cons_append, tidySegments_append_cons, ih]
      rfl

/-- As many steps up as there are directories lead to where these start. -/
theorem foldl_enter_above {absolute : Bool} (hwalked : ∀ name ∈ walked, Plain name) :
    (List.replicate walked.length above).foldl (enter absolute) walked = [] := by
  induction walked with
  | nil => rfl
  | cons last rest ih =>
      obtain ⟨hlast, hrest⟩ := List.forall_mem_cons.mp hwalked
      rw [List.length_cons, List.replicate_succ, List.foldl_cons, enter_above_cons hlast.2.2, ih hrest]

/-- The path to a file from the directory of another one, by the root of both. -/
def pathByRoot (importer file : List Char) : List Char :=
  here ++ '/' :: (stepsUp (importer.count '/') ++ file)

theorem mem_stepsUp {count : Nat} {c : Char} (h : c ∈ stepsUp count) : c = '.' ∨ c = '/' := by
  induction count with
  | zero => cases h
  | succ count ih =>
      rcases List.mem_append.mp h with hdot | hrest
      · exact .inl (List.eq_of_mem_replicate (n := 2) hdot)
      · exact (List.mem_cons.mp hrest).elim .inr ih

theorem mem_pathByRoot {c : Char} (h : c ∈ pathByRoot importer file) : c = '.' ∨ c = '/' ∨ c ∈ file := by
  rcases List.mem_append.mp h with hdot | hrest
  · exact .inl (List.mem_singleton.mp hdot)
  · rcases List.mem_cons.mp hrest with hslash | hrest
    · exact .inr (.inl hslash)
    · rcases List.mem_append.mp hrest with hsteps | hfile
      · exact (mem_stepsUp hsteps).imp_right .inl
      · exact .inr (.inr hfile)

theorem segments_join_pathByRoot (himporter : Canonical importer) (hfile : Canonical file) :
    segments (join (directory importer) (pathByRoot importer file)) = file.splitOn '/' := by
  have hkept : ∀ name ∈ (importer.splitOn '/').dropLast, name ∈ importer.splitOn '/' :=
    fun name hname => (List.dropLast_sublist _).subset hname
  have hplain : ∀ name ∈ (importer.splitOn '/').dropLast, Plain name :=
    fun name hname => himporter.plain name (hkept name hname)
  have hcount : (importer.splitOn '/').dropLast.reverse.length = importer.count '/' := by
    rw [List.length_reverse, List.length_dropLast, length_splitOn, Nat.add_sub_cancel]
  have hdirectory : tidySegments (directory importer) = (importer.splitOn '/').dropLast := by
    rw [directory_eq himporter.named, tidySegments_intercalate]
    exact fun name hname => ⟨himporter.named name (hkept name hname), (hplain name hname).2.1⟩
  have hpath : tidySegments (pathByRoot importer file) =
      List.replicate (importer.count '/') above ++ file.splitOn '/' := by
    rw [pathByRoot, tidySegments_append_cons, tidySegments_stepsUp, hfile.tidySegments_eq]
    rfl
  obtain ⟨absolute, habsolute⟩ : ∃ absolute,
      isAbsolute (join (directory importer) (pathByRoot importer file)) = absolute := ⟨_, rfl⟩
  -- the directories are entered, left again one by one, and then the file's own names are entered
  calc segments (join (directory importer) (pathByRoot importer file))
      = (((importer.splitOn '/').dropLast ++ (List.replicate (importer.count '/') above ++
          file.splitOn '/')).foldl (enter absolute) []).reverse := by
        rw [segments_eq, habsolute, tidySegments_join rfl, hdirectory, hpath]
    _ = ((file.splitOn '/').foldl (enter absolute) ((List.replicate (importer.count '/') above).foldl
          (enter absolute) (importer.splitOn '/').dropLast.reverse)).reverse := by
        rw [List.foldl_append, List.foldl_append, foldl_enter_of_plain hplain, List.append_nil]
    _ = ((file.splitOn '/').foldl (enter absolute) []).reverse := by
        rw [← hcount, foldl_enter_above fun name hname => hplain name (List.mem_reverse.mp hname)]
    _ = file.splitOn '/' := by
        rw [foldl_enter_of_plain hfile.plain, List.append_nil, List.reverse_reverse]

theorem tame_join (hfirst : ∀ c ∈ outer.head?, Text.isBlank c = false) (hslashes : '\\' ∉ outer)
    (hinner : Tame inner) (hsome : inner ≠ []) : Tame (join outer inner) := by
  unfold join
  split
  · exact hinner
  · split
    · exact tame_append hfirst hslashes hinner hsome
    · exact tame_append hfirst hslashes hinner.cons_slash (List.cons_ne_nil _ _)

theorem tame_pathByRoot (importer : List Char) (hfile : Canonical file) : Tame (pathByRoot importer file) := by
  refine ⟨?_, ?_, ?_⟩
  · intro hmem
    rcases mem_pathByRoot hmem with hdot | hslash | hmem
    · cases hdot
    · cases hslash
    · exact hfile.tame.slashes hmem
  · intro c hc
    cases hc
    decide
  · intro c hc
    apply hfile.tame.last
    rwa [pathByRoot, ← List.cons_append, ← List.append_assoc, List.getLast?_append_of_ne_nil _ hfile.ne_nil] at hc

theorem tame_join_pathByRoot (himporter : Canonical importer) (hfile : Canonical file) :
    Tame (join (directory importer) (pathByRoot importer file)) := by
  obtain ⟨others, hothers⟩ := directory_isPrefix importer
  apply tame_join _ _ (tame_pathByRoot importer hfile) (List.cons_ne_nil _ _)
  · intro c hc
    apply himporter.tame.first
    rw [← hothers, List.head?_append, Option.mem_def.mp hc]
    rfl
  · intro hmem
    exact himporter.tame.slashes (hothers ▸ List.mem_append_left _ hmem)

theorem keyChars_join_pathByRoot (himporter : Canonical importer) (hfile : Canonical file) :
    keyChars none (join (directory importer) (pathByRoot importer file)) = file := by
  have hdirectory : isAbsolute (directory importer) = false := by
    rw [directory_eq himporter.named, isAbsolute_intercalate]
    exact fun name hname => himporter.named name ((List.dropLast_sublist _).subset hname)
  have hrelative : isAbsolute (join (directory importer) (pathByRoot importer file)) = false :=
    isAbsolute_join_eq_false hdirectory rfl
  have hjoined : ['/'].intercalate (file.splitOn '/') = file := List.intercalate_splitOn '/'
  have hkey := (collapseKey_eq_iff hrelative (fun name hname => ⟨hfile.named name hname, hfile.plain name hname⟩)
    (List.splitOn_ne_nil _ _)).mpr (segments_join_pathByRoot himporter hfile)
  rw [keyChars_of_relative none (tame_join_pathByRoot himporter hfile) hrelative, hkey, hjoined]

end ChangeImpact.Path
