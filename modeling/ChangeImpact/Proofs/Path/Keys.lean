import ChangeImpact.Proofs.Path.Directory
import ChangeImpact.Proofs.Path.Tidy
import ChangeImpact.Proofs.Text.Blank

/-!
# Keys by routes

The key of a path is a text, and a file below the root is known by the names on the way to it from there.  A tame
path has neither backslashes nor blanks at its ends, so its key is spelled with names.

An absolute path below the root has the key that goes on from the root if it starts with as many slashes as the
root does (`keyChars_eq_iff_of_isAbsolute`), while a relative path is never compared with the root
(`keyChars_eq_iff_of_relative`).  So the key of a path is that of the file to which it leads if the path is relative
to the root after all, or starts like the root (`keyChars_eq_iff_of_recognizes`), and only then
(`keyChars_eq_iff_of_route`).
-/

namespace ChangeImpact.Path

variable {path text : List Char} {names first second : List Segment} {root : Root}

/-! ## Tame texts -/

/-- A text without backslashes and without blanks at its ends. -/
structure Tame (text : List Char) : Prop where
  slashes : '\\' ∉ text
  first : ∀ c ∈ text.head?, Text.isBlank c = false
  last : ∀ c ∈ text.getLast?, Text.isBlank c = false

instance (text : List Char) : Decidable (Tame text) :=
  decidable_of_iff ('\\' ∉ text ∧ text.head?.all (fun c => !Text.isBlank c) = true ∧
      text.getLast?.all (fun c => !Text.isBlank c) = true)
    ⟨fun ⟨hslashes, hfirst, hlast⟩ =>
        ⟨hslashes, by simpa [Option.all_eq_true] using hfirst, by simpa [Option.all_eq_true] using hlast⟩,
      fun h => ⟨h.slashes, by simpa [Option.all_eq_true] using h.first, by simpa [Option.all_eq_true] using h.last⟩⟩

theorem withSlashes_eq_self (h : '\\' ∉ text) : withSlashes text = text := by
  refine (List.map_congr_left fun c hc => ?_).trans (List.map_id text)
  exact if_neg fun (heq : c = '\\') => h (heq ▸ hc)

theorem withSlashes_append (front back : List Char) :
    withSlashes (front ++ back) = withSlashes front ++ withSlashes back :=
  List.map_append

theorem Tame.strip (h : Tame text) : Text.strip text = text :=
  Text.strip_eq_self_iff.mpr ⟨h.first, h.last⟩

theorem Tame.withSlashes_strip (h : Tame text) : withSlashes (Text.strip text) = text := by
  rw [h.strip, withSlashes_eq_self h.slashes]

theorem tame_nil : Tame [] := ⟨by simp, by simp, by simp⟩

theorem tame_append {front back : List Char} (hfirst : ∀ c ∈ front.head?, Text.isBlank c = false)
    (hslashes : '\\' ∉ front) (hback : Tame back) (hsome : back ≠ []) : Tame (front ++ back) := by
  refine ⟨by simp [hslashes, hback.slashes], ?_, ?_⟩
  · intro c hc
    rw [List.head?_append] at hc
    cases hfront : front.head? with
    | none =>
        rw [hfront] at hc
        exact hback.first c hc
    | some d =>
        rw [hfront] at hc
        cases hc
        exact hfirst c hfront
  · intro c hc
    rw [List.getLast?_append_of_ne_nil _ hsome] at hc
    exact hback.last c hc

theorem Tame.cons_slash (h : Tame text) : Tame ('/' :: text) := by
  by_cases hnone : text = []
  · rw [hnone]
    decide
  · refine @tame_append ['/'] text (fun c hc => ?_) (by decide) h hnone
    cases hc
    decide

theorem tame_intercalate (hnames : ∀ name ∈ names, Tame name) : Tame (['/'].intercalate names) := by
  induction names with
  | nil => exact tame_nil
  | cons name rest ih =>
      obtain ⟨hname, hrest⟩ := List.forall_mem_cons.mp hnames
      cases rest with
      | nil => rwa [List.intercalate_singleton]
      | cons next others =>
          rw [List.intercalate_cons_cons, List.append_assoc, List.singleton_append]
          exact tame_append hname.first hname.slashes (ih hrest).cons_slash (List.cons_ne_nil _ _)

theorem tame_of_splitOn (h : ∀ segment ∈ text.splitOn '/', Tame segment) : Tame text := by
  have hjoined : ['/'].intercalate (text.splitOn '/') = text := List.intercalate_splitOn '/'
  exact hjoined ▸ tame_intercalate h

/-! ## Segments that have been entered -/

theorem mem_of_mem_enter {absolute : Bool} {walked : List Segment} {segment other : Segment}
    (h : other ∈ enter absolute walked segment) : other = segment ∨ other ∈ walked := by
  unfold enter at h
  split at h
  · exact .inr h
  · split at h
    · rename_i habove
      subst habove
      split at h
      · split at h
        · cases h
        · exact .inl (List.mem_singleton.mp h)
      · split at h
        · exact List.mem_cons.mp h
        · exact .inr (List.mem_cons_of_mem _ h)
    · exact List.mem_cons.mp h

/-- Collapsing a path makes no new segments. -/
theorem mem_splitOn_of_mem_segments {segment : Segment} (h : segment ∈ segments path) : segment ∈ path.splitOn '/' := by
  have hfold : ∀ (parts walked : List Segment), ∀ other ∈ parts.foldl (enter (isAbsolute path)) walked,
      other ∈ parts ∨ other ∈ walked := by
    intro parts
    induction parts with
    | nil => exact fun walked other hother => .inr hother
    | cons part rest ih =>
        intro walked other hother
        rcases ih _ other hother with hrest | hentered
        · exact .inl (List.mem_cons_of_mem _ hrest)
        · exact (mem_of_mem_enter hentered).imp_left fun (heq : other = part) => heq ▸ List.mem_cons_self
  exact (hfold _ [] segment (List.mem_reverse.mp h)).resolve_right List.not_mem_nil

/-! ## Spelled names -/

/-- Empty segments at the start and the names after them can be told apart. -/
theorem replicate_append_inj {slashes others : Nat} (hfirst : [] ∉ first) (hsecond : [] ∉ second)
    (h : List.replicate slashes ([] : Segment) ++ first = List.replicate others [] ++ second) :
    slashes = others ∧ first = second := by
  induction slashes generalizing others with
  | zero =>
      cases others with
      | zero => exact ⟨rfl, h⟩
      | succ others =>
          rw [List.replicate_zero, List.nil_append] at h
          rw [h] at hfirst
          exact absurd List.mem_cons_self hfirst
  | succ slashes ih =>
      cases others with
      | zero =>
          rw [List.replicate_zero, List.nil_append] at h
          rw [← h] at hsecond
          exact absurd List.mem_cons_self hsecond
      | succ others =>
          obtain ⟨rfl, hnames⟩ := ih (List.cons.inj h).2
          exact ⟨rfl, hnames⟩

/-- Slashes at the start and the names after them can be read off a text. -/
theorem slashes_append_inj {slashes others : Nat} (hfirst : ∀ name ∈ first, Named name)
    (hsecond : ∀ name ∈ second, Named name) (hsome : second ≠ []) :
    List.replicate slashes '/' ++ ['/'].intercalate first = List.replicate others '/' ++ ['/'].intercalate second ↔
      slashes = others ∧ first = second := by
  refine ⟨fun h => ?_, by rintro ⟨rfl, rfl⟩; rfl⟩
  have hsplit := congrArg (·.splitOn '/') h
  simp only [splitOn_slashes] at hsplit
  rw [List.splitOn_intercalate '/' (fun name hname => (hsecond name hname).2) hsome] at hsplit
  have hnone : first ≠ [] := by
    rintro rfl
    -- there are names on one side only
    obtain ⟨name, hname⟩ := List.exists_mem_of_ne_nil second hsome
    have hmem : name ∈ List.replicate slashes ([] : Segment) ++ [[]] :=
      hsplit ▸ List.mem_append_right _ hname
    have hempty : name = [] := by
      rcases List.mem_append.mp hmem with hslash | hend
      · exact List.eq_of_mem_replicate hslash
      · exact List.mem_singleton.mp hend
    exact (hsecond name hname).1 hempty
  rw [List.splitOn_intercalate '/' (fun name hname => (hfirst name hname).2) hnone] at hsplit
  exact replicate_append_inj (fun hmem => (hfirst [] hmem).1 rfl) (fun hmem => (hsecond [] hmem).1 rfl) hsplit

theorem intercalate_append (hfirst : first ≠ []) (hsecond : second ≠ []) : ['/'].intercalate (first ++ second) =
    ['/'].intercalate first ++ '/' :: ['/'].intercalate second := by
  induction first with
  | nil => exact absurd rfl hfirst
  | cons name rest ih =>
      cases rest with
      | nil =>
          obtain ⟨next, others, rfl⟩ := List.exists_cons_of_ne_nil hsecond
          rw [List.singleton_append, List.intercalate_cons_cons, List.intercalate_singleton, List.append_assoc]
          rfl
      | cons next others =>
          rw [List.cons_append, List.cons_append, List.intercalate_cons_cons, List.intercalate_cons_cons,
            ← List.cons_append, ih (List.cons_ne_nil _ _), List.append_assoc, List.append_assoc, List.append_assoc]

/-! ## The root -/

/-- The names on the way to the root. -/
def rootRoute (root : Root) : List Segment :=
  route root.workingDirectory.toList root.directory.toList

/-- The path of the root as it may be followed from anywhere. -/
def rootPath (root : Root) : List Char :=
  join root.workingDirectory.toList root.directory.toList

theorem mem_collapse {c : Char} (habsolute : isAbsolute path = true) (h : c ∈ collapse path) : c = '/' ∨ c ∈ path := by
  rw [collapse_of_isAbsolute habsolute, List.mem_append] at h
  rcases h with hslash | hname
  · exact .inl (List.eq_of_mem_replicate hslash)
  · exact (mem_intercalate hname).imp_right fun ⟨_, hname, hc⟩ =>
      mem_of_mem_splitOn (mem_splitOn_of_mem_segments hname) hc

/-- The text of the root has no slash at its end, also where the root is the top. -/
theorem rootText_eq (habsolute : isAbsolute (rootPath root) = true) (hslashes : '\\' ∉ rootPath root) :
    rootText root = if rootRoute root = [] then [] else
      List.replicate (rootSlashes (rootPath root)) '/' ++ ['/'].intercalate (rootRoute root) := by
  have hcollapse : absolute root.workingDirectory.toList root.directory.toList = collapse (rootPath root) := by
    rw [absolute, rootPath]
    split
    · rename_i hgiven
      rw [join, if_pos hgiven]
    · rfl
  have hkept : withSlashes (collapse (rootPath root)) = collapse (rootPath root) :=
    withSlashes_eq_self fun h => (mem_collapse habsolute h).elim (by decide) hslashes
  rw [rootText, hcollapse, hkept, collapse_of_isAbsolute habsolute]
  change dropTrailingSlashes (_ ++ ['/'].intercalate (rootRoute root)) = _
  -- the top consists of slashes alone, and these are all dropped
  by_cases htop : rootRoute root = []
  · rw [htop, List.intercalate_nil, List.append_nil, if_pos rfl, dropTrailingSlashes, List.reverse_replicate,
      List.reverse_eq_nil_iff, List.dropWhile_eq_nil_iff]
    intro c hc
    rw [List.eq_of_mem_replicate hc, beq_self_eq_true]
  · have hnamed : ∀ name ∈ rootRoute root, Named name := fun name hname => named_of_mem_segments hname
    rw [if_neg htop, dropTrailingSlashes_of_getLast?_ne]
    rw [List.getLast?_append_of_ne_nil _ (intercalate_ne_nil hnamed htop)]
    exact getLast?_intercalate_ne hnamed

theorem rootText_append (habsolute : isAbsolute (rootPath root) = true) (hslashes : '\\' ∉ rootPath root)
    (hnames : names ≠ []) : rootText root ++ '/' :: ['/'].intercalate names =
      List.replicate (if rootRoute root = [] then 1 else rootSlashes (rootPath root)) '/' ++
        ['/'].intercalate (rootRoute root ++ names) := by
  rw [rootText_eq habsolute hslashes]
  by_cases htop : rootRoute root = []
  · rw [htop, if_pos rfl, if_pos rfl]
    rfl
  · rw [if_neg htop, if_neg htop, intercalate_append htop hnames, List.append_assoc]

/-! ## The key of a path -/

theorem keyChars_eq_keyBelow (habsolute : isAbsolute (withSlashes (Text.strip path)) = true) :
    keyChars (some root) path = keyBelow (rootText root) (withSlashes (Text.strip path)) := by
  obtain ⟨rest, hrest⟩ := isAbsolute_iff.mp habsolute
  rw [keyChars, hrest, if_neg (by simp), ← hrest]
  exact if_pos habsolute

theorem keyChars_eq_collapseKey (root : Option Root)
    (hrelative : isAbsolute (withSlashes (Text.strip path)) = false) :
    keyChars root path = collapseKey (withSlashes (Text.strip path)) := by
  have hempty : (if (withSlashes (Text.strip path)).isEmpty then [] else
      collapseKey (withSlashes (Text.strip path))) = collapseKey (withSlashes (Text.strip path)) := by
    split
    · rename_i hnone
      rw [List.isEmpty_iff.mp hnone]
      rfl
    · rfl
  cases root with
  | none => exact hempty
  | some root =>
      unfold keyChars
      dsimp only
      rw [if_neg (show ¬ isAbsolute (withSlashes (Text.strip path)) = true by simp [hrelative])]
      exact hempty

/-- The key of an absolute path goes on from the root if the path starts like the root does. -/
theorem keyChars_eq_iff_of_isAbsolute (hworking : isAbsolute root.workingDirectory.toList = true)
    (hslashes : '\\' ∉ rootPath root) (htame : Tame path) (habsolute : isAbsolute path = true)
    (hnames : ∀ name ∈ names, Named name) (hsome : names ≠ []) :
    keyChars (some root) path = ['/'].intercalate names ↔
      rootSlashes path = (if rootRoute root = [] then 1 else rootSlashes (rootPath root)) ∧
        segments path = rootRoute root ++ names := by
  rw [keyChars_eq_keyBelow (by rwa [htame.withSlashes_strip]), htame.withSlashes_strip, keyBelow_eq_iff habsolute
    (intercalate_ne_nil hnames hsome) (isAbsolute_intercalate hnames),
    rootText_append (isAbsolute_join hworking) hslashes hsome,
    collapse_of_isAbsolute habsolute, slashes_append_inj]
  · exact fun name hname => named_of_mem_segments hname
  · exact fun name hname => (List.mem_append.mp hname).elim named_of_mem_segments (hnames name)
  · exact List.append_ne_nil_of_right_ne_nil _ hsome

/-- A relative path has a key that is spelled with names if these are what is left of it. -/
theorem collapseKey_eq_iff (hrelative : isAbsolute path = false) (hnames : ∀ name ∈ names, Named name ∧ Plain name)
    (hsome : names ≠ []) : collapseKey path = ['/'].intercalate names ↔ segments path = names := by
  have hnamed : ∀ name ∈ names, Named name := fun name hname => (hnames name hname).1
  have htext := intercalate_ne_nil hnamed hsome
  have hsegments : ∀ name ∈ segments path, Named name := fun name hname => named_of_mem_segments hname
  have hspelled : ['/'].intercalate (segments path) = ['/'].intercalate names ↔ segments path = names :=
    (@slashes_append_inj (segments path) names 0 0 hsegments hnamed hsome).trans (and_iff_right rfl)
  rw [collapseKey, collapse, rootSlashes_eq_zero hrelative, List.replicate_zero, List.nil_append]
  by_cases hnone : segments path = []
  · refine iff_of_false ?_ fun heq => hsome (heq ▸ hnone)
    rw [hnone]
    exact htext.symm
  · have hfull : ¬ (['/'].intercalate (segments path)).isEmpty = true := by
      simpa using intercalate_ne_nil hsegments hnone
    rw [if_neg hfull]
    by_cases hhere : ['/'].intercalate (segments path) = here
    · rw [if_pos hhere]
      refine iff_of_false htext.symm fun heq => ?_
      -- no name is the segment for the directory itself
      have hsplit := List.splitOn_intercalate '/' (fun name hname => (hnamed name hname).2) hsome
      rw [← heq, hhere] at hsplit
      have hmem : here ∈ names := by
        rw [← heq, ← hsplit]
        decide
      exact (hnames here hmem).2.2.1 rfl
    · rw [if_neg hhere, hspelled]

/-- The key of a relative path has nothing to do with the root. -/
theorem keyChars_of_relative (root : Option Root) (htame : Tame path) (hrelative : isAbsolute path = false) :
    keyChars root path = collapseKey path := by
  rw [keyChars_eq_collapseKey root (by rwa [htame.withSlashes_strip]), htame.withSlashes_strip]

theorem keyChars_eq_iff_of_relative (htame : Tame path) (hrelative : isAbsolute path = false)
    (hnames : ∀ name ∈ names, Named name ∧ Plain name) (hsome : names ≠ []) :
    keyChars (some root) path = ['/'].intercalate names ↔ segments path = names := by
  rw [keyChars_of_relative (some root) htame hrelative, collapseKey_eq_iff hrelative hnames hsome]

/-! ## Recognized paths -/

/-- The key of a path is that of the file to which it leads, as the root is spelled: an absolute path starts like
the root, and a relative one is relative to the root and does not climb out of it. -/
def Recognizes (root : Root) (path : List Char) : Prop :=
  if isAbsolute path = true then
    rootSlashes path = if rootRoute root = [] then 1 else rootSlashes (rootPath root)
  else rootRoute root = segments root.workingDirectory.toList ∧ (segments path).head? ≠ some above

instance (root : Root) (path : List Char) : Decidable (Recognizes root path) :=
  inferInstanceAs (Decidable (if isAbsolute path = true then _ else _))

theorem takeWhile_slash_eq_nil (h : ∀ rest, path ≠ '/' :: rest) : path.takeWhile (· == '/') = [] := by
  cases path with
  | nil => rfl
  | cons c rest =>
      have hc : c ≠ '/' := fun heq => h rest (heq ▸ rfl)
      simp [hc]

/-- A path is some slashes and what follows them. -/
theorem slashes_append_dropWhile (path : List Char) :
    List.replicate (path.takeWhile (· == '/')).length '/' ++ path.dropWhile (· == '/') = path := by
  have hslashes : path.takeWhile (· == '/') = List.replicate (path.takeWhile (· == '/')).length '/' :=
    List.eq_replicate_of_mem fun c hc => by simpa using List.mem_takeWhile_imp hc
  rw [← hslashes, List.takeWhile_append_dropWhile]

theorem exists_slashes (path : List Char) : ∃ slashes rest, path = List.replicate slashes '/' ++ rest ∧
    isAbsolute rest = false := by
  refine ⟨_, _, (slashes_append_dropWhile path).symm, ?_⟩
  have hfirst := List.head?_dropWhile_not (· == '/') path
  cases hrest : path.dropWhile (· == '/') with
  | nil => rfl
  | cons c rest =>
      rw [hrest] at hfirst
      simpa [isAbsolute] using hfirst

/-- A path keeps the slashes at its start, but not three or more. -/
theorem rootSlashes_eq (path : List Char) : rootSlashes path =
    if (path.takeWhile (· == '/')).length < 3 then (path.takeWhile (· == '/')).length else 1 := by
  unfold rootSlashes
  split
  · simp
  · rename_i rest hthree
    have hnone : rest.takeWhile (· == '/') = [] :=
      takeWhile_slash_eq_nil fun other heq => hthree other (by rw [heq])
    simp [hnone]
  · rename_i rest _ htwo
    have hnone : rest.takeWhile (· == '/') = [] :=
      takeWhile_slash_eq_nil fun other heq => htwo other (by rw [heq])
    simp [hnone]
  · rename_i hnot
    rw [takeWhile_slash_eq_nil hnot]
    rfl

theorem rootSlashes_append {front : List Char} (h : ∃ c ∈ front, c ≠ '/') (back : List Char) :
    rootSlashes (front ++ back) = rootSlashes front := by
  obtain ⟨c, hc, hslash⟩ := h
  have hstart : (front ++ back).takeWhile (· == '/') = front.takeWhile (· == '/') := by
    rw [List.takeWhile_append, if_neg]
    intro hlength
    have hall := (List.takeWhile_prefix (· == '/')).eq_of_length hlength
    have hc := List.takeWhile_eq_self_iff.mp hall c hc
    simp [hslash] at hc
  rw [rootSlashes_eq, rootSlashes_eq, hstart]

/-- Below an absolute root that is not the top, every relative path is recognized. -/
theorem recognizes_join {inner : List Char} (hroot : isAbsolute root.directory.toList = true)
    (hinner : isAbsolute inner = false) (htop : rootRoute root ≠ []) :
    Recognizes root (join root.directory.toList inner) := by
  have hpath : rootPath root = root.directory.toList := if_pos hroot
  obtain ⟨name, hname⟩ := List.exists_mem_of_ne_nil _ htop
  obtain ⟨c, hc⟩ := List.exists_mem_of_ne_nil name (named_of_mem_segments hname).1
  have hslash : ∃ c ∈ root.directory.toList, c ≠ '/' := by
    refine ⟨c, ?_, fun heq => (named_of_mem_segments hname).2 (heq ▸ hc)⟩
    rw [← hpath]
    exact mem_of_mem_splitOn (mem_splitOn_of_mem_segments hname) hc
  rw [Recognizes, if_pos (isAbsolute_join hroot), if_neg htop, hpath, join_of_relative hinner]
  split
  · exact rootSlashes_append hslash _
  · exact rootSlashes_append hslash _

example : Recognizes ⟨".", "/web"⟩ "./graph.json".toList ∧ ¬ Recognizes ⟨"web", "/"⟩ "web/graph.json".toList ∧
    ¬ Recognizes ⟨"/web", "/"⟩ "//web/graph.json".toList := by decide

variable (hworking : isAbsolute root.workingDirectory.toList = true) (hslashes : '\\' ∉ rootPath root)
  (htame : Tame path) (hnames : ∀ name ∈ names, Named name ∧ Plain name) (hsome : names ≠ [])
include hworking hslashes htame hnames hsome

/-- A path that is recognized has the key of the file to which it leads, and no other. -/
theorem keyChars_eq_iff_of_recognizes (h : Recognizes root path) : keyChars (some root) path = ['/'].intercalate names ↔
    route root.workingDirectory.toList path = rootRoute root ++ names := by
  have hnamed : ∀ name ∈ names, Named name := fun name hname => (hnames name hname).1
  rw [Recognizes] at h
  split at h
  · rename_i habsolute
    rw [keyChars_eq_iff_of_isAbsolute hworking hslashes htame habsolute hnamed hsome, route_of_isAbsolute habsolute]
    exact and_iff_right h
  · rename_i hrelative
    rw [Bool.not_eq_true] at hrelative
    obtain ⟨htop, hhead⟩ := h
    rw [keyChars_eq_iff_of_relative htame hrelative hnames hsome, (route_of_relative hworking hrelative hhead).1, htop]
    exact (List.append_right_inj _).symm

/-- The key of a path is that of the file to which it leads only if the path is recognized. -/
theorem keyChars_eq_iff_of_route (h : route root.workingDirectory.toList path = rootRoute root ++ names) :
    keyChars (some root) path = ['/'].intercalate names ↔ Recognizes root path := by
  refine ⟨fun hkey => ?_, fun hrecognizes =>
    (keyChars_eq_iff_of_recognizes hworking hslashes htame hnames hsome hrecognizes).mpr h⟩
  have hnamed : ∀ name ∈ names, Named name := fun name hname => (hnames name hname).1
  rw [Recognizes]
  split
  · rename_i habsolute
    exact ((keyChars_eq_iff_of_isAbsolute hworking hslashes htame habsolute hnamed hsome).mp hkey).1
  · rename_i hrelative
    rw [Bool.not_eq_true] at hrelative
    have hsegments := (keyChars_eq_iff_of_relative htame hrelative hnames hsome).mp hkey
    have hhead : (segments path).head? ≠ some above := by
      rw [hsegments]
      exact fun hhead => (hnames above (List.mem_of_mem_head? hhead)).2.2.2 rfl
    rw [(route_of_relative hworking hrelative hhead).1, hsegments] at h
    exact ⟨(List.append_cancel_right h).symm, hhead⟩

end ChangeImpact.Path
