import ChangeImpact.Disk.Basic
import ChangeImpact.Proofs.Disk.Tree
import ChangeImpact.Proofs.Path.Tidy
import Mathlib.Data.List.Basic

/-!
# Where a path leads to

A path is followed through directories, from one name to the next.  So it leads where it did as long as the same
directories are there (`Disk.locate_iff`), and what it leads to stands in a directory
(`Disk.sight?_dropLast_of_locate`).  There are no links, so the names on the way are those of the collapsed path
(`Disk.map_toList_of_locate`).  The file that a path leads to is read there (`Disk.held?_eq_some_iff`).
-/

namespace ChangeImpact.Disk

variable {disk after : Disk} {tree changed : FileTree} {walked place : List String} {path : String}
  {segment : Path.Segment} {segments : List Path.Segment}

/-! ## Following segments -/

/-- Where one segment leads from a directory. -/
def turn (walked : List String) (segment : Path.Segment) : List String :=
  if segment = [] ∨ segment = Path.here then walked
  else if segment = Path.above then walked.tail
  else String.ofList segment :: walked

theorem turn_idle (hidle : segment = [] ∨ segment = Path.here) : turn walked segment = walked :=
  if_pos hidle

theorem hasDirectory_of_follow_cons (h : follow tree walked (segment :: segments) = .ok place) :
    tree.hasDirectory walked.reverse = true := by
  rw [follow] at h
  rw [FileTree.hasDirectory_iff]
  cases hfound : tree.at? walked.reverse with
  | none => simp [hfound] at h
  | some found =>
      cases found with
      | file bytes time => simp [hfound] at h
      | directory entries => exact ⟨entries, rfl⟩

/-- Out of a directory the first segment leads to where the others are followed from. -/
theorem follow_cons (hdirectory : tree.hasDirectory walked.reverse = true) :
    follow tree walked (segment :: segments) = follow tree (turn walked segment) segments := by
  obtain ⟨entries, hentries⟩ := FileTree.hasDirectory_iff.mp hdirectory
  rw [follow, hentries, turn]
  simp only [apply_ite (follow tree · segments)]

theorem follow_append_eq_ok_iff {first second : List Path.Segment} :
    follow tree walked (first ++ second) = .ok place ↔
      ∃ middle, follow tree walked first = .ok middle ∧ follow tree middle second = .ok place := by
  induction first generalizing walked with
  | nil =>
      constructor
      · exact fun h => ⟨walked, rfl, h⟩
      · rintro ⟨middle, hfirst, hsecond⟩
        cases hfirst
        exact hsecond
  | cons segment rest ih =>
      by_cases hdirectory : tree.hasDirectory walked.reverse = true
      · rw [List.cons_append, follow_cons hdirectory, follow_cons hdirectory]
        exact ih
      · refine iff_of_false (fun h => hdirectory (hasDirectory_of_follow_cons h)) ?_
        rintro ⟨middle, hfirst, -⟩
        exact hdirectory (hasDirectory_of_follow_cons hfirst)

/-- Segments lead where they did if no directory has been lost. -/
theorem follow_of_hasDirectory
    (hkept : ∀ place, tree.hasDirectory place = true → changed.hasDirectory place = true)
    (h : follow tree walked segments = .ok place) : follow changed walked segments = .ok place := by
  induction segments generalizing walked with
  | nil => exact h
  | cons segment rest ih =>
      have hdirectory := hasDirectory_of_follow_cons h
      rw [follow_cons hdirectory] at h
      rw [follow_cons (hkept _ hdirectory)]
      exact ih h

theorem hasDirectory_tail (h : tree.hasDirectory walked.reverse = true) :
    tree.hasDirectory walked.tail.reverse = true := by
  cases walked with
  | nil => exact h
  | cons name above =>
      rw [← FileTree.sight?_eq_directory, List.reverse_cons] at h
      rw [List.tail_cons, ← FileTree.sight?_eq_directory]
      exact FileTree.sight?_dropLast (by rw [h]; exact Option.some_ne_none _)

/-- Whichever way a segment leads out of a directory, it leads to something in a directory. -/
theorem hasDirectory_turn (hdirectory : tree.hasDirectory walked.reverse = true) (segment : Path.Segment) :
    tree.hasDirectory (turn walked segment).tail.reverse = true := by
  unfold turn
  split
  · exact hasDirectory_tail hdirectory
  · split
    · exact hasDirectory_tail (hasDirectory_tail hdirectory)
    · exact hdirectory

/-- What is reached stands in a directory, if this is so at the start. -/
theorem hasDirectory_of_follow (habove : tree.hasDirectory walked.tail.reverse = true)
    (h : follow tree walked segments = .ok place) : tree.hasDirectory place.tail.reverse = true := by
  induction segments generalizing walked with
  | nil =>
      cases h
      exact habove
  | cons segment rest ih =>
      have hdirectory := hasDirectory_of_follow_cons h
      rw [follow_cons hdirectory] at h
      exact ih (hasDirectory_turn hdirectory segment) h

/-- Among names no segment turns back otherwise than in a path that is collapsed. -/
theorem map_toList_turn (hwalked : ∀ name ∈ walked, name.toList ≠ Path.above) (segment : Path.Segment) :
    (turn walked segment).map String.toList = Path.enter true (walked.map String.toList) segment ∧
      ∀ name ∈ turn walked segment, name.toList ≠ Path.above := by
  unfold turn
  split
  · rename_i hidle
    exact ⟨(Path.enter_idle hidle).symm, hwalked⟩
  · rename_i hnamed
    rw [not_or] at hnamed
    split
    · rename_i habove
      subst habove
      cases walked with
      | nil => exact ⟨rfl, hwalked⟩
      | cons last names =>
          exact ⟨(Path.enter_above_cons (hwalked last List.mem_cons_self)).symm,
            fun name hname => hwalked name (List.mem_cons_of_mem _ hname)⟩
    · rename_i hbelow
      refine ⟨?_, List.forall_mem_cons.mpr ⟨by rwa [String.toList_ofList], hwalked⟩⟩
      rw [Path.enter_plain ⟨hnamed.1, hnamed.2, hbelow⟩, List.map_cons, String.toList_ofList]

/-- The names that are followed are those that stay when the path is collapsed. -/
theorem map_toList_of_follow (hwalked : ∀ name ∈ walked, name.toList ≠ Path.above)
    (h : follow tree walked segments = .ok place) :
    place.map String.toList = segments.foldl (Path.enter true) (walked.map String.toList) := by
  induction segments generalizing walked with
  | nil =>
      cases h
      rfl
  | cons segment rest ih =>
      obtain ⟨hturn, hnames⟩ := map_toList_turn hwalked segment
      rw [follow_cons (hasDirectory_of_follow_cons h)] at h
      rw [ih hnames h, hturn, List.foldl_cons]

/-! ## Locating -/

theorem locate_eq_ok_iff {path : List Char} : disk.locate (String.ofList path) = .ok place ↔
    '\x00' ∉ path ∧ path ≠ [] ∧
      follow disk.tree [] ((Path.join disk.workingDirectory.toList path).splitOn '/') = .ok place.reverse := by
  rw [locate]
  simp only [String.toList_ofList, List.contains_iff_mem, List.isEmpty_iff]
  split
  · rename_i hnull
    simp [hnull]
  · rename_i hnull
    split
    · rename_i hempty
      simp [hempty]
    · rename_i hempty
      cases follow disk.tree [] ((Path.join disk.workingDirectory.toList path).splitOn '/') with
      | error cause => simp
      | ok walked =>
          simp only [hnull, hempty, not_false_eq_true, ne_eq, true_and, Except.ok.injEq]
          exact List.reverse_eq_iff

/-- Where a path leads can be read off its text. -/
theorem map_toList_of_locate {path : List Char} (hworking : Path.isAbsolute disk.workingDirectory.toList = true)
    (h : disk.locate (String.ofList path) = .ok place) :
    place.map String.toList = Path.route disk.workingDirectory.toList path := by
  have hplace := map_toList_of_follow (by simp) (locate_eq_ok_iff.mp h).2.2
  rw [Path.route, Path.segments, Path.isAbsolute_join hworking]
  rw [List.map_reverse, List.map_nil] at hplace
  rw [← hplace, List.reverse_reverse]

/-- A path leads where it did before if no directory has been lost. -/
theorem locate_of_hasDirectory
    (hkept : ∀ place, disk.tree.hasDirectory place = true → after.tree.hasDirectory place = true)
    (hworking : after.workingDirectory = disk.workingDirectory) (h : disk.locate path = .ok place) :
    after.locate path = .ok place := by
  rw [← String.ofList_toList (s := path), locate_eq_ok_iff] at h ⊢
  obtain ⟨hnull, hempty, hfollow⟩ := h
  exact ⟨hnull, hempty, by rw [hworking]; exact follow_of_hasDirectory hkept hfollow⟩

/-- Where the same directories are there a path leads to the same place. -/
theorem locate_iff (hsame : ∀ place, after.tree.sight? place = some .directory ↔ disk.tree.sight? place = some .directory)
    (hworking : after.workingDirectory = disk.workingDirectory) :
    after.locate path = .ok place ↔ disk.locate path = .ok place := by
  simp only [FileTree.sight?_eq_directory] at hsame
  exact ⟨locate_of_hasDirectory (fun place => (hsame place).mp) hworking.symm,
    locate_of_hasDirectory (fun place => (hsame place).mpr) hworking⟩

/-- What a path leads to stands in a directory. -/
theorem sight?_dropLast_of_locate (h : disk.locate path = .ok place) :
    disk.tree.sight? place.dropLast = some .directory := by
  rw [← String.ofList_toList (s := path), locate_eq_ok_iff] at h
  obtain ⟨-, -, hfollow⟩ := h
  have htop : disk.tree.hasDirectory [] = true := by
    obtain ⟨first, others, hsplit⟩ := List.exists_cons_of_ne_nil
      (List.splitOn_ne_nil '/' (Path.join disk.workingDirectory.toList path.toList))
    rw [hsplit] at hfollow
    exact hasDirectory_of_follow_cons hfollow
  have habove := hasDirectory_of_follow htop hfollow
  rwa [List.tail_reverse, List.reverse_reverse, ← FileTree.sight?_eq_directory] at habove

/-! ## Reading -/

/-- The bytes of the file that a path leads to, if it leads to one. -/
def held? (disk : Disk) (path : String) : Option (List UInt8) :=
  (disk.bytes path).toOption

theorem held?_eq_some_iff {bytes : List UInt8} : disk.held? path = some bytes ↔
    ∃ place, disk.locate path = .ok place ∧ disk.tree.sight? place = some (.file bytes) := by
  rw [held?, Disk.bytes, find]
  cases hplace : disk.locate path with
  | error fault => simp [bind, Except.bind, Except.toOption]
  | ok place =>
      simp only [Except.ok.injEq, exists_eq_left', FileTree.sight?]
      cases hfound : disk.tree.at? place with
      | none => simp [bind, Except.bind, Except.toOption, throw, throwThe, MonadExceptOf.throw, hfound]
      | some found =>
          cases found with
          | file held time => simp [bind, Except.bind, Except.toOption, pure, Except.pure, hfound, FileTree.sight]
          | directory entries =>
              simp [bind, Except.bind, Except.toOption, pure, Except.pure, hfound, FileTree.sight, throw, throwThe,
                MonadExceptOf.throw]

theorem held?_eq_some {bytes : List UInt8} : disk.held? path = some bytes ↔ disk.bytes path = .ok bytes := by
  rw [held?]
  cases disk.bytes path with
  | ok held => simp [Except.toOption]
  | error fault => simp [Except.toOption]

end ChangeImpact.Disk
