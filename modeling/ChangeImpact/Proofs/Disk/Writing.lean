import ChangeImpact.Proofs.Disk.AtomicWrite
import ChangeImpact.Proofs.Disk.Directories
import ChangeImpact.Proofs.Disk.Listing

/-!
# Writing where something is

A text that has been written is found where its path leads to (`Disk.bytes_of_write`).

Where a path leads to something, its parent leads to a directory, so nothing has to be made before a text is
written, and every write comes to an answer (`Disk.exists_write_of_find`).

However a write ends, the directories stay, and the files below each of them are listed as before, but for the one
to which its path leads (`Disk.keeps_write`).
-/

namespace ChangeImpact

namespace Disk

variable {disk after : Disk} {tree found : FileTree} {walked place : List String} {path : String}
  {segments names : List Path.Segment} {text : List Char} {answer : Bool} {pieces : List (List UInt8)}
  {plan : AtomicWrite} {changed : Set (List String)}

/-! ## What has been written -/

/-- A text that has been written is found where its path leads to. -/
theorem bytes_of_write (h : write path text disk = .ok true after) :
    after.bytes (String.ofList (Path.tidy path.toList)) = .ok (Text.Utf8.encode text) := by
  unfold write at h
  generalize String.ofList (Path.tidy path.toList) = path at h ⊢
  cases hmade : makeDirectories (String.ofList (Path.parent path.toList)) disk with
  | error fault made => simp [bind, EStateM.bind, hmade] at h
  | ok _ made =>
      rw [bind_of_eq_ok hmade, get_bind_eq] at h
      cases hplan : made.atomicWrite path [Text.Utf8.encode text] with
      | error fault =>
          rw [hplan] at h
          cases h
      | ok plan =>
          simp only [hplan] at h
          cases hending : (plan.run made).ending with
          | completed =>
              have hbytes := bytes_of_completed hplan hending
              rw [List.flatten_singleton] at hbytes
              rw [hending] at h
              cases h
              exact hbytes
          | failed => rw [hending] at h; cases h
          | refused cause => rw [hending] at h; cases h
          | halted => rw [hending] at h; cases h

/-! ## Writes that come to an answer -/

theorem exists_atomicWrite (other : List (List UInt8)) (hplan : disk.atomicWrite path pieces = .ok plan) :
    ∃ again, disk.atomicWrite path other = .ok again ∧ again.path = path := by
  rw [atomicWrite] at hplan ⊢
  cases hdirectory : disk.locate (String.ofList (Path.parent path.toList)) with
  | error fault =>
      rw [hdirectory] at hplan
      cases hplan
  | ok directory => exact ⟨_, rfl, rfl⟩

/-- A write is planned for the directory to which the parent of its path leads. -/
theorem exists_atomicWrite_of_isDirectory (pieces : List (List UInt8))
    (h : disk.isDirectory (String.ofList (Path.parent path.toList)) = true) :
    ∃ plan, disk.atomicWrite path pieces = .ok plan ∧ disk.tree.hasDirectory plan.temporary.dropLast = true := by
  obtain ⟨directory, hplace, hdirectory⟩ := isDirectory_iff.mp h
  rw [atomicWrite, hplace]
  refine ⟨_, rfl, ?_⟩
  rwa [List.dropLast_concat]

/-- Once there are directories in which a write can be planned, every text comes to an answer. -/
theorem exists_write_of_made {tidied : String} {made : Disk} (other : List Char)
    (htidied : String.ofList (Path.tidy path.toList) = tidied) (hpath : '\x00' ∉ tidied.toList)
    (hmade : makeDirectories (String.ofList (Path.parent tidied.toList)) disk = .ok () made)
    (hplan : made.atomicWrite tidied pieces = .ok plan) :
    ∃ answer after, write path other disk = .ok answer after := by
  unfold write
  rw [htidied]
  obtain ⟨again, hagain, hsame⟩ := exists_atomicWrite [Text.Utf8.encode other] hplan
  have hnot : (again.run made).ending ≠ .failed := fun hfailed =>
    hpath (hsame ▸ (again.run_ending made).2 hfailed)
  rw [bind_of_eq_ok hmade, get_bind_eq]
  simp only [hagain]
  cases hending : (again.run made).ending with
  | completed => exact ⟨_, _, rfl⟩
  | failed => exact absurd hending hnot
  | refused cause => exact ⟨_, _, rfl⟩
  | halted => exact ⟨_, _, rfl⟩

/-- Where one text comes to an answer every other text does, since no fault depends on the text. -/
theorem exists_write (other : List Char) (hpath : '\x00' ∉ (String.ofList (Path.tidy path.toList)).toList)
    (h : write path text disk = .ok answer after) :
    ∃ answer after, write path other disk = .ok answer after := by
  unfold write at h
  generalize htidied : String.ofList (Path.tidy path.toList) = tidied at h hpath
  cases hmade : makeDirectories (String.ofList (Path.parent tidied.toList)) disk with
  | error fault made => simp [bind, EStateM.bind, hmade] at h
  | ok _ made =>
      rw [bind_of_eq_ok hmade, get_bind_eq] at h
      cases hplan : made.atomicWrite tidied [Text.Utf8.encode text] with
      | error fault =>
          rw [hplan] at h
          cases h
      | ok plan => exact exists_write_of_made other htidied hpath hmade hplan

theorem not_mem_of_bytes {bytes : List UInt8} (h : disk.bytes path = .ok bytes) : '\x00' ∉ path.toList := by
  intro hmem
  have hlocate : disk.locate path = .error .nullCharacter := by
    simp [locate, hmem]
  rw [Disk.bytes, find, hlocate] at h
  cases h

/-! ## Directories that are there -/

/-- Where a path leads to something every text can be written there, or is refused. -/
theorem exists_write_of_find (text : List Char)
    (h : disk.find (String.ofList (Path.tidy path.toList)) = .ok found) :
    ∃ answer after, write path text disk = .ok answer after := by
  cases hplace : disk.locate (String.ofList (Path.tidy path.toList)) with
  | error fault =>
      rw [find, hplace] at h
      cases h
  | ok place =>
      have hdirectory := isDirectory_parent hplace
      have hnull : '\x00' ∉ (String.ofList (Path.tidy path.toList)).toList := by
        rw [String.toList_ofList]
        exact (locate_eq_ok_iff.mp hplace).1
      obtain ⟨plan, hplan, -⟩ := exists_atomicWrite_of_isDirectory [] hdirectory
      exact exists_write_of_made text rfl hnull (makeDirectories_of_isDirectory hdirectory) hplan

/-! ## Everything else -/

/-- The working directory is the same, and so is what is listed in every directory, but for some places. -/
structure Keeps (changed : Set (List String)) (disk after : Disk) : Prop where
  workingDirectory : after.workingDirectory = disk.workingDirectory
  tree : FileTree.Keeps changed disk.tree after.tree

theorem keeps_refl (changed : Set (List String)) (disk : Disk) : Keeps changed disk disk :=
  ⟨rfl, FileTree.keeps_refl changed disk.tree⟩

theorem Keeps.trans {made : Disk} (hfirst : Keeps changed disk made) (hsecond : Keeps changed made after) :
    Keeps changed disk after :=
  ⟨hsecond.workingDirectory.trans hfirst.workingDirectory, hfirst.tree.trans hsecond.tree⟩

theorem keptByMaking_keeps : KeptByMaking (Keeps ∅) where
  refl := keeps_refl ∅
  trans := Keeps.trans
  make hvacant habove := by
    refine ⟨rfl, FileTree.keeps_plant rfl habove ?_ fun _ => ⟨hvacant, rfl⟩⟩
    rw [FileTree.sight?_eq_none.mpr hvacant]
    nofun

/-- Making directories keeps everything, however it ends. -/
theorem keeps_makeDirectories (path : String) (disk : Disk) :
    Ends (makeDirectories path) disk (fun _ after => Keeps ∅ disk after) fun _ after => Keeps ∅ disk after := by
  rw [← DiskConduct.makeDirectories_willing]
  exact (DiskConduct.makeDirectories_ends _ keptByMaking_keeps path disk).imp fun _ _ hmade => hmade.1

theorem keeps_run {pieces : List (List UInt8)} (hplan : disk.atomicWrite path pieces = .ok plan)
    (hchanged : ∀ place, disk.locate path = .ok place → place ∈ changed) :
    Keeps changed disk (plan.run disk).last := by
  rcases run_cases hplan with ⟨hworking, hsame⟩ | hafter
  · exact ⟨hworking, hsame ▸ FileTree.keeps_refl _ _⟩
  · obtain ⟨-, -, hplanned, -⟩ := exists_of_atomicWrite hplan
    obtain ⟨time, htree⟩ := hafter.planted.tree
    refine ⟨hafter.planted.workingDirectory, ?_⟩
    rw [htree]
    exact FileTree.keeps_plant rfl hplanned.above hafter.target fun hnot =>
      absurd (hchanged _ (locate_of_after hplan hafter)) hnot

/-- A write keeps everything but the place to which its path leads. -/
theorem keeps_write (path : String) (text : List Char)
    (hchanged : ∀ made : Disk, made.workingDirectory = disk.workingDirectory →
      ∀ place, made.locate (String.ofList (Path.tidy path.toList)) = .ok place → place ∈ changed) :
    Ends (write path text) disk (fun _ after => Keeps changed disk after)
      (fun _ after => Keeps changed disk after) := by
  unfold write
  generalize String.ofList (Path.tidy path.toList) = tidied at hchanged ⊢
  have hmono : ∀ {made}, Keeps ∅ disk made → Keeps changed disk made := fun hmade =>
    ⟨hmade.workingDirectory, hmade.tree.mono (Set.empty_subset _)⟩
  refine ((keeps_makeDirectories _ disk).mono (fun _ _ hmade => hmade) (fun _ _ => hmono)).bind
    fun _ made hmade => .get_bind ?_
  dsimp only
  split
  · exact .of_eq_error rfl (hmono hmade)
  · rename_i plan hplan
    have hlast : Keeps changed disk (plan.run made).last :=
      (hmono hmade).trans (keeps_run hplan (hchanged made hmade.workingDirectory))
    cases (plan.run made).ending with
    | completed => exact .of_eq_ok rfl hlast
    | failed => exact .of_eq_error rfl hlast
    | refused cause => exact .of_eq_ok rfl hlast
    | halted => exact .of_eq_ok rfl hlast

end Disk
end ChangeImpact
