import ChangeImpact.Reader

/-!
# Readers of disks

A reader answers two questions about a file: what its text is, and when it was changed.  On a disk the
two answers belong together (`Reader.timely_ofDisk`).  They are not protected in the same way: the text of
a file may be refused for many reasons, and each of them is an outcome of the read, but to the question
for the time a disk answers something else than a time or nothing only where the full path has a null
character in it (`Reader.changed_ofDisk_eq_error_iff`).
-/

namespace ChangeImpact

instance decidableEqExcept {ε α : Type} [DecidableEq ε] [DecidableEq α] : DecidableEq (Except ε α)
  | .error first, .error second => decidable_of_iff (first = second) (Except.error.injEq ..).to_iff.symm
  | .ok first, .ok second => decidable_of_iff (first = second) (Except.ok.injEq ..).to_iff.symm
  | .error _, .ok _ => .isFalse nofun
  | .ok _, .error _ => .isFalse nofun

deriving instance DecidableEq for FileRead

variable {disk : Disk} {directory path : String}

namespace Disk

theorem locate_eq_nullCharacter_iff (disk : Disk) (path : String) :
    disk.locate path = .error .nullCharacter ↔ '\x00' ∈ path.toList := by
  unfold Disk.locate
  by_cases hnull : '\x00' ∈ path.toList
  · simp [hnull]
  · simp only [List.contains_iff_mem, hnull, if_false, iff_false]
    split
    · exact nofun
    · split
      · exact nofun
      · exact nofun

theorem changed_eq_nullCharacter_iff (disk : Disk) (path : String) :
    disk.changed path = .error .nullCharacter ↔ '\x00' ∈ path.toList := by
  rw [← locate_eq_nullCharacter_iff disk]
  unfold Disk.changed Disk.find
  cases hlocate : disk.locate path with
  | error fault => simp [Bind.bind, Except.bind]
  | ok place =>
      refine iff_of_false (fun h => ?_) nofun
      cases hfound : disk.tree.at? place with
      | none => simp [Bind.bind, Except.bind, hfound, throw, throwThe, MonadExceptOf.throw] at h
      | some found =>
          cases found with
          | file bytes time => simp [Bind.bind, Except.bind, hfound, pure, Except.pure] at h
          | directory entries => simp [Bind.bind, Except.bind, hfound, pure, Except.pure] at h

end Disk

namespace Reader

theorem read_ofTable {contents : Table String} {content : String}
    (h : contents.get? path = some content) :
    (ofTable contents).read path = { content := .ok content } := by
  simp only [ofTable, h]

/-- A text that is read comes with the time of its file, and where none is read there is no time. -/
def Timely (reader : Reader) : Prop :=
  ∀ path, match (reader.read path).content with
    | .ok _ => ∃ time, (reader.read path).changed = some time ∧
        reader.changed path = .ok (some time)
    | .error _ => (reader.read path).changed = none

theorem exists_changed_of_diskText {text : List Char} (h : diskText disk path = .ok text) :
    ∃ time, disk.changed path = .ok time := by
  unfold diskText Disk.bytes at h
  cases hfind : disk.find path with
  | error fault =>
      rw [hfind] at h
      cases h
  | ok found =>
      cases found with
      | file bytes time =>
          refine ⟨time, ?_⟩
          rw [Disk.changed, hfind]
          rfl
      | directory entries =>
          rw [hfind] at h
          cases h

theorem timely_ofDisk (disk : Disk) (directory : String) : Timely (.ofDisk disk directory) := by
  intro path
  unfold ofDisk
  dsimp only
  cases htext : diskText disk (fullPath directory path) with
  | error fault => rfl
  | ok text =>
      obtain ⟨time, htime⟩ := exists_changed_of_diskText htext
      refine ⟨time, ?_, ?_⟩
      · rw [htime]
        rfl
      · rw [htime]

/-- A disk refuses to tell a time only if the path holds a null character. -/
theorem changed_ofDisk_eq_error_iff {cause : DiskFault} :
    (ofDisk disk directory).changed path = .error cause ↔
      cause = .nullCharacter ∧ '\x00' ∈ (fullPath directory path).toList := by
  rw [← Disk.changed_eq_nullCharacter_iff disk]
  unfold ofDisk
  dsimp only
  cases disk.changed (fullPath directory path) with
  | ok time => simp
  | error fault =>
      cases fault with
      | refused cause path => simp
      | nullCharacter => simp [eq_comm]

theorem exists_changed_ofDisk (hclean : '\x00' ∉ (fullPath directory path).toList) :
    ∃ time, (ofDisk disk directory).changed path = .ok time := by
  cases htime : (ofDisk disk directory).changed path with
  | ok time => exact ⟨time, rfl⟩
  | error cause => exact absurd (changed_ofDisk_eq_error_iff.mp htime).2 hclean

end Reader
end ChangeImpact
