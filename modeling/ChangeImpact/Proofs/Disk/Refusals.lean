import ChangeImpact.Proofs.Disk.Writing

/-!
# Writes that are refused

A write on a disk that refuses calls first makes the directories above its path.  If that fails, the write fails with
it.  From there on everything that the disk refuses is answered with false (`DiskConduct.write_ends`), and the path
holds what it held; only a path with a null character fails otherwise, at the last step.
-/

namespace ChangeImpact

namespace Disk

/-- A path leads to a place in a directory, where there is no directory. -/
def TakesFile (disk : Disk) (path : String) : Prop :=
  ∃ place, disk.locate path = .ok place ∧ disk.tree.hasDirectory place = false

end Disk

namespace DiskConduct

variable {conduct : DiskConduct} {disk after made : Disk} {path : String} {text : List Char}
  {pieces : List (List UInt8)} {plan : AtomicWrite}

/-- The disk refuses a step of a write of some pieces to a path. -/
def RefusesStep (conduct : DiskConduct) (path : String) (pieces : List (List UInt8)) : Prop :=
  ∃ number < stepCalls path pieces, conduct.refusal? (.step number) ≠ none

/-! ## The steps -/

theorem stepCalls_le (plan : AtomicWrite) : stepCalls plan.path plan.pieces ≤ plan.steps.length := by
  have hsteps : plan.steps.length = plan.pieces.length + 3 := by simp [AtomicWrite.steps]
  rw [hsteps, stepCalls]
  split
  · omega
  · omega

variable (conduct) in
theorem run_ending (hplan : disk.atomicWrite path pieces = .ok plan)
    (hdirectory : disk.tree.hasDirectory plan.temporary.dropLast = true) :
    (conduct.RefusesStep path pieces → ∃ cause, (conduct.run plan disk).ending = .refused cause) ∧
      (¬ conduct.RefusesStep path pieces → (conduct.run plan disk).ending = plan.lastEnding disk) := by
  obtain ⟨hpath, hpieces, hplanned, -⟩ := Disk.exists_of_atomicWrite hplan
  subst hpath hpieces
  constructor
  · rintro ⟨number, hnumber, hrefused⟩
    refine AtomicWrite.Progress.start.refused hplanned hdirectory (fun n => ?_)
      (AtomicWrite.onlyRefused_map _) (hnumber.trans_le (stepCalls_le plan)) ?_
    · split
      · exact AtomicWrite.onlyRefused_map _
      · exact AtomicWrite.onlyRefused_none
    · simpa [hnumber] using hrefused
  · intro hnone
    refine AtomicWrite.Progress.start.undisturbed hplanned hdirectory (fun n => ?_)
      fun _ => AtomicWrite.onlyRefused_map _
    by_contra hrefused
    split at hrefused
    · rename_i hn
      exact hnone ⟨n, hn, by simpa using hrefused⟩
    · exact hrefused rfl

variable (conduct) in
/-- A path holds what has been written if the write is completed, and what it held otherwise. -/
theorem held?_run (hplan : disk.atomicWrite path pieces = .ok plan) :
    (conduct.run plan disk).last.held? path =
      if (conduct.run plan disk).ending = .completed then some pieces.flatten else disk.held? path := by
  have hwhole : plan.Whole disk _ plan.steps (conduct.run plan disk) := Disk.whole_run hplan _ _
  by_cases hlength : (conduct.run plan disk).passed.length = plan.steps.length
  · have hending : (conduct.run plan disk).ending = .completed :=
      AtomicWrite.runSteps_ending (if_neg (stepCalls_le plan).not_gt) hlength
    rw [if_pos hending]
    exact Disk.held?_of_after hplan (hwhole.after hlength)
  · rw [if_neg fun hending => hlength (hwhole.completed hending)]
    exact Disk.held?_of_before hplan (hwhole.before hlength)

/-- Where the write comes to its last step, the file is put where the path leads to, if it can be put there. -/
theorem lastEnding_cases (hplan : disk.atomicWrite path pieces = .ok plan)
    (hdirectory : disk.tree.hasDirectory plan.temporary.dropLast = true) :
    ('\x00' ∈ path.toList ∧ plan.lastEnding disk = .failed) ∨
      ('\x00' ∉ path.toList ∧ disk.TakesFile path ∧ plan.lastEnding disk = .completed) ∨
      ('\x00' ∉ path.toList ∧ ¬ disk.TakesFile path ∧ plan.lastEnding disk = .refused .isDirectory) := by
  obtain ⟨hpath, -, -, htarget⟩ := Disk.exists_of_atomicWrite hplan
  rw [AtomicWrite.lastEnding, hpath]
  by_cases hnull : '\x00' ∈ path.toList
  · exact .inl ⟨hnull, if_pos hnull⟩
  · rw [if_neg hnull]
    cases hplace : disk.locate path with
    | error fault =>
        -- the target is then the directory of the temporary file, which no file can replace
        have hnowhere : ¬ disk.TakesFile path := by
          rintro ⟨place, hfound, -⟩
          rw [hplace] at hfound
          cases hfound
        have hthere : disk.tree.hasDirectory plan.target = true := by
          rw [htarget, hplace]
          exact hdirectory
        exact .inr (.inr ⟨hnull, hnowhere, if_pos hthere⟩)
    | ok place =>
        obtain rfl : plan.target = place := by
          rw [htarget, hplace]
          rfl
        by_cases hthere : disk.tree.hasDirectory plan.target = true
        · refine .inr (.inr ⟨hnull, ?_, if_pos hthere⟩)
          rintro ⟨place, hfound, hfree⟩
          rw [hplace] at hfound
          cases hfound
          rw [hthere] at hfree
          cases hfree
        · exact .inr (.inl ⟨hnull, ⟨plan.target, hplace, Bool.not_eq_true _ ▸ hthere⟩, if_neg hthere⟩)

/-! ## Writing to a path -/

variable (conduct) in
theorem makeDirectories_parent (path : String) (disk : Disk) :
    Ends (conduct.makeDirectories (String.ofList (Path.parent path.toList))) disk
      (fun _ made => Disk.SameFiles disk made ∧ made.isDirectory (String.ofList (Path.parent path.toList)) = true)
      fun _ made => Disk.SameFiles disk made := by
  have hends := makeDirectories_ends conduct Disk.keptByMaking_sameFiles
    (String.ofList (Path.parent path.toList)) disk
  rwa [String.toList_ofList, Path.tidy_parent] at hends

/-- A write whose directories cannot be made fails with the fault that arises there. -/
theorem write_of_error {fault : DiskFault} (hmade : conduct.makeDirectories
      (String.ofList (Path.parent (String.ofList (Path.tidy path.toList)).toList)) disk = .error fault made) :
    conduct.write path text disk = .error fault made := by
  unfold write
  simp only [bind, EStateM.bind, hmade]

/-- From the directories on everything that is refused is answered with false, and the path holds what it held. -/
theorem write_ends (text : List Char) (hmade : conduct.makeDirectories
      (String.ofList (Path.parent (String.ofList (Path.tidy path.toList)).toList)) disk = .ok () made) :
    let tidied := String.ofList (Path.tidy path.toList)
    let refused := conduct.RefusesStep tidied (conduct.pieces (Text.Utf8.encode text))
    Ends (conduct.write path text) disk
      (fun answer after => (answer = true ↔ ¬ refused ∧ made.TakesFile tidied) ∧
        after.held? tidied = if answer then some (Text.Utf8.encode text) else made.held? tidied)
      fun fault after => fault = .nullCharacter ∧ ¬ refused ∧ '\x00' ∈ tidied.toList ∧
        after.held? tidied = made.held? tidied := by
  intro tidied refused
  have hdirectory := ((makeDirectories_parent conduct tidied disk).of_ok hmade).2
  obtain ⟨plan, hplan, hthere⟩ :=
    Disk.exists_atomicWrite_of_isDirectory (conduct.pieces (Text.Utf8.encode text)) hdirectory
  obtain ⟨hrefused, hquiet⟩ := run_ending conduct hplan hthere
  have hheld := held?_run conduct hplan
  rw [conduct.flatten_pieces] at hheld
  unfold write
  refine .of_eq (bind_of_eq_ok hmade) (.get_bind ?_)
  dsimp only
  rw [hplan]
  dsimp only
  generalize conduct.run plan made = run at hrefused hquiet hheld ⊢
  -- a refused step decides how the write ends, and without one the last step does
  by_cases hstep : refused
  · obtain ⟨cause, hending⟩ := hrefused hstep
    rw [hending] at hheld ⊢
    exact .of_eq_ok rfl ⟨iff_of_false Bool.false_ne_true fun h => h.1 hstep, hheld⟩
  · have hlast := lastEnding_cases hplan hthere
    rw [← hquiet hstep] at hlast
    rcases hlast with ⟨hnull, hending⟩ | ⟨-, htakes, hending⟩ | ⟨-, htakes, hending⟩
    · rw [hending] at hheld ⊢
      exact .of_eq_error rfl ⟨rfl, hstep, hnull, hheld⟩
    · rw [hending] at hheld ⊢
      exact .of_eq_ok rfl ⟨iff_of_true rfl ⟨hstep, htakes⟩, hheld⟩
    · rw [hending] at hheld ⊢
      exact .of_eq_ok rfl ⟨iff_of_false Bool.false_ne_true fun h => htakes h.2, hheld⟩

/-! ## A disk that refuses nothing -/

theorem run_willing (plan : AtomicWrite) (disk : Disk) : willing.run plan disk = plan.run disk := by
  refine congrArg (plan.run disk · none) (funext fun number => ?_)
  split
  · rfl
  · rfl

/-- On a disk that refuses nothing the write is the one of `Disk.write`. -/
theorem write_willing (path : String) (text : List Char) : willing.write path text = Disk.write path text := by
  unfold write Disk.write
  dsimp only
  rw [makeDirectories_willing]
  refine bind_congr fun _ => bind_congr fun disk => ?_
  rw [show willing.pieces (Text.Utf8.encode text) = [Text.Utf8.encode text] from rfl]
  cases disk.atomicWrite (String.ofList (Path.tidy path.toList)) [Text.Utf8.encode text] with
  | error fault => rfl
  | ok plan =>
      dsimp only
      rewrite [run_willing]
      cases (plan.run disk).ending with
      | completed => rfl
      | refused cause => rfl
      | failed => rfl
      | halted => rfl

end DiskConduct
end ChangeImpact
