import ChangeImpact.Disk.AtomicWrite
import ChangeImpact.Proofs.Disk.Following
import Mathlib.Data.List.Nodup
import Mathlib.Data.List.Perm.Subperm

/-!
# Atomic writes are never seen half done

Whoever looks at the path of an atomic write finds what was there before, or all that was to be written, whatever
goes wrong on the way and wherever it does (`Disk.whole_at_every_moment`).

* A disk on the way is the one at the start with a file put at one place, or the same (`AtomicWrite.Before`,
  `AtomicWrite.After`).  Up to the last step this is the place of the temporary file, afterwards it is the target.
* Which of them it is, and which bytes the file there has, depends on the steps that are still to be done
  (`AtomicWrite.Progress`).  Every step that is done keeps this, and a run is a list of such steps that may end
  anywhere (`AtomicWrite.Progress.whole`).
* What is seen on such a disk differs at this place only (`Disk.ShowsAt`), so any other path leads to what it led to.
* The temporary file has to be a new file, and another one than the target; this is why its name is fresh
  (`Disk.freshName_not_mem`).
-/

namespace ChangeImpact

open FileTree (Sight)

/-! ## Disks that differ in one place -/

namespace Disk

variable {before state : Disk} {place : List String} {seen : Option Sight} {bytes : List UInt8}

/-- On a disk the same is seen as on the one before, but at one place. -/
structure ShowsAt (before : Disk) (place : List String) (seen : Option Sight) (state : Disk) : Prop where
  workingDirectory : state.workingDirectory = before.workingDirectory
  sight? : state.tree.sight? = Function.update before.tree.sight? place seen

theorem ShowsAt.here (h : ShowsAt before place seen state) : state.tree.sight? place = seen := by
  rw [h.sight?, Function.update_self]

theorem ShowsAt.of_ne (h : ShowsAt before place seen state) {other : List String} (hother : other ≠ place) :
    state.tree.sight? other = before.tree.sight? other := by
  rw [h.sight?, Function.update_of_ne hother]

theorem ShowsAt.locate_iff {path : String} {found : List String} (h : ShowsAt before place seen state)
    (hbefore : before.tree.sight? place ≠ some .directory) (hseen : seen ≠ some .directory) :
    state.locate path = .ok found ↔ before.locate path = .ok found := by
  refine Disk.locate_iff (fun other => ?_) h.workingDirectory
  by_cases hother : other = place
  · rw [hother, h.here]
    exact iff_of_false hseen hbefore
  · rw [h.of_ne hother]

/-- A path to another place leads to the same file. -/
theorem ShowsAt.held?_eq {path : String} (h : ShowsAt before place seen state)
    (hbefore : before.tree.sight? place ≠ some .directory) (hseen : seen ≠ some .directory)
    (hpath : before.locate path ≠ .ok place) : state.held? path = before.held? path := by
  refine Option.ext fun bytes => ?_
  rw [held?_eq_some_iff, held?_eq_some_iff]
  refine exists_congr fun found => ?_
  rw [h.locate_iff hbefore hseen]
  refine and_congr_right fun hfound => ?_
  rw [h.of_ne fun heq => hpath (heq ▸ hfound)]

/-- Nothing has changed but that a file with the given bytes has been put at a place. -/
structure Planted (before : Disk) (place : List String) (bytes : List UInt8) (state : Disk) : Prop where
  workingDirectory : state.workingDirectory = before.workingDirectory
  tree : ∃ time, state.tree = before.tree.plant place (.file bytes time)

theorem Planted.at? (h : Planted before place bytes state) :
    ∃ time, state.tree.at? place = some (.file bytes time) := by
  obtain ⟨time, htree⟩ := h.tree
  exact ⟨time, by rw [htree, FileTree.at?_plant]⟩

/-- A file that is put there again takes the place of the first one. -/
theorem Planted.putFile (h : Planted before place bytes state) (others : List UInt8) :
    Planted before place others (state.putFile place others) := by
  obtain ⟨time, htree⟩ := h.tree
  refine ⟨h.workingDirectory, state.clock, ?_⟩
  rw [Disk.putFile, htree, FileTree.plant_plant]

theorem Planted.showsAt (h : Planted before place bytes state)
    (habove : before.tree.sight? place.dropLast = some .directory)
    (hplace : before.tree.sight? place ≠ some .directory) : ShowsAt before place (some (.file bytes)) state := by
  obtain ⟨time, htree⟩ := h.tree
  exact ⟨h.workingDirectory, by rw [htree]; exact FileTree.sight?_plant rfl habove hplace⟩

end Disk

namespace AtomicWrite

open Disk (ShowsAt Planted)

variable {write : AtomicWrite} {disk state next : Disk} {bytes : List UInt8} {rest : List WriteStep}
  {step : WriteStep}

/-! ## Before and after the target is replaced -/

/-- A write is planned for a disk: the temporary file has a free name and is not the target, and the target stands
in a directory. -/
structure Planned (write : AtomicWrite) (disk : Disk) : Prop where
  fresh : ∃ directory name, write.temporary = directory ++ [name] ∧ disk.tree.Free directory name
  apart : write.temporary ≠ write.target
  above : disk.tree.sight? write.target.dropLast = some .directory

/-- The temporary file stands in its directory. -/
structure Pending (write : AtomicWrite) (disk : Disk) (bytes : List UInt8) (state : Disk) : Prop where
  planted : Planted disk write.temporary bytes state
  directory : disk.tree.hasDirectory write.temporary.dropLast = true

/-- Nothing has changed, or there is the temporary file. -/
def Before (write : AtomicWrite) (disk state : Disk) : Prop :=
  (state.workingDirectory = disk.workingDirectory ∧ state.tree = disk.tree) ∨ ∃ bytes, write.Pending disk bytes state

/-- The target has been replaced, and nothing else has changed.  The target was no directory, but there is one for
the temporary file. -/
structure After (write : AtomicWrite) (disk state : Disk) : Prop where
  planted : Planted disk write.target write.pieces.flatten state
  target : disk.tree.sight? write.target ≠ some .directory
  directory : disk.tree.hasDirectory write.temporary.dropLast = true

theorem Planned.sight?_temporary (hplan : write.Planned disk) : disk.tree.sight? write.temporary = none := by
  obtain ⟨directory, name, htemporary, hfree⟩ := hplan.fresh
  rw [htemporary]
  exact FileTree.sight?_of_free hfree

theorem Pending.showsAt (hplan : write.Planned disk) (h : write.Pending disk bytes state) :
    ShowsAt disk write.temporary (some (.file bytes)) state :=
  h.planted.showsAt (FileTree.sight?_eq_directory.mpr h.directory) (by simp [hplan.sight?_temporary])

theorem After.showsAt (hplan : write.Planned disk) (h : write.After disk state) :
    ShowsAt disk write.target (some (.file write.pieces.flatten)) state :=
  h.planted.showsAt hplan.above h.target

/-- The temporary file is seen at most. -/
theorem Before.exists_showsAt (hplan : write.Planned disk) (h : write.Before disk state) :
    ∃ seen, seen ≠ some .directory ∧ ShowsAt disk write.temporary seen state := by
  rcases h with ⟨hworking, htree⟩ | ⟨bytes, hpending⟩
  · refine ⟨none, by simp, hworking, ?_⟩
    rw [htree, ← hplan.sight?_temporary, Function.update_eq_self]
  · exact ⟨_, by simp, hpending.showsAt hplan⟩

/-- Without the temporary file everything is as it was before. -/
theorem Pending.uproot (hplan : write.Planned disk) (h : write.Pending disk bytes state) :
    state.tree.uproot write.temporary = disk.tree := by
  obtain ⟨directory, name, htemporary, hfree⟩ := hplan.fresh
  obtain ⟨time, htree⟩ := h.planted.tree
  have hdirectory := h.directory
  rw [htemporary, List.dropLast_concat] at hdirectory
  rw [htree, htemporary, FileTree.uproot_plant hdirectory hfree]

/-! ## Steps -/

/-- How far a write has come, by the steps that are still to be done. -/
inductive Progress (write : AtomicWrite) (disk : Disk) : List WriteStep → Disk → Prop where
  | start : Progress write disk write.steps disk
  | written (bytes : List UInt8) (pieces : List (List UInt8)) {state : Disk}
      (hpieces : bytes ++ pieces.flatten = write.pieces.flatten) (hstate : write.Pending disk bytes state) :
      Progress write disk (pieces.map .append ++ [.synchronize, .replaceTarget]) state
  | synchronized {state : Disk} (hstate : write.Pending disk write.pieces.flatten state) :
      Progress write disk [.replaceTarget] state
  | replaced {state : Disk} (hstate : write.After disk state) : Progress write disk [] state

/-- The step that is due, the steps after it, and how far the write has come before it. -/
inductive Due (write : AtomicWrite) (disk : Disk) : WriteStep → List WriteStep → Disk → Prop where
  | create : Due write disk .createTemporary (write.pieces.map .append ++ [.synchronize, .replaceTarget]) disk
  | append (bytes piece : List UInt8) (pieces : List (List UInt8)) {state : Disk}
      (hpieces : bytes ++ (piece :: pieces).flatten = write.pieces.flatten) (hstate : write.Pending disk bytes state) :
      Due write disk (.append piece) (pieces.map .append ++ [.synchronize, .replaceTarget]) state
  | synchronize {state : Disk} (hstate : write.Pending disk write.pieces.flatten state) :
      Due write disk .synchronize [.replaceTarget] state
  | replace {state : Disk} (hstate : write.Pending disk write.pieces.flatten state) :
      Due write disk .replaceTarget [] state

theorem Progress.due (h : write.Progress disk (step :: rest) state) : write.Due disk step rest state := by
  generalize hsteps : step :: rest = steps at h
  cases h with
  | start =>
      cases hsteps
      exact .create
  | written bytes pieces hpieces hstate =>
      cases pieces with
      | nil =>
          cases hsteps
          rw [List.flatten_nil, List.append_nil] at hpieces
          exact .synchronize (hpieces ▸ hstate)
      | cons piece pieces =>
          cases hsteps
          exact .append bytes piece pieces hpieces hstate
  | synchronized hstate =>
      cases hsteps
      exact .replace hstate
  | replaced hstate => cases hsteps

theorem Progress.before (h : write.Progress disk (step :: rest) state) : write.Before disk state := by
  cases h.due with
  | create => exact .inl ⟨rfl, rfl⟩
  | append bytes piece pieces hpieces hstate => exact .inr ⟨_, hstate⟩
  | synchronize hstate => exact .inr ⟨_, hstate⟩
  | replace hstate => exact .inr ⟨_, hstate⟩

theorem Progress.after (h : write.Progress disk [] state) : write.After disk state := by
  generalize hsteps : [] = steps at h
  cases h with
  | start => cases hsteps
  | written bytes pieces hpieces hstate => simp at hsteps
  | synchronized hstate => cases hsteps
  | replaced hstate => exact hstate

/-- The target is replaced in the last step. -/
theorem Progress.eq_nil_iff (h : write.Progress disk (step :: rest) state) :
    rest = [] ↔ step = .replaceTarget := by
  cases h.due with
  | create => simp
  | append bytes piece pieces hpieces hstate => simp
  | synchronize hstate => simp
  | replace hstate => simp

theorem create_of_perform (h : write.perform disk .createTemporary = .ok next) : write.Pending disk [] next := by
  rw [perform] at h
  split at h
  · rename_i hdirectory
    cases h
    exact ⟨⟨rfl, _, rfl⟩, hdirectory⟩
  · cases h

theorem append_of_perform {piece : List UInt8} (hstate : write.Pending disk bytes state)
    (h : write.perform state (.append piece) = .ok next) : write.Pending disk (bytes ++ piece) next := by
  obtain ⟨time, htime⟩ := hstate.planted.at?
  rw [perform, htime] at h
  cases h
  exact ⟨hstate.planted.putFile _, hstate.directory⟩

theorem replace_of_perform (hplan : write.Planned disk) (hstate : write.Pending disk write.pieces.flatten state)
    (h : write.perform state .replaceTarget = .ok next) : write.After disk next := by
  obtain ⟨time, htime⟩ := hstate.planted.at?
  rw [perform, htime] at h
  dsimp only at h
  split at h
  · cases h
  · split at h
    · cases h
    · rename_i htarget
      cases h
      rw [← FileTree.sight?_eq_directory, (hstate.showsAt hplan).of_ne hplan.apart.symm] at htarget
      refine ⟨⟨hstate.planted.workingDirectory, time, ?_⟩, htarget, hstate.directory⟩
      rw [hstate.uproot hplan]

/-- A step that is done is progress. -/
theorem Progress.performed (hplan : write.Planned disk) (h : write.Progress disk (step :: rest) state)
    (hstep : write.perform state step = .ok next) : write.Progress disk rest next := by
  cases h.due with
  | create => exact .written [] write.pieces rfl (create_of_perform hstep)
  | append bytes piece pieces hpieces hstate =>
      refine .written (bytes ++ piece) pieces ?_ (append_of_perform hstate hstep)
      rw [List.append_assoc, ← List.flatten_cons, hpieces]
  | synchronize hstate =>
      cases hstep
      exact .synchronized hstate
  | replace hstate => exact .replaced (replace_of_perform hplan hstate hstep)

/-- Right after a step the target has been replaced if that was the step, and otherwise it has not. -/
theorem Progress.stage (h : write.Progress disk (step :: rest) state) (hnext : write.Progress disk rest next) :
    if step = .replaceTarget then write.After disk next else write.Before disk next := by
  have hlast := h.eq_nil_iff
  cases rest with
  | nil =>
      rw [if_pos (hlast.mp rfl)]
      exact hnext.after
  | cons second others =>
      rw [if_neg fun hstep => List.cons_ne_nil _ _ (hlast.mpr hstep)]
      exact hnext.before

/-! ## Cleaning up -/

theorem After.vacant (hplan : write.Planned disk) (h : write.After disk state) :
    state.tree.at? write.temporary = none := by
  rw [← FileTree.sight?_eq_none, (h.showsAt hplan).of_ne hplan.apart, hplan.sight?_temporary]

/-- Cleaning up changes nothing but the temporary file, which is gone unless something happens. -/
theorem Before.cleanUp (cleaning : Option Incident) (ending : WriteEnd) (hplan : write.Planned disk)
    (h : write.Before disk state) :
    write.Before disk (write.cleanUp cleaning state ending).last ∧
      (cleaning = none → (write.cleanUp cleaning state ending).last.tree = disk.tree) := by
  unfold AtomicWrite.cleanUp
  split
  · rename_i hthere
    cases cleaning with
    | none =>
        rcases h with ⟨-, htree⟩ | ⟨bytes, hpending⟩
        · rw [htree, FileTree.sight?_eq_none.mp hplan.sight?_temporary] at hthere
          cases hthere
        · have htree := hpending.uproot hplan
          exact ⟨.inl ⟨hpending.planted.workingDirectory, htree⟩, fun _ => htree⟩
    | some happened =>
        cases happened with
        | refusal cause => exact ⟨h, nofun⟩
        | failure => exact ⟨h, nofun⟩
        | halt => exact ⟨h, nofun⟩
  · rename_i hthere
    refine ⟨h, fun _ => ?_⟩
    rcases h with ⟨-, htree⟩ | ⟨bytes, hpending⟩
    · exact htree
    · obtain ⟨time, htime⟩ := hpending.planted.at?
      rw [htime] at hthere
      exact absurd rfl hthere

/-- Once the target has been replaced there is nothing to clean up. -/
theorem After.cleanUp (cleaning : Option Incident) (ending : WriteEnd) (hplan : write.Planned disk)
    (h : write.After disk state) : write.cleanUp cleaning state ending = ⟨[], state, ending⟩ := by
  unfold AtomicWrite.cleanUp
  rw [h.vacant hplan]
  rfl

theorem cleanUp_passed (cleaning : Option Incident) (state : Disk) (ending : WriteEnd) :
    (write.cleanUp cleaning state ending).passed = [] := by
  unfold AtomicWrite.cleanUp
  split
  · split
    · rfl
    · rfl
    · rfl
    · rfl
  · rfl

theorem cleanUp_ending {cleaning : Option Incident} {ending : WriteEnd} (hending : ending ≠ .completed) :
    (write.cleanUp cleaning state ending).ending ≠ .completed := by
  unfold AtomicWrite.cleanUp
  split
  · split
    · exact hending
    · exact hending
    · simp
    · simp
  · exact hending

/-! ## Runs -/

/-- What is true of a run of the steps that are still to be done: the target is replaced in the step that does
this and not before, all steps have been done in a run that is completed, and one that is not leaves everything as
it was unless the writer has stopped or could not clean up. -/
structure Whole (write : AtomicWrite) (disk : Disk) (cleaning : Option Incident) (rest : List WriteStep)
    (run : WriteRun) : Prop where
  length_le : run.passed.length ≤ rest.length
  passed : ∀ step state, (step, state) ∈ rest.zip run.passed →
    if step = .replaceTarget then write.After disk state else write.Before disk state
  after : run.passed.length = rest.length → write.After disk run.last
  before : run.passed.length ≠ rest.length → write.Before disk run.last
  completed : run.ending = .completed → run.passed.length = rest.length
  clean : run.ending ≠ .halted → cleaning = none → run.passed.length ≠ rest.length → run.last.tree = disk.tree

variable {cleaning : Option Incident}

/-- A run that ends before its next step. -/
theorem whole_of_nil {run : WriteRun} (hpassed : run.passed = []) (hafter : rest = [] → write.After disk run.last)
    (hbefore : rest ≠ [] → write.Before disk run.last) (hending : run.ending = .completed → rest = [])
    (hclean : run.ending ≠ .halted → cleaning = none → rest ≠ [] → run.last.tree = disk.tree) :
    write.Whole disk cleaning rest run where
  length_le := hpassed ▸ Nat.zero_le _
  passed step state hmem := by
    rw [hpassed, List.zip_nil_right] at hmem
    cases hmem
  after hlength := by
    rw [hpassed, List.length_nil] at hlength
    exact hafter (List.length_eq_zero_iff.mp hlength.symm)
  before hlength := hbefore fun hnil => hlength (by rw [hpassed, hnil]; rfl)
  completed hcompleted := by rw [hpassed, hending hcompleted]; rfl
  clean hending hcleaning hlength :=
    hclean hending hcleaning fun hnil => hlength (by rw [hpassed, hnil]; rfl)

theorem Progress.whole_cleanUp {ending : WriteEnd} (hplan : write.Planned disk)
    (h : write.Progress disk rest state) (hending : ending ≠ .completed) :
    write.Whole disk cleaning rest (write.cleanUp cleaning state ending) := by
  cases rest with
  | nil =>
      have hafter := h.after
      rw [hafter.cleanUp cleaning ending hplan]
      exact whole_of_nil rfl (fun _ => hafter) (fun hne => absurd rfl hne) (fun _ => rfl)
        fun _ _ hne => absurd rfl hne
  | cons step rest =>
      obtain ⟨hbefore, hclean⟩ := h.before.cleanUp cleaning ending hplan
      exact whole_of_nil (cleanUp_passed _ _ _) (fun hnil => absurd hnil (List.cons_ne_nil _ _))
        (fun _ => hbefore) (fun hcompleted => absurd hcompleted (cleanUp_ending hending))
        fun _ hcleaning _ => hclean hcleaning

theorem Progress.whole_stop (hplan : write.Planned disk) (h : write.Progress disk rest state)
    (happened : Incident) : write.Whole disk cleaning rest (write.stop cleaning state happened) := by
  cases happened with
  | refusal cause => exact h.whole_cleanUp hplan (by simp)
  | failure => exact h.whole_cleanUp hplan (by simp)
  | halt =>
      refine whole_of_nil rfl ?_ ?_ (by simp [stop]) (by simp [stop])
      · rintro rfl
        exact h.after
      · intro hrest
        obtain ⟨step, others, rfl⟩ := List.exists_cons_of_ne_nil hrest
        exact h.before

/-- A run that goes on after a step. -/
theorem Whole.cons {run : WriteRun} (h : write.Whole disk cleaning rest run)
    (hstage : if step = .replaceTarget then write.After disk next else write.Before disk next) :
    write.Whole disk cleaning (step :: rest) { run with passed := next :: run.passed } where
  length_le := Nat.succ_le_succ h.length_le
  passed other state hmem := by
    rw [List.zip_cons_cons, List.mem_cons] at hmem
    rcases hmem with heq | hmem
    · cases heq
      exact hstage
    · exact h.passed other state hmem
  after hlength := h.after (Nat.succ_inj.mp hlength)
  before hlength := h.before fun hsame => hlength (congrArg Nat.succ hsame)
  completed hcompleted := congrArg Nat.succ (h.completed hcompleted)
  clean hending hcleaning hlength := h.clean hending hcleaning fun hsame => hlength (congrArg Nat.succ hsame)

/-- A run of the steps that are still to be done, wherever it ends. -/
theorem Progress.whole (hplan : write.Planned disk) (h : write.Progress disk rest state)
    (incident : Nat → Option Incident) :
    write.Whole disk cleaning rest (write.runSteps cleaning incident rest state) := by
  induction rest generalizing state incident with
  | nil =>
      rw [runSteps]
      split
      · exact h.whole_stop hplan _
      · exact whole_of_nil rfl (fun _ => h.after) (fun hne => absurd rfl hne) (fun _ => rfl)
          fun _ _ hne => absurd rfl hne
  | cons step rest ih =>
      rw [runSteps]
      split
      · exact h.whole_stop hplan _
      · exact h.whole_stop hplan _
      · rename_i next hincident hstep
        have hnext := h.performed hplan hstep
        exact (ih hnext fun n => incident (n + 1)).cons (h.stage hnext)

/-- Up to the last step there is a next one that can be done. -/
theorem Progress.exists_performed (hplan : write.Planned disk)
    (hdirectory : disk.tree.hasDirectory write.temporary.dropLast = true)
    (h : write.Progress disk (step :: rest) state) (hstep : step ≠ .replaceTarget) :
    ∃ next, write.perform state step = .ok next ∧ write.Progress disk rest next := by
  suffices hnext : ∃ next, write.perform state step = .ok next by
    obtain ⟨next, hnext⟩ := hnext
    exact ⟨next, hnext, h.performed hplan hnext⟩
  cases h.due with
  | create => exact ⟨_, by rw [perform, if_pos hdirectory]⟩
  | append bytes piece pieces hpieces hstate =>
      obtain ⟨time, htime⟩ := hstate.planted.at?
      exact ⟨_, by rw [perform, htime]⟩
  | synchronize hstate => exact ⟨_, rfl⟩
  | replace hstate => exact absurd rfl hstep

/-- How a write ends that comes to its last step with nothing in the place of it. -/
def lastEnding (write : AtomicWrite) (disk : Disk) : WriteEnd :=
  if '\x00' ∈ write.path.toList then .failed
  else if disk.tree.hasDirectory write.target then .refused .isDirectory
  else .completed

/-- The last step can be done unless the target is a directory or its path has a null character. -/
theorem Progress.perform_replace (hplan : write.Planned disk)
    (h : write.Progress disk (.replaceTarget :: rest) state) :
    match write.lastEnding disk with
    | .completed => ∃ next, write.perform state .replaceTarget = .ok next
    | .refused cause => write.perform state .replaceTarget = .error (.refusal cause)
    | .failed => write.perform state .replaceTarget = .error .failure
    | .halted => False := by
  obtain ⟨bytes, hstate⟩ : ∃ bytes, write.Pending disk bytes state := by
    cases h.due with
    | replace hstate => exact ⟨_, hstate⟩
  obtain ⟨time, htime⟩ := hstate.planted.at?
  have hsame : state.tree.hasDirectory write.target = disk.tree.hasDirectory write.target := by
    rw [Bool.eq_iff_iff, ← FileTree.sight?_eq_directory, ← FileTree.sight?_eq_directory,
      (hstate.showsAt hplan).of_ne hplan.apart.symm]
  rw [perform, htime, lastEnding, hsame]
  by_cases hnull : '\x00' ∈ write.path.toList
  · simp [hnull]
  · by_cases htarget : disk.tree.hasDirectory write.target = true
    · simp [hnull, htarget]
    · simp [hnull, htarget]

/-! ## How a run ends -/

/-- If anything happens, the disk reports an error. -/
def OnlyRefused (incident? : Option Incident) : Prop :=
  ∀ happened, incident? = some happened → ∃ cause, happened = .refusal cause

theorem onlyRefused_none : OnlyRefused none := nofun

theorem onlyRefused_map (cause? : Option DiskCause) : OnlyRefused (cause?.map .refusal) := by
  intro happened h
  obtain ⟨cause, -, rfl⟩ := Option.map_eq_some_iff.mp h
  exact ⟨cause, rfl⟩

/-- A disk that refuses the cleaning up changes nothing about the ending. -/
theorem cleanUp_ending_eq (hcleaning : OnlyRefused cleaning) (state : Disk) (ending : WriteEnd) :
    (write.cleanUp cleaning state ending).ending = ending := by
  unfold AtomicWrite.cleanUp
  split
  · cases cleaning with
    | none => rfl
    | some happened =>
        obtain ⟨cause, rfl⟩ := hcleaning happened rfl
        rfl
  · rfl

/-- A write with a step that the disk refuses is refused, whatever else the disk reports. -/
theorem Progress.refused {incident : Nat → Option Incident} {number : Nat} (hplan : write.Planned disk)
    (hdirectory : disk.tree.hasDirectory write.temporary.dropLast = true)
    (honly : ∀ n, OnlyRefused (incident n)) (hcleaning : OnlyRefused cleaning)
    (h : write.Progress disk rest state) (hnumber : number < rest.length) (hrefused : incident number ≠ none) :
    ∃ cause, (write.runSteps cleaning incident rest state).ending = .refused cause := by
  induction rest generalizing state incident number with
  | nil => exact absurd hnumber (Nat.not_lt_zero number)
  | cons step rest ih =>
      rw [runSteps]
      cases hfirst : incident 0 with
      | some happened =>
          obtain ⟨cause, rfl⟩ := honly 0 happened hfirst
          exact ⟨cause, cleanUp_ending_eq hcleaning _ _⟩
      | none =>
          cases number with
          | zero => exact absurd hfirst hrefused
          | succ number =>
              -- a step that follows is refused, so this is not the last one
              have hlater : number < rest.length := Nat.lt_of_succ_lt_succ hnumber
              have hstep : step ≠ .replaceTarget := fun hlast => by
                rw [h.eq_nil_iff.mpr hlast] at hlater
                exact absurd hlater (Nat.not_lt_zero number)
              obtain ⟨next, hnext, hprogress⟩ := h.exists_performed hplan hdirectory hstep
              rw [hnext]
              exact ih (fun n => honly (n + 1)) hprogress hlater hrefused

/-- A run in which nothing happens comes to its last step. -/
theorem Progress.undisturbed {incident : Nat → Option Incident} (hplan : write.Planned disk)
    (hdirectory : disk.tree.hasDirectory write.temporary.dropLast = true) (hquiet : ∀ n, incident n = none)
    (hcleaning : write.lastEnding disk ≠ .completed → OnlyRefused cleaning)
    (h : write.Progress disk (step :: rest) state) :
    (write.runSteps cleaning incident (step :: rest) state).ending = write.lastEnding disk := by
  induction rest generalizing step state incident with
  | nil =>
      obtain rfl : step = .replaceTarget := h.eq_nil_iff.mp rfl
      -- with the directory there, the last step is the only one that can fail by itself
      have hlast := h.perform_replace hplan
      rw [runSteps, hquiet]
      cases hending : write.lastEnding disk with
      | completed =>
          rw [hending] at hlast
          obtain ⟨next, hnext⟩ := hlast
          rw [hnext]
          dsimp only
          rw [runSteps, hquiet]
      | refused cause =>
          rw [hending] at hlast
          rw [hlast]
          exact cleanUp_ending_eq (hcleaning (by simp [hending])) _ _
      | failed =>
          rw [hending] at hlast
          rw [hlast]
          exact cleanUp_ending_eq (hcleaning (by simp [hending])) _ _
      | halted =>
          rw [hending] at hlast
          exact hlast.elim
  | cons second rest ih =>
      have hstep : step ≠ .replaceTarget := fun hlast => List.cons_ne_nil _ _ (h.eq_nil_iff.mpr hlast)
      obtain ⟨next, hnext, hprogress⟩ := h.exists_performed hplan hdirectory hstep
      rw [runSteps, hquiet, hnext]
      exact ih (fun n => hquiet (n + 1)) hprogress

/-- A run that has done all its steps is completed if nothing happens after the last one. -/
theorem runSteps_ending {incident : Nat → Option Incident} (hquiet : incident rest.length = none)
    (hlength : (write.runSteps cleaning incident rest state).passed.length = rest.length) :
    (write.runSteps cleaning incident rest state).ending = .completed := by
  induction rest generalizing state incident with
  | nil => rw [runSteps, show incident 0 = none from hquiet]
  | cons step rest ih =>
      have hstop : ∀ happened, (write.stop cleaning state happened).passed.length ≠ (step :: rest).length := by
        intro happened
        cases happened with
        | refusal cause => simp [stop, cleanUp_passed]
        | failure => simp [stop, cleanUp_passed]
        | halt => simp [stop]
      rw [runSteps] at hlength ⊢
      split at hlength
      · exact absurd hlength (hstop _)
      · exact absurd hlength (hstop _)
      · exact ih hquiet (Nat.succ_inj.mp hlength)

/-- A step never stops the writer, and only the place of a path with a null character cannot be taken. -/
theorem perform_error {happened : Incident} (h : write.perform state step = .error happened) :
    happened ≠ .halt ∧ (happened = .failure → '\x00' ∈ write.path.toList) := by
  cases step with
  | createTemporary =>
      rw [perform] at h
      split at h
      · cases h
      · cases h
        exact ⟨nofun, nofun⟩
  | append piece =>
      dsimp only [perform] at h
      split at h
      · cases h
      · cases h
        exact ⟨nofun, nofun⟩
  | synchronize => cases h
  | replaceTarget =>
      dsimp only [perform] at h
      split at h
      · cases h
        exact ⟨nofun, nofun⟩
      · split at h
        · rename_i hnull
          cases h
          exact ⟨nofun, fun _ => List.contains_iff_mem.mp hnull⟩
        · split at h
          · cases h
            exact ⟨nofun, nofun⟩
          · cases h

/-- A write that nothing disturbs does not stop, and it fails only at a path with a null character. -/
theorem run_ending (write : AtomicWrite) (disk : Disk) :
    (write.run disk).ending ≠ .halted ∧ ((write.run disk).ending = .failed → '\x00' ∈ write.path.toList) := by
  unfold run
  generalize write.steps = steps
  induction steps generalizing disk with
  | nil => exact ⟨nofun, nofun⟩
  | cons step rest ih =>
      rw [runSteps]
      cases hperform : write.perform disk step with
      | error happened =>
          obtain ⟨hhalt, hfailure⟩ := perform_error hperform
          cases happened with
          | refusal cause =>
              show (write.cleanUp none disk (.refused cause)).ending ≠ _ ∧ ((write.cleanUp none disk _).ending = _ → _)
              rw [cleanUp_ending_eq onlyRefused_none]
              exact ⟨nofun, nofun⟩
          | failure =>
              show (write.cleanUp none disk .failed).ending ≠ _ ∧ ((write.cleanUp none disk _).ending = _ → _)
              rw [cleanUp_ending_eq onlyRefused_none]
              exact ⟨nofun, fun _ => hfailure rfl⟩
          | halt => exact absurd rfl hhalt
      | ok next => exact ih next

end AtomicWrite

namespace Disk

variable {disk state : Disk} {path : String} {pieces : List (List UInt8)} {plan : AtomicWrite}

/-! ## Fresh names -/

theorem temporaryName_injective : Function.Injective temporaryName := by
  intro first second h
  have htext : ∀ number, (temporaryName number).toList =
      "tmp".toList ++ Nat.toDigits 10 number ++ ".tmp".toList := by
    intro number
    simp [temporaryName, ToString.toString, Nat.repr]
  have hdigits : Nat.toDigits 10 first = Nat.toDigits 10 second := by
    have hlist := congrArg String.toList h
    rw [htext, htext] at hlist
    exact List.append_cancel_left (List.append_cancel_right hlist)
  have hvalue := congrArg (Nat.ofDigitChars 10 · 0) hdigits
  simpa [Nat.ofDigitChars_ten_toDigits] using hvalue

/-- A fresh name is none of those taken: there are more names to try than these. -/
theorem freshName_not_mem (taken : List String) : freshName taken ∉ taken := by
  rw [freshName]
  cases hfound : (List.range taken.length).find? fun number => !taken.contains (temporaryName number) with
  | some number =>
      have hfree := List.find?_some hfound
      simpa using hfree
  | none =>
      intro hlast
      have htaken : ∀ number < taken.length, temporaryName number ∈ taken := by
        intro number hnumber
        have htaken := List.find?_eq_none.mp hfound number (List.mem_range.mpr hnumber)
        simpa using htaken
      have hnodup : ((List.range (taken.length + 1)).map temporaryName).Nodup :=
        List.nodup_range.map temporaryName_injective
      have hsubset : (List.range (taken.length + 1)).map temporaryName ⊆ taken := by
        intro name hname
        obtain ⟨number, hnumber, rfl⟩ := List.mem_map.mp hname
        rcases Nat.lt_succ_iff_lt_or_eq.mp (List.mem_range.mp hnumber) with hless | rfl
        · exact htaken number hless
        · exact hlast
      have hlength := (hnodup.subperm hsubset).length_le
      rw [List.length_map, List.length_range] at hlength
      omega

/-! ## Writing to a path -/

/-- What a write to a path is planned to be: it replaces what the path leads to, or the directory of the temporary
file if it leads nowhere. -/
theorem exists_of_atomicWrite (hplan : disk.atomicWrite path pieces = .ok plan) :
    plan.path = path ∧ plan.pieces = pieces ∧ plan.Planned disk ∧
      plan.target = (disk.locate path).toOption.getD plan.temporary.dropLast := by
  rw [atomicWrite] at hplan
  cases hdirectory : disk.locate (String.ofList (Path.parent path.toList)) with
  | error fault =>
      rw [hdirectory] at hplan
      cases hplan
  | ok directory =>
      rw [hdirectory] at hplan
      cases hplan
      generalize htarget : (disk.locate path).toOption.getD directory = target
      generalize htaken : (((disk.tree.at? directory).map FileTree.entries).getD []).map (·.1) ++
        target.getLast?.toList = taken
      have hfresh := freshName_not_mem taken
      generalize freshName taken = name at hfresh ⊢
      rw [← htaken, List.mem_append, not_or] at hfresh
      refine ⟨rfl, rfl, ⟨⟨directory, name, rfl, hfresh.1⟩, ?_, ?_⟩, ?_⟩
      · intro (htemporary : directory ++ [name] = target)
        exact hfresh.2 (by simp [← htemporary])
      · show disk.tree.sight? target.dropLast = _
        cases hplace : disk.locate path with
        | ok place =>
            rw [hplace] at htarget
            obtain rfl : place = target := htarget
            exact sight?_dropLast_of_locate hplace
        | error fault =>
            rw [hplace] at htarget
            obtain rfl : directory = target := htarget
            exact sight?_dropLast_of_locate hdirectory
      · rw [List.dropLast_concat, htarget]

/-- Up to the last step the path holds what it held. -/
theorem held?_of_before (hplan : disk.atomicWrite path pieces = .ok plan) (h : plan.Before disk state) :
    state.held? path = disk.held? path := by
  obtain ⟨-, -, hplanned, htarget⟩ := exists_of_atomicWrite hplan
  obtain ⟨seen, hseen, hshows⟩ := h.exists_showsAt hplanned
  refine hshows.held?_eq (by simp [hplanned.sight?_temporary]) hseen fun hplace => hplanned.apart ?_
  rw [htarget, hplace]
  rfl

/-- What has been replaced is what the path leads to. -/
theorem locate_of_after (hplan : disk.atomicWrite path pieces = .ok plan) (h : plan.After disk state) :
    disk.locate path = .ok plan.target := by
  obtain ⟨-, -, -, htarget⟩ := exists_of_atomicWrite hplan
  cases hplace : disk.locate path with
  | error fault =>
      -- the target is the directory of the temporary file
      rw [hplace] at htarget
      exact absurd (FileTree.sight?_eq_directory.mpr (htarget ▸ h.directory)) h.target
  | ok place =>
      rw [hplace] at htarget
      rw [htarget]
      rfl

/-- Afterwards it holds what has been written. -/
theorem held?_of_after (hplan : disk.atomicWrite path pieces = .ok plan) (h : plan.After disk state) :
    state.held? path = some pieces.flatten := by
  obtain ⟨-, hpieces, hplanned, -⟩ := exists_of_atomicWrite hplan
  have hshows := h.showsAt hplanned
  refine held?_eq_some_iff.mpr ⟨plan.target, (hshows.locate_iff h.target (by simp)).mpr (locate_of_after hplan h), ?_⟩
  rw [hshows.here, hpieces]

theorem whole_run (hplan : disk.atomicWrite path pieces = .ok plan) (incident : Nat → Option Incident)
    (cleaning : Option Incident) : plan.Whole disk cleaning plan.steps (plan.run disk incident cleaning) :=
  AtomicWrite.Progress.start.whole (exists_of_atomicWrite hplan).2.2.1 incident

/-- A write that nothing disturbs leaves everything as it was or has replaced the target. -/
theorem run_cases (hplan : disk.atomicWrite path pieces = .ok plan) :
    ((plan.run disk).last.workingDirectory = disk.workingDirectory ∧ (plan.run disk).last.tree = disk.tree) ∨
      plan.After disk (plan.run disk).last := by
  have hwhole := whole_run hplan (fun _ => none) none
  by_cases hlength : (plan.run disk).passed.length = plan.steps.length
  · exact .inr (hwhole.after hlength)
  · obtain ⟨seen, -, hshows⟩ := (hwhole.before hlength).exists_showsAt (exists_of_atomicWrite hplan).2.2.1
    exact .inl ⟨hshows.workingDirectory, hwhole.clean (plan.run_ending disk).1 rfl hlength⟩

/-- Bytes whose write is completed are found where the path leads to. -/
theorem bytes_of_completed {incident : Nat → Option Incident} {cleaning : Option Incident}
    (hplan : disk.atomicWrite path pieces = .ok plan)
    (h : (plan.run disk incident cleaning).ending = .completed) :
    (plan.run disk incident cleaning).last.bytes path = .ok pieces.flatten := by
  have hwhole := whole_run hplan incident cleaning
  exact held?_eq_some.mp (held?_of_after hplan (hwhole.after (hwhole.completed h)))

/-- The path of a write holds what it held before until the target is replaced, and from then on all that was to
be written, whatever happens in the place of any step, and however much of it is written at a time.  A write that is
completed has replaced the target.  A writer that has not stopped leaves no temporary file, unless something happens
when it is taken away.  Where nothing happens the write is completed, if a file can be put where the path leads to. -/
theorem whole_at_every_moment {incident : Nat → Option Incident} {cleaning : Option Incident} {run : WriteRun}
    (hplan : disk.atomicWrite path pieces = .ok plan) (hrun : plan.run disk incident cleaning = run) :
    run.passed.length ≤ plan.steps.length ∧
    (∀ step state, (step, state) ∈ plan.steps.zip run.passed →
      state.held? path = if step = .replaceTarget then some pieces.flatten else disk.held? path) ∧
    (run.last.held? path =
      if run.passed.length = plan.steps.length then some pieces.flatten else disk.held? path) ∧
    (run.ending = .completed → run.passed.length = plan.steps.length) ∧
    (run.ending ≠ .halted → cleaning = none → run.last.tree.at? plan.temporary = none) ∧
    ((∀ n, incident n = none) → '\x00' ∉ path.toList → disk.tree.hasDirectory plan.temporary.dropLast = true →
      disk.tree.hasDirectory plan.target = false → run.ending = .completed) := by
  obtain ⟨hpath, -, hplanned, -⟩ := exists_of_atomicWrite hplan
  have hwhole : plan.Whole disk cleaning plan.steps run := hrun ▸ whole_run hplan incident cleaning
  refine ⟨hwhole.length_le, fun step state hmem => ?_, ?_, hwhole.completed, fun hending hcleaning => ?_,
    fun hquiet hnull hdirectory htarget => ?_⟩
  · have hpassed := hwhole.passed step state hmem
    split at hpassed
    · rename_i hstep
      rw [if_pos hstep]
      exact held?_of_after hplan hpassed
    · rename_i hstep
      rw [if_neg hstep]
      exact held?_of_before hplan hpassed
  · by_cases hlength : run.passed.length = plan.steps.length
    · rw [if_pos hlength]
      exact held?_of_after hplan (hwhole.after hlength)
    · rw [if_neg hlength]
      exact held?_of_before hplan (hwhole.before hlength)
  · by_cases hlength : run.passed.length = plan.steps.length
    · exact (hwhole.after hlength).vacant hplanned
    · rw [hwhole.clean hending hcleaning hlength]
      exact FileTree.sight?_eq_none.mp hplanned.sight?_temporary
  · have hlast : plan.lastEnding disk = .completed := by
      rw [AtomicWrite.lastEnding, hpath, if_neg hnull, htarget, if_neg Bool.false_ne_true]
    rw [← hrun, ← hlast]
    exact AtomicWrite.Progress.start.undisturbed hplanned hdirectory hquiet (absurd hlast)

/-- A writer that stops in the place of the last of five steps leaves the old file; one that nothing disturbs
replaces it. -/
theorem whole_at_every_moment_of_old_file : ∃ (disk : Disk) (plan : AtomicWrite),
    disk.atomicWrite "/d/g" [[110], [101, 119]] = .ok plan ∧ disk.held? "/d/g" = some [111] ∧
    (plan.run disk fun number => if number = 4 then some .halt else none).last.held? "/d/g" = some [111] ∧
    (plan.run disk).last.held? "/d/g" = some [110, 101, 119] := by
  let halting (number : Nat) : Option Incident := if number = 4 then some .halt else none
  let disk : Disk := { tree := .directory [("d", .directory [("g", .file [111] (.ofWholeSeconds 0))])] }
  let plan : AtomicWrite := ⟨"/d/g", ["d", "g"], ["d", "tmp0.tmp"], [[110], [101, 119]]⟩
  have hplan : disk.atomicWrite "/d/g" [[110], [101, 119]] = .ok plan := by
    unfold disk plan
    rfl
  have hold : disk.held? "/d/g" = some [111] := by decide +kernel
  refine ⟨disk, plan, hplan, hold, ?_, ?_⟩
  · obtain ⟨-, -, hlast, -⟩ := whole_at_every_moment hplan (rfl : plan.run disk halting = _)
    rw [hlast, if_neg (by decide +kernel), hold]
  · obtain ⟨-, -, hlast, hall, -, hcompleted⟩ := whole_at_every_moment hplan (rfl : plan.run disk = _)
    have hending := hcompleted (fun _ => rfl) (by decide) (by decide +kernel) (by decide +kernel)
    rw [hlast, if_pos (hall hending)]
    rfl

end Disk
end ChangeImpact
