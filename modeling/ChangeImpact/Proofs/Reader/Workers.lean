import ChangeImpact.Proofs.Collections.Table
import ChangeImpact.Reader
import Mathlib.Data.List.Perm.Basic
import Mathlib.Logic.Relation

/-!
# The workers of a pool

A pool reads files in the order of some schedule.  This module says where such an order comes from.
Files wait in a queue.  Whenever a worker is free it takes the next one, reads it, and is free again;
what it has read lies ready until it is entered under the path of its file, which need not happen in the
order in which the workers have finished (`Work.Step`).  The steps may follow each other in any order.

Three facts hold for every number of workers.

* Whichever steps are taken, the files whose results have been entered and those that are still on their
  way are, together, the files that were asked for (`Work.Tracked`).  This is the invariant from which
  the others follow.
* Every step brings the work nearer to its end (`Work.left_lt_of_step`), and as long as it is not at its
  end there is a further step, if there is a worker at all (`Work.exists_step`).  So no run goes on for
  ever, and none gets stuck.
* What a run has collected in the end is what the pool reads by some schedule
  (`Work.Run.exists_schedule`).  What holds of a pool by every schedule therefore holds of every run.
-/

namespace ChangeImpact

/-- How far a pool has come with the files that it is asked for: some wait in a queue, some are being
read, and of some the result lies ready but has not been entered. -/
structure Work where
  waiting : List String
  running : List String := []
  ready : List (String × FileRead) := []
  collected : Table FileRead := ∅

namespace Work

/-- Nothing has been done yet. -/
def ofPaths (paths : List String) : Work := { waiting := paths }

/-- The files whose results have not been entered. -/
def pending (work : Work) : List String :=
  work.waiting ++ work.running ++ work.ready.map (·.1)

/-- Something happens: a free worker takes the first file of the queue, one of the workers has read its
file, or one of the results that lie ready is entered. -/
inductive Step (workers : Nat) (reader : Reader) : Work → Work → Prop where
  | take {path : String} {waiting running : List String} {ready : List (String × FileRead)}
      {collected : Table FileRead} (hfree : running.length < workers) :
      Step workers reader ⟨path :: waiting, running, ready, collected⟩
        ⟨waiting, running ++ [path], ready, collected⟩
  | finish (before : List String) {path : String} {waiting after : List String}
      {ready : List (String × FileRead)} {collected : Table FileRead} :
      Step workers reader ⟨waiting, before ++ path :: after, ready, collected⟩
        ⟨waiting, before ++ after, ready ++ [(path, reader.read path)], collected⟩
  | enter (before : List (String × FileRead)) {path : String} {read : FileRead}
      {waiting running : List String} {after : List (String × FileRead)}
      {collected : Table FileRead} :
      Step workers reader ⟨waiting, running, before ++ (path, read) :: after, collected⟩
        ⟨waiting, running, before ++ after, collected.insert path read⟩

/-- Some steps, one after another. -/
abbrev Run (workers : Nat) (reader : Reader) : Work → Work → Prop :=
  Relation.ReflTransGen (Step workers reader)

variable {workers : Nat} {reader : Reader} {paths order : List String} {work next final : Work}

/-! ## What the steps keep -/

/-- The results of some files have been entered in an order, and all other files that were asked for are
still on their way. -/
structure Tracked (reader : Reader) (paths order : List String) (work : Work) : Prop where
  all : (order ++ work.pending).Perm paths
  read : ∀ entry ∈ work.ready, entry.2 = reader.read entry.1
  collected : work.collected = .ofList (order.map fun path => (path, reader.read path))

theorem tracked_ofPaths (reader : Reader) (paths : List String) :
    Tracked reader paths [] (ofPaths paths) where
  all := by simp [ofPaths, pending]
  read := nofun
  collected := rfl

/-- A file goes from one place to the next, and nothing is lost on the way. -/
theorem Tracked.step (h : Tracked reader paths order work) (hstep : Step workers reader work next) :
    ∃ order, Tracked reader paths order next := by
  obtain ⟨hall, hread, hcollected⟩ := h
  have hcount := List.perm_iff_count.mp hall
  cases hstep with
  | take hfree =>
      refine ⟨order, List.perm_iff_count.mpr ?_, hread, hcollected⟩
      intro other
      rw [← hcount other]
      simp only [pending, List.count_append, List.count_cons, List.count_nil]
      omega
  | @finish before path waiting after ready collected =>
      refine ⟨order, List.perm_iff_count.mpr ?_, ?_, hcollected⟩
      · intro other
        rw [← hcount other]
        simp only [pending, List.count_append, List.count_cons, List.count_nil, List.map_append,
          List.map_cons, List.map_nil]
        omega
      · intro entry hentry
        rcases List.mem_append.mp hentry with hentry | hentry
        · exact hread entry hentry
        · rw [List.mem_singleton.mp hentry]
  | @enter before path read waiting running after collected =>
      -- the file whose result is entered is the last one of the order now
      refine ⟨order ++ [path], List.perm_iff_count.mpr ?_, ?_, ?_⟩
      · intro other
        rw [← hcount other]
        simp only [pending, List.count_append, List.count_cons, List.count_nil, List.map_append,
          List.map_cons]
        omega
      · intro entry hentry
        rcases List.mem_append.mp hentry with hentry | hentry
        · exact hread entry (List.mem_append_left _ hentry)
        · exact hread entry (List.mem_append_right _ (List.mem_cons_of_mem _ hentry))
      · have hsame : read = reader.read path := hread (path, read) (by simp)
        have hbefore : collected = .ofList (order.map fun path => (path, reader.read path)) :=
          hcollected
        rw [List.map_append, Table.ofList, List.foldl_append]
        show collected.insert path read = _
        rw [hbefore, hsame]
        rfl

theorem Tracked.run (h : Tracked reader paths order work) (hrun : Run workers reader work final) :
    ∃ order, Tracked reader paths order final := by
  induction hrun with
  | refl => exact ⟨order, h⟩
  | tail _ hstep ih =>
      obtain ⟨order, htracked⟩ := ih
      exact htracked.step hstep

/-! ## The end of the work -/

/-- How many steps are left: a file that waits has three before it, one that is being read two, and one
whose result lies ready a single one. -/
def left (work : Work) : Nat :=
  3 * work.waiting.length + 2 * work.running.length + work.ready.length

theorem left_lt_of_step (hstep : Step workers reader work next) : next.left < work.left := by
  cases hstep with
  | take hfree =>
      simp only [left, List.length_cons, List.length_append, List.length_nil]
      omega
  | finish before =>
      simp only [left, List.length_cons, List.length_append, List.length_nil]
      omega
  | enter before =>
      simp only [left, List.length_cons, List.length_append]
      omega

/-- No run goes on for ever. -/
theorem wellFounded_step (workers : Nat) (reader : Reader) :
    WellFounded fun next work => Step workers reader work next := by
  apply Subrelation.wf (r := InvImage (· < ·) left)
  · intro next work hstep
    exact left_lt_of_step hstep
  · exact InvImage.wf left Nat.lt_wfRel.wf

/-- With a worker the work only stops at its end. -/
theorem exists_step (hworkers : 0 < workers) (reader : Reader) (hpending : work.pending ≠ []) :
    ∃ next, Step workers reader work next := by
  obtain ⟨waiting, running, ready, collected⟩ := work
  cases ready with
  | cons entry ready =>
      obtain ⟨path, read⟩ := entry
      exact ⟨_, .enter []⟩
  | nil =>
      cases running with
      | cons path running => exact ⟨_, .finish []⟩
      | nil =>
          -- nothing is being read, so every worker is free
          cases waiting with
          | cons path waiting => exact ⟨_, .take hworkers⟩
          | nil => exact absurd rfl hpending

/-- From wherever it has come, the work can be brought to its end. -/
theorem exists_run_to_end (hworkers : 0 < workers) (reader : Reader) (work : Work) :
    ∃ final, Run workers reader work final ∧ final.pending = [] := by
  induction work using (wellFounded_step workers reader).induction with
  | h work ih =>
      by_cases hpending : work.pending = []
      · exact ⟨work, .refl, hpending⟩
      · obtain ⟨next, hstep⟩ := exists_step hworkers reader hpending
        obtain ⟨final, hrun, hend⟩ := ih next hstep
        exact ⟨final, .head hstep hrun, hend⟩

/-- What a run has collected in the end is what a pool reads that follows some schedule. -/
theorem Run.exists_schedule (hrun : Run workers reader (ofPaths paths) final)
    (hend : final.pending = []) : ∃ schedule : Schedule, ∀ pool : ReaderPool,
      pool.hasWorkers = true →
        { pool with schedule }.readAll reader paths = .ok final.collected := by
  obtain ⟨order, htracked⟩ := (tracked_ofPaths reader paths).run hrun
  have hperm : order.Perm paths := by
    have hall := htracked.all
    rwa [hend, List.append_nil] at hall
  -- the schedule that follows the order of this run, and says nothing of other files
  let schedule : Schedule :=
    { order := fun others => if others = paths then order else others
      complete := by
        intro others
        split
        · rename_i heq
          exact heq ▸ hperm
        · exact .refl _ }
  refine ⟨schedule, fun pool hpool => ?_⟩
  have hworkers : ({ pool with schedule } : ReaderPool).hasWorkers = true := hpool
  have horder : schedule.order paths = order := if_pos rfl
  unfold ReaderPool.readAll
  split
  · -- without files nothing has been entered
    rename_i hempty
    rw [List.isEmpty_iff.mp hempty] at hperm
    rw [htracked.collected, hperm.eq_nil]
    rfl
  · rw [hworkers, htracked.collected]
    simp only [Bool.not_true, Bool.false_eq_true, if_false, horder]

end Work
end ChangeImpact
