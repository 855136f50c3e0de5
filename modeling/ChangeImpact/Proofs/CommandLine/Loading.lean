import ChangeImpact.CommandLine.Run
import ChangeImpact.Proofs.Steps

/-!
# Loading a graph or building it

A run lists the files of the project, finds a graph or does without one, brings it up to date and saves it.
Nothing but the last step changes the disk, so the others are results that may be looked at one by one
(`loadOrBuild_eq_ok_iff`).
-/

namespace ChangeImpact.CommandLine

variable {extractor : Script.Extractor} {settings : Settings} {rebuild : Bool} {disk after : Disk}
  {g refreshed : Graph}

theorem demand_eq_ok_iff {ε α : Type} {wrap : ε → RunError} {result : Except ε α} {value : α} :
    demand wrap result disk = .ok value after ↔ result = .ok value ∧ after = disk := by
  cases result with
  | ok found =>
      show EStateM.Result.ok found disk = .ok value after ↔ _
      rw [EStateM.Result.ok.injEq, Except.ok.injEq, eq_comm (a := disk)]
  | error fault => exact iff_of_false nofun fun h => nomatch h.1

theorem demand_map_bind {ε α β γ : Type} (wrap : ε → RunError) (f : α → β) (result : Except ε α)
    (next : β → RunStep γ) :
    demand wrap (result.map f) >>= next = demand wrap result >>= fun value => next (f value) := by
  cases result with
  | ok value => rfl
  | error fault => rfl

theorem onDisk_eq_ok_iff {α : Type} {step : DiskStep α} {value : α} :
    onDisk step disk = .ok value after ↔ step disk = .ok value after := by
  unfold onDisk
  cases step disk with
  | ok found state => simp
  | error fault state => simp

/-- The graph that a run finds, unless it is told to rebuild it. -/
def found (settings : Settings) (rebuild : Bool) (disk : Disk) : Except GraphFileFault (Option Graph) :=
  if rebuild then .ok none else disk.loadGraph settings.graphPath

theorem found_rebuild (settings : Settings) (disk : Disk) : found settings true disk = .ok none := if_pos rfl

theorem found_load (settings : Settings) (disk : Disk) :
    found settings false disk = disk.loadGraph settings.graphPath := if_neg Bool.false_ne_true

theorem loadOrBuild_eq (extractor : Script.Extractor) (settings : Settings) (rebuild : Bool) :
    loadOrBuild extractor settings rebuild none = (do
      let files ← demand .disk (projectFiles settings (← get))
      let kept ← demand .graphFile (found settings rebuild (← get))
      let g ← demand .build (currentGraph extractor settings (← get) kept files)
      let _ ← onDisk (Disk.saveGraph settings.graphPath g)
      return g) := by
  unfold loadOrBuild
  cases rebuild with
  | true =>
      have hnone : demand RunError.graphFile (.ok (none : Option Graph)) = pure none := rfl
      have hget : ∀ next : RunStep Graph, (get >>= fun _ => next) = next := fun _ => rfl
      simp only [found, hnone, hget, pure_bind, Option.isNone_none, Bool.not_true, Bool.and_false,
        Bool.false_eq_true, if_false, if_true]
  | false =>
      simp only [found, keptGraph, bind_assoc, Option.isNone_none, Bool.not_false, Bool.and_self,
        Bool.false_eq_true, if_false, if_true]

/-- A run comes through by listing the files, finding a graph or doing without one, bringing it up to date, and
saving it. -/
structure Ran (extractor : Script.Extractor) (settings : Settings) (rebuild : Bool) (disk : Disk)
    (files : List String) (kept : Option Graph) (g : Graph) (answer : Bool) (after : Disk) : Prop where
  listed : projectFiles settings disk = .ok files
  found : found settings rebuild disk = .ok kept
  graph : currentGraph extractor settings disk kept files = .ok g
  saved : Disk.saveGraph settings.graphPath g disk = .ok answer after

theorem loadOrBuild_eq_ok_iff : loadOrBuild extractor settings rebuild none disk = .ok g after ↔
    ∃ files kept answer, Ran extractor settings rebuild disk files kept g answer after := by
  rw [loadOrBuild_eq]
  simp only [bind_eq_ok_iff, get_eq_ok_iff, demand_eq_ok_iff, onDisk_eq_ok_iff, pure_eq_ok_iff]
  constructor
  · rintro ⟨_, _, ⟨rfl, rfl⟩, files, _, ⟨hfiles, rfl⟩, _, _, ⟨rfl, rfl⟩, kept, _, ⟨hkept, rfl⟩, _, _,
      ⟨rfl, rfl⟩, _, _, ⟨hgraph, rfl⟩, answer, _, hsaved, rfl, rfl⟩
    exact ⟨files, kept, answer, hfiles, hkept, hgraph, hsaved⟩
  · rintro ⟨files, kept, answer, hfiles, hkept, hgraph, hsaved⟩
    exact ⟨disk, disk, ⟨rfl, rfl⟩, files, disk, ⟨hfiles, rfl⟩, disk, disk, ⟨rfl, rfl⟩, kept, disk,
      ⟨hkept, rfl⟩, disk, disk, ⟨rfl, rfl⟩, g, disk, ⟨hgraph, rfl⟩, answer, after, hsaved, rfl, rfl⟩

theorem Ran.loadOrBuild_eq {files : List String} {kept : Option Graph} {answer : Bool}
    (h : Ran extractor settings rebuild disk files kept g answer after) :
    loadOrBuild extractor settings rebuild none disk = .ok g after :=
  loadOrBuild_eq_ok_iff.mpr ⟨files, kept, answer, h⟩

/-- A run comes to the same if it is given what it would find. -/
theorem Ran.loadOrBuild_kept {files : List String} {kept : Option Graph} {answer : Bool}
    (h : Ran extractor settings rebuild disk files kept g answer after) :
    loadOrBuild extractor settings rebuild kept disk = .ok g after := by
  cases kept with
  | none => exact h.loadOrBuild_eq
  | some held =>
      have hlisted : demand .disk (projectFiles settings disk) disk = .ok files disk :=
        demand_eq_ok_iff.mpr ⟨h.listed, rfl⟩
      have hgraph : demand .build (currentGraph extractor settings disk (some held) files) disk = .ok g disk :=
        demand_eq_ok_iff.mpr ⟨h.graph, rfl⟩
      have hsaved : onDisk (Disk.saveGraph settings.graphPath g) disk = .ok answer after :=
        onDisk_eq_ok_iff.mpr h.saved
      unfold loadOrBuild
      rw [get_bind_eq, bind_of_eq_ok hlisted]
      simp only [Option.isNone_some, Bool.false_and, Bool.false_eq_true, if_false, pure_bind]
      rw [get_bind_eq, bind_of_eq_ok hgraph, bind_of_eq_ok hsaved]
      rfl

/-- A run that is told to rebuild the graph, or that finds none, builds it. -/
theorem exists_build_of_run (hrun : loadOrBuild extractor settings rebuild none disk = .ok g after)
    (hfresh : rebuild = true ∨ disk.loadGraph settings.graphPath = .ok none) :
    ∃ files answer, projectFiles settings disk = .ok files ∧
      (builderOn extractor settings disk).build (.paths files) = .ok g ∧
      Disk.saveGraph settings.graphPath g disk = .ok answer after := by
  obtain ⟨files, kept, answer, hran⟩ := loadOrBuild_eq_ok_iff.mp hrun
  have hfound : found settings rebuild disk = .ok none := by
    rcases hfresh with rfl | hnone
    · exact found_rebuild settings disk
    · rw [found, hnone, ite_self]
  obtain rfl : kept = none := Except.ok.inj (hran.found.symm.trans hfound)
  exact ⟨files, answer, hran.listed, hran.graph, hran.saved⟩

theorem refresh_of_currentGraph {files : List String}
    (h : currentGraph extractor settings disk (some g) files = .ok refreshed) :
    (builderOn extractor settings disk).refresh (.paths files) g = .ok () refreshed := by
  rw [currentGraph] at h
  cases hrefresh : (builderOn extractor settings disk).refresh (.paths files) g with
  | ok value after =>
      simp only [hrefresh, Except.ok.injEq] at h
      rw [h]
  | error cause halted =>
      simp only [hrefresh] at h
      cases h

end ChangeImpact.CommandLine
