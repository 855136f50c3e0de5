import ChangeImpact.Proofs.Builder.Scanning
import Mathlib.Logic.Function.Basic

/-!
# The record behind a graph

Nodes and what scanning has said are a function of the last scan of every file.  That function is the
record of a graph: `Recorded record g` says that `g` is balanced and shows the record, and whatever a
builder does to the nodes is a change of the record (`Record.add`, `Record.drop`, `Record.scan`).

Edges and what linking has said are left out here.  They are a function of the nodes, and nothing in
this file keeps them up to date.
-/

namespace ChangeImpact.Builder

open Diagnostic (said)

/-- The last scans of the files that are known. -/
abbrev Record := String → Option Scan

/-- The node of a file with a given scan. -/
def nodeOf (path : String) (scan : Scan) : FileNode where
  path := path
  kind := FileKind.ofPath path
  lastModified := timeJson scan.changed
  specifiers := scan.specifiers

namespace Record

/-- A file becomes known, if it is not yet. -/
def add (record : Record) (path : String) : Record :=
  Function.update record path (some ((record path).getD { path }))

/-- A file is forgotten. -/
def drop (record : Record) (path : String) : Record := Function.update record path none

/-- Some files are scanned. -/
def scan (record : Record) (paths : List String) (found : String → Scan) : Record := fun path =>
  if path ∈ paths then some (found path) else record path

variable {record : Record} {path : String}

theorem add_of_some {scan : Scan} (h : record path = some scan) : record.add path = record := by
  rw [add, h, Option.getD_some, ← h, Function.update_eq_self]

theorem add_of_none (h : record path = none) :
    record.add path = Function.update record path (some { path }) := by
  rw [add, h, Option.getD_none]

theorem drop_of_none (h : record path = none) : record.drop path = record := by
  rw [drop, ← h, Function.update_eq_self]

end Record

/-- A graph shows a record. -/
structure Recorded (record : Record) (g : Graph) : Prop where
  balanced : g.Balanced
  nodes : ∀ path, g.nodes.get? path = (record path).map (nodeOf path)
  problems : ∀ path, said false path g.diagnostics = ((record path).bind (·.problem)).toList

variable {record : Record} {g : Graph} {path : String} {paths : List String}

theorem Recorded.mem_nodes (h : Recorded record g) :
    path ∈ g.nodes ↔ ∃ scan, record path = some scan := by
  rw [Table.mem_iff_exists, h.nodes]
  cases record path with
  | none => simp
  | some scan => simp

theorem Recorded.not_mem_nodes (h : Recorded record g) :
    path ∉ g.nodes ↔ record path = none := by
  rw [h.mem_nodes, Option.eq_none_iff_forall_ne_some, not_exists]

theorem Recorded.kinded (h : Recorded record g) : Kinded g := by
  intro path node hnode
  rw [h.nodes] at hnode
  obtain ⟨scan, -, rfl⟩ := Option.map_eq_some_iff.mp hnode
  rfl

theorem recorded_empty : Recorded (fun _ => none) ∅ where
  balanced := Graph.balanced_empty
  nodes _ := rfl
  problems _ := rfl

/-! ## Adding and dropping nodes -/

theorem perform_eq_ok {α : Type} {step : GraphStep α} {value : α} {after : Graph}
    (h : step g = .ok value after) : perform step g = .ok value after := by
  unfold perform
  rw [h]

theorem perform_eq_error {α : Type} {step : GraphStep α} {cause : GraphError} {after : Graph}
    (h : step g = .error cause after) : perform step g = .error (.graph cause) after := by
  unfold perform
  rw [h]

theorem ends_perform {α : Type} {step : GraphStep α} {good : α → Graph → Prop}
    {bad : GraphError → Graph → Prop} {bad' : BuildError → Graph → Prop}
    (h : Ends step g good bad) (hbad : ∀ cause after, bad cause after → bad' (.graph cause) after) :
    Ends (perform step) g good bad' := by
  cases hstep : step g with
  | ok value after => exact .of_eq_ok (perform_eq_ok hstep) (h.of_ok hstep)
  | error cause after =>
      exact .of_eq_error (perform_eq_error hstep) (hbad cause after (h.of_error hstep))

theorem Recorded.withNode (h : Recorded record g) (hpath : record path = none) :
    Recorded (record.add path) (g.withNode path (FileKind.ofPath path) .null) where
  balanced := h.balanced.withNode (h.not_mem_nodes.mpr hpath) _ _
  nodes other := by
    rw [Record.add_of_none hpath, Function.update_apply]
    show (g.nodes.insert path _).get? other = _
    rw [Table.get?_insert]
    split
    · rename_i heq
      rw [heq]
      rfl
    · exact h.nodes other
  problems other := by
    rw [Record.add_of_none hpath, Function.update_apply]
    show said false other g.diagnostics = _
    rw [h.problems]
    split
    · rename_i heq
      rw [heq, hpath]
      rfl
    · rfl

/-- The nodes have their kinds already. -/
theorem Recorded.withKind_eq (h : Recorded record g) (path : String) :
    Graph.modifyNode path ({ · with kind := FileKind.ofPath path }) g = g := by
  unfold Graph.modifyNode
  rw [Table.modify_eq_self]
  intro node hfound
  rw [← h.kinded path node hfound]

/-- A node is added for a file that has none; for a file that has one nothing changes. -/
theorem Recorded.ends_ensureNode (h : Recorded record g) (path : String) :
    Ends (ensureNode path) g
      (fun added after => added = (record path).isNone ∧ Recorded (record.add path) after ∧
        (added = false → after = g)) (fun _ _ => False) := by
  unfold ensureNode
  refine .get_bind ?_
  cases hrecord : record path with
  | none =>
      have hnode : g.hasNode path = false := by
        rw [← Bool.not_eq_true, Graph.hasNode_iff, h.not_mem_nodes, hrecord]
      have hadded : Ends (perform (Graph.addNode path (FileKind.ofPath path))) g
          (fun _ after => Recorded (record.add path) after) (fun _ _ => False) :=
        .of_eq_ok (perform_eq_ok (Graph.addNode_of_not_mem (h.not_mem_nodes.mpr hrecord) _ _))
          (h.withNode hrecord)
      simp only [hnode, Bool.false_eq_true, if_false]
      exact hadded.bind fun _ after hafter => .pure ⟨rfl, hafter, fun heq => absurd heq (by decide)⟩
  | some scan =>
      have hnode : g.hasNode path = true := Graph.hasNode_iff.mpr (h.mem_nodes.mpr ⟨scan, hrecord⟩)
      simp only [hnode, if_true]
      refine .modified_bind (.pure ?_)
      rw [h.withKind_eq, Record.add_of_some hrecord]
      exact ⟨rfl, h, fun _ => rfl⟩

theorem Recorded.without (h : Recorded record g) (path : String) :
    Recorded (record.drop path)
      { g.without path with
        diagnostics := (g.without path).diagnostics.filter (·.path != path) } where
  balanced := { h.balanced.without path with }
  nodes other := by
    show (g.without path).nodes.get? other = _
    rw [Graph.nodes_without, Table.get?_erase, Record.drop, Function.update_apply]
    split
    · rfl
    · exact h.nodes other
  problems other := by
    show said false other ((g.without path).diagnostics.filter _) = _
    rw [Graph.diagnostics_without, Record.drop, Function.update_apply]
    split
    · rename_i heq
      refine Diagnostic.said_filter_of_dropped fun d hpath _ => ?_
      rw [hpath, heq, bne_self_eq_false]
    · rename_i hne
      rw [Diagnostic.said_filter_of_kept, h.problems]
      intro d hpath _
      rwa [hpath, bne_iff_ne]

/-- A file that has a node loses it; where there is none nothing changes. -/
theorem Recorded.ends_dropNode (h : Recorded record g) (path : String) :
    Ends (dropNode path) g
      (fun dropped after => dropped = (record path).isSome ∧ Recorded (record.drop path) after ∧
        (dropped = false → after = g)) (fun _ _ => False) := by
  unfold dropNode
  cases hrecord : record path with
  | none =>
      have hremoved : Ends (perform (Graph.removeNode path)) g
          (fun node after => node = none ∧ after = g) (fun _ _ => False) :=
        .of_eq_ok (perform_eq_ok (Graph.removeNode_of_not_mem (h.not_mem_nodes.mpr hrecord)))
          ⟨rfl, rfl⟩
      refine hremoved.bind fun node after hafter => ?_
      rw [hafter.1, hafter.2, Record.drop_of_none hrecord]
      exact .pure ⟨rfl, h, fun _ => rfl⟩
  | some scan =>
      obtain ⟨node, hnode⟩ := h.balanced.removeNode_of_mem (h.mem_nodes.mpr ⟨scan, hrecord⟩)
      have hremoved : Ends (perform (Graph.removeNode path)) g
          (fun removed after => removed = some node ∧ after = g.without path) (fun _ _ => False) :=
        .of_eq_ok (perform_eq_ok hnode) ⟨rfl, rfl⟩
      refine hremoved.bind fun removed after hafter => ?_
      rw [hafter.1, hafter.2]
      exact .modified_bind (.pure ⟨rfl, h.without path, nofun⟩)

/-! ## Writing scans -/

section Scanned

variable (builder : Builder) (reader : Reader)

private theorem nodes_foldl_applyScan (hnodup : paths.Nodup) (other : String) :
    ((paths.map (builder.scanOf reader)).foldl applyScan g).nodes.get? other =
      if other ∈ paths then (g.nodes.get? other).map (withScan (builder.scanOf reader other))
      else g.nodes.get? other := by
  induction paths generalizing g with
  | nil => rfl
  | cons path rest ih =>
      -- the scans that follow are of other files
      rw [List.nodup_cons] at hnodup
      rw [List.map_cons, List.foldl_cons, ih hnodup.2, applyScan_eq, scanOf_path]
      show (if other ∈ rest then ((g.nodes.modify path _).get? other).map _
        else (g.nodes.modify path _).get? other) = _
      rw [Table.get?_modify]
      by_cases heq : other = path
      · subst heq
        simp [hnodup.1]
      · simp [heq]

private theorem diagnostics_foldl_applyScan (scans : List Scan) :
    (scans.foldl applyScan g).diagnostics =
      g.diagnostics ++ scans.flatMap fun scan => scan.problem.toList := by
  induction scans generalizing g with
  | nil => simp
  | cons scan rest ih =>
      rw [List.foldl_cons, ih, applyScan_eq, List.flatMap_cons, List.append_assoc]

@[simp] theorem targets_applyScans (scans : List Scan) (path : String) :
    (applyScans scans g).targets path = g.targets path := by
  unfold applyScans
  generalize g.diagnostics.filter _ = kept
  induction scans generalizing g kept with
  | nil => rfl
  | cons scan rest ih => exact ih (g := Graph.modifyNode scan.path (withScan scan) g) _

theorem mem_nodes_applyScans {scans : List Scan} {path : String} :
    path ∈ (applyScans scans g).nodes ↔ path ∈ g.nodes := by
  unfold applyScans
  generalize g.diagnostics.filter _ = kept
  induction scans generalizing g kept with
  | nil => rfl
  | cons scan rest ih =>
      have hrest := ih (g := Graph.modifyNode scan.path (withScan scan) g)
        (kept ++ scan.problem.toList)
      exact hrest.trans Table.mem_modify

theorem balanced_applyScans (h : g.Balanced) (scans : List Scan) :
    (applyScans scans g).Balanced := by
  have hfold : ∀ (rest : List Scan) (state : Graph), state.Balanced →
      (rest.foldl applyScan state).Balanced := by
    intro rest
    induction rest with
    | nil => exact fun _ hstate => hstate
    | cons scan rest ih => exact fun _ hstate => ih _ (balanced_applyScan hstate scan)
  exact hfold scans _ { h with }

/-- Scans say nothing about files that are not scanned, and nothing that has to do with linking. -/
theorem said_problems_eq_nil {linking : Bool} (h : linking = true ∨ path ∉ paths) :
    said linking path ((paths.map (builder.scanOf reader)).flatMap fun scan =>
      scan.problem.toList) = [] := by
  refine Diagnostic.said_eq_nil fun d hd => ?_
  obtain ⟨scan, hscan, hd⟩ := List.mem_flatMap.mp hd
  obtain ⟨other, hother, rfl⟩ := List.mem_map.mp hscan
  obtain ⟨hpath, hlinking⟩ := scanOf_proper d (Option.mem_toList.mp hd)
  rw [scanOf_path] at hpath
  rintro ⟨rfl, rfl⟩
  rcases h with h | h
  · rw [hlinking] at h
    cases h
  · exact h (hpath ▸ hother)

theorem said_problems (hnodup : paths.Nodup) (hpath : path ∈ paths) :
    said false path ((paths.map (builder.scanOf reader)).flatMap fun scan =>
      scan.problem.toList) = (builder.scanOf reader path).problem.toList := by
  obtain ⟨before, after, rfl⟩ := List.append_of_mem hpath
  obtain ⟨-, hafter, hdisjoint⟩ := List.nodup_append.mp hnodup
  have hbefore : path ∉ before := fun hmem =>
    hdisjoint path hmem path (List.mem_cons_self ..) rfl
  have hself : said false path (builder.scanOf reader path).problem.toList =
      (builder.scanOf reader path).problem.toList := by
    refine Diagnostic.said_eq_self fun d hd => ?_
    have hproper := scanOf_proper d (Option.mem_toList.mp hd)
    rwa [scanOf_path] at hproper
  -- nothing is said about the file where the others are scanned
  have hnone {others : List String} (h : path ∉ others) : said false path
      ((others.map (builder.scanOf reader)).flatMap fun scan => scan.problem.toList) = [] :=
    said_problems_eq_nil builder reader (.inr h)
  rw [List.map_append, List.map_cons, List.flatMap_append, List.flatMap_cons, Diagnostic.said_append,
    Diagnostic.said_append, hnone hbefore, hself, hnone (List.nodup_cons.mp hafter).1,
    List.nil_append, List.append_nil]

/-- What was said before about files that are not scanned stays. -/
theorem said_applyScans (linking : Bool) (path : String) :
    said linking path (applyScans (paths.map (builder.scanOf reader)) g).diagnostics =
      (if path ∈ paths then [] else said linking path g.diagnostics) ++
        said linking path ((paths.map (builder.scanOf reader)).flatMap fun scan =>
          scan.problem.toList) := by
  unfold applyScans
  rw [diagnostics_foldl_applyScan, Diagnostic.said_append]
  congr 1
  split
  · rename_i hmem
    refine Diagnostic.said_filter_of_dropped fun d hpath _ => ?_
    rw [hpath, ← Bool.not_eq_true, List.all_eq_true]
    intro hall
    have hne := hall _ (List.mem_map.mpr ⟨path, hmem, rfl⟩)
    rw [scanOf_path, bne_self_eq_false] at hne
    cases hne
  · rename_i hnot
    refine Diagnostic.said_filter_of_kept fun d hpath _ => ?_
    rw [hpath, List.all_eq_true]
    intro scan hscan
    obtain ⟨other, hother, rfl⟩ := List.mem_map.mp hscan
    rw [scanOf_path, bne_iff_ne]
    exact fun heq => hnot (heq ▸ hother)

/-- What linking has said about scanned files is gone, and all else that it has said is there. -/
theorem said_linking_applyScans (path : String) :
    said true path (applyScans (paths.map (builder.scanOf reader)) g).diagnostics =
      if path ∈ paths then [] else said true path g.diagnostics := by
  rw [said_applyScans, said_problems_eq_nil builder reader (.inl rfl), List.append_nil]

/-- Where scanning has said nothing before, it has said afterwards what the scans say, in their order. -/
theorem scanning_applyScans (hsilent : Diagnostic.scanning g.diagnostics = []) (paths : List String) :
    Diagnostic.scanning (applyScans (paths.map (builder.scanOf reader)) g).diagnostics =
      paths.flatMap fun path => (builder.scanOf reader path).problem.toList := by
  have hkept : ∀ keep : Diagnostic → Bool, Diagnostic.scanning (g.diagnostics.filter keep) = [] := by
    intro keep
    rw [Diagnostic.scanning, List.filter_comm, ← Diagnostic.scanning, hsilent, List.filter_nil]
  unfold applyScans
  rw [diagnostics_foldl_applyScan, Diagnostic.scanning_append, hkept, List.nil_append, List.flatMap_map]
  refine Diagnostic.scanning_eq_self fun d hd => ?_
  obtain ⟨path, -, hproblem⟩ := List.mem_flatMap.mp hd
  exact (scanOf_proper d (Option.mem_toList.mp hproblem)).2

/-- Writing scans into a graph changes its record. -/
theorem Recorded.applyScans (h : Recorded record g) (hnodup : paths.Nodup)
    (hknown : ∀ path ∈ paths, path ∈ g.nodes) :
    Recorded (record.scan paths (builder.scanOf reader))
      (applyScans (paths.map (builder.scanOf reader)) g) where
  balanced := balanced_applyScans h.balanced _
  nodes path := by
    refine (nodes_foldl_applyScan builder reader hnodup path).trans ?_
    show (if path ∈ paths then (g.nodes.get? path).map _ else g.nodes.get? path) = _
    rw [h.nodes, Record.scan]
    split
    · rename_i hmem
      obtain ⟨scan, hscan⟩ := h.mem_nodes.mp (hknown path hmem)
      rw [hscan]
      rfl
    · rfl
  problems path := by
    rw [said_applyScans, Record.scan]
    split
    · rename_i hmem
      rw [said_problems builder reader hnodup hmem]
      rfl
    · rename_i hnot
      rw [said_problems_eq_nil builder reader (.inr hnot), List.append_nil]
      exact h.problems path

end Scanned

end ChangeImpact.Builder
