import ChangeImpact.Proofs.Builder.Changes
import ChangeImpact.Proofs.Builder.Refreshing
import ChangeImpact.Proofs.Graph.History

/-!
# The tasks of a builder

A builder is asked for five things (`Task`), and all of them are made of the same few steps: a node is
added or gets its kind, a node is dropped with what has been said about it, scans are written, and files
are linked.  So an invariant that each of these steps keeps (`Kept`) is kept by every task, also where
the task fails half-way (`Kept.careful_carryOut`).  Two invariants are of this kind: that a graph is
balanced (`kept_balanced`), and that it shows some record (`kept_recorded`).

A step that is careful with an invariant also never fails with a violation.  This is not for want of
requests that a graph would refuse.  Nodes are only added where there is none, the edges that a file
gets lead to answers of the resolver, which are files of the graph, and the check at the end finds a
balanced graph.  Together with the histories of a graph this gives `no_violation_after_any_history`.
-/

namespace ChangeImpact.Builder

variable {builder : Builder} {inv : Graph → Prop} {g : Graph} {path : String} {paths : List String}
  {pool : ReaderPool} {reader : Reader}

/-- What a builder is asked for. -/
inductive Task where
  /-- A new graph in place of the old one. -/
  | build (files : FileSet)
  | update (path : String) (content : Option String)
  | remove (path : String)
  | apply (changes : List Change)
  | refresh (files : FileSet)

/-- Carries out a task.  If the new graph cannot be built, the old one stays. -/
def carryOut (builder : Builder) : Task → BuildStep Unit
  | .build files => do set (← demand id (builder.build files))
  | .update path content => builder.updateFile path content
  | .remove path => do
    let _ ← builder.removeFile path
  | .apply changes => builder.applyChanges changes
  | .refresh files => builder.refresh files

/-! ## Careful steps -/

/-- The invariant is still there, and no violation has been found. -/
def Spared (inv : Graph → Prop) (fault : BuildError) (after : Graph) : Prop :=
  inv after ∧ ∀ cause, fault ≠ .graph (.violation cause)

/-- A step keeps an invariant, whether it comes through or fails, and it does not fail with a
violation. -/
def Careful {α : Type} (inv : Graph → Prop) (step : BuildStep α) : Prop :=
  ∀ g, inv g → Ends step g (fun _ after => inv after) (Spared inv)

namespace Careful

variable {α β ι : Type} {step : BuildStep α}

theorem pure (value : α) : Careful inv (Pure.pure value) := fun _ hg => Ends.pure hg

theorem bind {next : α → BuildStep β} (h : Careful inv step)
    (hnext : ∀ value, Careful inv (next value)) : Careful inv (step >>= next) := by
  intro g hg
  apply (h g hg).bind
  intro value after hafter
  exact hnext value after hafter

theorem forM {round : ι → BuildStep Unit} (h : ∀ item, Careful inv (round item))
    (items : List ι) : Careful inv (items.forM round) := by
  intro g hg
  apply Ends.forM (fun _ state => inv state)
  · intro item rest state hstate
    exact h item state hstate
  · exact hg

theorem mapM {round : ι → BuildStep α} (h : ∀ item, Careful inv (round item))
    (items : List ι) : Careful inv (items.mapM round) := by
  intro g hg
  apply Ends.mapM (fun _ _ state => inv state)
  · intro done item rest results state _ hstate
    exact h item state hstate
  · exact hg

/-- What is kept of a list is a part of it. -/
theorem ends_filterM {keep : ι → BuildStep Bool} (h : ∀ item, Careful inv (keep item))
    (items : List ι) (hg : inv g) :
    Ends (items.filterM keep) g (fun kept after => kept.Sublist items ∧ inv after) (Spared inv) := by
  apply Ends.filterM (fun done kept state => kept.Sublist done ∧ inv state)
  · rintro done item rest kept state - ⟨hsub, hstate⟩
    apply (h item state hstate).imp
    intro answer after hafter
    refine ⟨?_, hafter⟩
    cases answer with
    | true => exact hsub.append (.refl [item])
    | false => exact hsub.trans (List.sublist_append_left done [item])
  · exact ⟨.slnil, hg⟩

end Careful

/-- A name without an answer is no violation. -/
theorem LosesAlias.spared {fault : BuildError} (h : LosesAlias builder fault) (hg : inv g) :
    Spared inv fault g := by
  refine ⟨hg, ?_⟩
  rw [h.1]
  exact nofun

/-! ## Invariants that every task keeps -/

/-- An invariant that is kept by each of the steps of which tasks are made. -/
structure Kept (inv : Graph → Prop) : Prop where
  empty : inv ∅
  balanced : ∀ {g}, inv g → g.Balanced
  withNode : ∀ {g path}, inv g → path ∉ g.nodes →
    inv (g.withNode path (FileKind.ofPath path) .null)
  withKind : ∀ {g path}, inv g →
    inv (Graph.modifyNode path ({ · with kind := FileKind.ofPath path }) g)
  without : ∀ {g path}, inv g → inv
    { g.without path with diagnostics := (g.without path).diagnostics.filter (·.path != path) }
  scanned : ∀ {g after builder pool reader paths scans}, inv g → paths.Nodup →
    scanAll builder pool reader paths g = .ok scans after → inv (applyScans scans g)
  relinked : ∀ {g after}, inv g → Relinked g after → inv after

namespace Kept

variable (kept : Kept inv)

include kept

theorem careful_ensureNode (path : String) : Careful inv (ensureNode path) := by
  intro g hg
  unfold ensureNode
  apply Ends.get_bind
  by_cases hpath : path ∈ g.nodes
  · -- a node that is there only gets the kind that its path shows
    have hnode : g.hasNode path = true := Graph.hasNode_iff.mpr hpath
    simp only [hnode, if_true]
    exact .modified_bind (.pure (kept.withKind hg))
  · have hnode : g.hasNode path = false := by
      rwa [← Bool.not_eq_true, Graph.hasNode_iff]
    have hadded : Ends (perform (Graph.addNode path (FileKind.ofPath path))) g
        (fun _ after => inv after) (Spared inv) :=
      .of_eq_ok (perform_eq_ok (Graph.addNode_of_not_mem hpath _ _)) (kept.withNode hg hpath)
    simp only [hnode, Bool.false_eq_true, if_false]
    exact hadded.bind fun _ _ hafter => .pure hafter

theorem careful_dropNode (path : String) : Careful inv (dropNode path) := by
  intro g hg
  unfold dropNode
  by_cases hpath : path ∈ g.nodes
  · obtain ⟨node, hnode⟩ := (kept.balanced hg).removeNode_of_mem hpath
    have hremoved : Ends (perform (Graph.removeNode path)) g
        (fun removed after => removed = some node ∧ after = g.without path) (Spared inv) :=
      .of_eq_ok (perform_eq_ok hnode) ⟨rfl, rfl⟩
    apply hremoved.bind
    rintro _ _ ⟨rfl, rfl⟩
    exact .modified_bind (.pure (kept.without hg))
  · have hremoved : Ends (perform (Graph.removeNode path)) g
        (fun removed after => removed = none ∧ after = g) (Spared inv) :=
      .of_eq_ok (perform_eq_ok (Graph.removeNode_of_not_mem hpath)) ⟨rfl, rfl⟩
    apply hremoved.bind
    rintro _ _ ⟨rfl, rfl⟩
    exact .pure hg

theorem careful_check : Careful inv check := fun _ hg => ends_check (kept.balanced hg) hg

theorem careful_linkAll (builder : Builder) : Careful inv builder.linkAll := by
  intro g hg
  apply (ends_linkAll builder (kept.balanced hg)).mono
  · intro _ after hgood
    exact kept.relinked hg hgood.1
  · intro fault after hbad
    exact hbad.2.losesAlias.spared (kept.relinked hg hbad.1)

/-- The passes look at the graph again when the scan has come through: only then do all scanned files
have nodes, so that they can be linked. -/
theorem careful_passes (builder : Builder) (pool : ReaderPool) (reader : Reader) (all : Bool)
    (hnodup : paths.Nodup) : Careful inv (builder.passes pool reader all paths) := by
  intro g hg
  have hscan : Ends (builder.scanAll pool reader paths) g
      (fun scans after => after = g ∧ inv (applyScans scans g) ∧ ∀ path ∈ paths, path ∈ g.nodes)
      (Spared inv) := by
    have hends := ends_scanAll_unchanged builder pool reader g paths
    cases hrun : builder.scanAll pool reader paths g with
    | ok scans after =>
        obtain ⟨rfl, hknown⟩ := hends.of_ok hrun
        exact .of_eq_ok hrun ⟨rfl, kept.scanned hg hnodup hrun, hknown⟩
    | error fault after =>
        obtain ⟨rfl, hfault⟩ := hends.of_error hrun
        exact .of_eq_error hrun ⟨hg, hfault⟩
  apply hscan.bind
  rintro scans after ⟨rfl, hscanned, hknown⟩
  apply Ends.modified_bind
  have hpaths : ∀ path ∈ paths, path ∈ (applyScans scans after).nodes := fun path hpath =>
    mem_nodes_applyScans.mpr (hknown path hpath)
  have hrelinked : Ends (builder.relink all paths) (applyScans scans after)
      (fun _ after => inv after) (Spared inv) :=
    (ends_relink builder (kept.balanced hscanned) all hpaths).mono
      (fun _ _ hgood => kept.relinked hscanned hgood.1)
      fun _ _ hbad => hbad.2.losesAlias.spared (kept.relinked hscanned hbad.1)
  exact hrelinked.bind fun _ after hafter => kept.careful_check after hafter

/-! ### The tasks -/

theorem careful_updateFile (path : String) (content : Option String) :
    Careful inv (builder.updateFile path content) := by
  by_cases hempty : builder.key path = ""
  · rw [updateFile_of_eq content hempty]
    exact .pure ()
  · rw [updateFile_of_ne content hempty]
    apply (kept.careful_ensureNode _).bind
    intro added
    exact kept.careful_passes builder _ _ added (List.nodup_singleton _)

theorem careful_removeFile (path : String) : Careful inv (builder.removeFile path) := by
  unfold removeFile
  apply (kept.careful_dropNode _).bind
  intro dropped
  cases dropped with
  | false => exact .pure false
  | true =>
      apply (kept.careful_linkAll builder).bind
      intro _
      exact kept.careful_check.bind fun _ => .pure true

theorem careful_enter (key : String) (dropped : Bool) : Careful inv (enter key dropped) := by
  unfold enter
  split
  · exact .pure _
  · exact (kept.careful_ensureNode key).bind fun _ => .pure _

theorem careful_applyChange (change : Change) : Careful inv (builder.applyChange change) := by
  -- a deletion only drops, a renaming drops and enters, and all other changes only enter
  by_cases hdeleted : change.operation = .deleted
  · rw [applyChange_of_deleted hdeleted]
    exact (kept.careful_dropNode _).bind fun _ => .pure _
  by_cases hformer : change.operation = .renamed → change.formerPath? = none
  · rw [applyChange_of_kept hdeleted hformer]
    exact kept.careful_enter _ _
  · obtain ⟨hrenamed, hsome⟩ := Classical.not_imp.mp hformer
    obtain ⟨former, hformer⟩ := Option.ne_none_iff_exists'.mp hsome
    rw [applyChange_of_renamed hrenamed hformer]
    exact (kept.careful_dropNode _).bind fun dropped => kept.careful_enter _ dropped

theorem careful_applyChanges (changes : List Change) :
    Careful inv (builder.applyChanges changes) := by
  unfold applyChanges
  apply (Careful.mapM kept.careful_applyChange changes).bind
  intro outcomes
  exact kept.careful_passes builder _ _ _ (PathSet.nodup_toList _)

/-- Selecting picks every file at most once. -/
theorem ends_select (wanted : PathSet)
    (times : String → Except DiskFault (Option Timestamp)) (hg : inv g) :
    Ends (select wanted times) g (fun chosen after => chosen.2.Nodup ∧ inv after) (Spared inv) := by
  unfold select
  apply Ends.get_bind
  have hdrop : ∀ path, Careful inv (do let _ ← dropNode path) := fun path =>
    (kept.careful_dropNode path).bind fun _ => .pure _
  apply (Careful.forM hdrop _ g hg).bind
  intro _ dropped hdropped
  apply (Careful.ends_filterM kept.careful_ensureNode wanted.toList hdropped).bind
  rintro added ensured ⟨-, hensured⟩
  -- neither a node that is missing nor a time that is refused is a violation
  have hcompare : ∀ path, Careful inv (do
      if added.contains path then return true
      let node ← demandNode path
      return isStale node.lastModified (← demand .disk (times path))) := by
    intro path state hstate
    split
    · exact .pure hstate
    · have hnode : Ends (demandNode path) state (fun _ after => inv after) (Spared inv) := by
        apply (ends_demandNode state path).mono
        · rintro node _ ⟨-, rfl⟩
          exact hstate
        · rintro fault _ ⟨rfl, -, rfl⟩
          exact ⟨hstate, nofun⟩
      apply hnode.bind
      intro node found hfound
      have htime : Ends (demand .disk (times path)) found (fun _ after => inv after)
          (Spared inv) := by
        apply (ends_demand .disk (times path) found).mono
        · rintro time _ ⟨-, rfl⟩
          exact hfound
        · rintro fault _ ⟨rfl, cause, -, rfl⟩
          exact ⟨hfound, nofun⟩
      exact htime.bind fun _ _ hafter => .pure hafter
  apply (Careful.ends_filterM hcompare wanted.toList hensured).bind
  rintro stale after ⟨hsub, hafter⟩
  exact .pure ⟨wanted.nodup_toList.sublist hsub, hafter⟩

theorem careful_refresh (files : FileSet) : Careful inv (builder.refresh files) := by
  intro g hg
  rw [refresh_eq]
  apply (kept.ends_select _ _ hg).bind
  rintro chosen after ⟨hnodup, hafter⟩
  exact kept.careful_passes builder _ _ _ hnodup after hafter

theorem ends_buildSteps (files : FileSet) :
    Ends (builder.buildSteps files) ∅ (fun _ after => inv after) (Spared inv) := by
  -- the keys are distinct, so no node is added twice
  have hnodup := (builder.keysOf files).nodup_toList
  have hadded := ends_addNodes inv kept.empty (fun _ _ => kept.withNode) hnodup
  apply hadded.total.bind
  rintro _ after ⟨hafter, -⟩
  exact kept.careful_passes builder _ _ true hnodup after hafter

theorem careful_build (files : FileSet) : Careful inv (builder.carryOut (.build files)) := by
  intro g hg
  have hbuild : Ends (builder.buildSteps files) ∅ (fun _ after => inv after) (Spared inv) :=
    kept.ends_buildSteps files
  show Ends (demand id (builder.build files) >>= set) g _ _
  -- the new graph grows on the side, and takes the place of the old one when it is complete
  cases hsteps : builder.buildSteps files ∅ with
  | ok _ built =>
      have hok : builder.build files = .ok built := by rw [build, hsteps]
      rw [hok]
      exact .of_eq_ok rfl (hbuild.of_ok hsteps)
  | error fault built =>
      have herror : builder.build files = .error fault := by rw [build, hsteps]
      rw [herror]
      exact .of_eq_error rfl ⟨hg, (hbuild.of_error hsteps).2⟩

/-- Whatever a builder is asked for, it is careful with the invariant. -/
theorem careful_carryOut (builder : Builder) (task : Task) : Careful inv (builder.carryOut task) := by
  cases task with
  | build files => exact kept.careful_build files
  | update path content =>
      show Careful inv (builder.updateFile path content)
      exact kept.careful_updateFile path content
  | remove path => exact (kept.careful_removeFile path).bind fun _ => .pure ()
  | apply changes => exact kept.careful_applyChanges changes
  | refresh files => exact kept.careful_refresh files

end Kept

/-! ## Two such invariants -/

theorem kept_balanced : Kept Graph.Balanced where
  empty := Graph.balanced_empty
  balanced hg := hg
  withNode hg hpath := hg.withNode hpath _ _
  withKind hg := hg.modifyNode (fun _ => rfl) fun _ => ⟨rfl, rfl⟩
  without hg := { hg.without _ with }
  scanned hg _ _ := balanced_applyScans hg _
  relinked _ h := h.balanced

theorem kept_recorded : Kept fun g => ∃ record, Recorded record g where
  empty := ⟨_, recorded_empty⟩
  balanced := fun ⟨_, hg⟩ => hg.balanced
  withNode := fun ⟨_, hg⟩ hpath => ⟨_, hg.withNode (hg.not_mem_nodes.mp hpath)⟩
  withKind := fun ⟨record, hg⟩ => ⟨record, (hg.withKind_eq _).symm ▸ hg⟩
  without := fun ⟨_, hg⟩ => ⟨_, hg.without _⟩
  scanned := by
    rintro g after builder pool reader paths scans ⟨record, hg⟩ hnodup hrun
    obtain ⟨rfl, -, hknown, -⟩ := (ends_scanAll builder pool reader hg.kinded paths).of_ok hrun
    exact ⟨_, hg.applyScans builder reader hnodup hknown⟩
  relinked := fun ⟨_, hg⟩ h => ⟨_, hg.relinked h⟩

/-! ## Graphs with any history -/

/-- Whatever a graph has been asked for since it was empty, and whatever it has refused:

* its maps have the same keys, which are the ends of all edges, and are inverse to each other;
* every node shows the entries of the maps, and the graph passes its check;
* if it refuses a request half-way, it passes its check again;
* no builder that is asked for anything finds a violation in it. -/
theorem no_violation_after_any_history (requests : List Graph.Request) :
    let g := Graph.history requests
    (∀ path, (path ∈ g.edges ↔ path ∈ g.nodes) ∧ (path ∈ g.reverseEdges ↔ path ∈ g.nodes)) ∧
      (∀ source target, target ∈ g.targets source ↔ source ∈ g.importers target) ∧
      (∀ source target, target ∈ g.targets source → source ∈ g.nodes ∧ target ∈ g.nodes) ∧
      (∀ path node, g.nodes.get? path = some node →
        g.edges.get? path = some (g.dependencies path node) ∧
          g.reverseEdges.get? path = some (g.dependents path node)) ∧
      g.check = .ok () ∧
      (∀ request fault after, Graph.carryOut request g = .error fault after →
        after.check = .ok ()) ∧
      ∀ (builder : Builder) (task : Task) (fault : BuildError) (after : Graph),
        builder.carryOut task g = .error fault after →
          ∀ cause, fault ≠ .graph (.violation cause) := by
  intro g
  have hg : g.Balanced := Graph.balanced_history requests
  refine ⟨fun path => ⟨hg.mem_edges path, hg.mem_reverseEdges path⟩, hg.inverse, ?_, ?_,
    hg.check_eq_ok, ?_, ?_⟩
  · intro source target hedge
    exact ⟨hg.source_mem hedge, hg.inside source target hedge⟩
  · intro path node hnode
    exact hg.rows_eq hnode
  · intro request fault after hrefused
    have hafter : after.Balanced := ((hg.ends_carryOut request).of_error hrefused).1
    exact hafter.check_eq_ok
  · intro builder task fault after hfailed
    have hends := kept_balanced.careful_carryOut builder task g hg
    exact (hends.of_error hfailed).2

/-- A file is to get two edges, the second of them to a file that is not there.  By then it has lost its
old edge and has got the first of the new ones. -/
theorem no_violation_after_refused_replacement :
    let g := Graph.history [.addNode "a.ts" .source .null, .addNode "b.ts" .source .null,
      .addEdge "a.ts" "a.ts"]
    ∃ after, Graph.carryOut (.setDependencies "a.ts" ["b.ts", "c.ts"]) g =
        .error (.violation (.unknownEnd "a.ts" "c.ts")) after ∧
      after.targets "a.ts" = .ofList ["b.ts"] ∧ after.check = .ok () := by
  intro g
  let request : Graph.Request := .setDependencies "a.ts" ["b.ts", "c.ts"]
  have hfault : faultOf? (Graph.carryOut request) g =
      some (.violation (.unknownEnd "a.ts" "c.ts")) := by decide +kernel
  have hrefused := eq_error_of_faultOf? hfault
  obtain ⟨-, -, -, -, -, hcheck, -⟩ := no_violation_after_any_history
    [.addNode "a.ts" .source .null, .addNode "b.ts" .source .null, .addEdge "a.ts" "a.ts"]
  exact ⟨_, hrefused, by decide +kernel, hcheck request _ _ hrefused⟩

end ChangeImpact.Builder
