import ChangeImpact.Proofs.Builder.Tasks

/-!
# Runs of a builder

A builder takes turns with one graph, which is empty at first.  Between two turns the files may change,
so every turn has a reader of its own, and no reader has to succeed.

A turn that comes through leaves a graph that shows some record and is resolved (`Finished`).  Each task
ends with relinking either all files or those that it has scanned, and the latter only if no file has
come or gone; so the other files are still resolved.  By induction the graph is finished after every run
in which all turns have come through (`finished_of_takeTurns`), and what the edges and the diagnostics
say of a file can be read off its names (`edges_and_diagnostics_follow_names`).  Of a graph that is left
by turns some of which have failed there remains what every task keeps (`Kept.leftBy`).
-/

namespace ChangeImpact.Builder

open Diagnostic (said)

variable {builder : Builder} {g : Graph} {path : String}

/-- A task, and how files are read while it is carried out. -/
structure Turn where
  task : Task
  reader : Reader
  schedule : Schedule := .oneByOne

/-- The builder as it reads in a turn. -/
def during (builder : Builder) (turn : Turn) : Builder :=
  { builder with reader := turn.reader, pool := { builder.pool with schedule := turn.schedule } }

/-- Carries out the task of a turn. -/
def takeTurn (builder : Builder) (turn : Turn) : BuildStep Unit :=
  (builder.during turn).carryOut turn.task

/-- Takes turns one after another until one of them fails. -/
def takeTurns (builder : Builder) (turns : List Turn) : BuildStep Unit :=
  turns.forM builder.takeTurn

/-- The graph that turns leave of the empty one, also if some of them have failed. -/
def leftBy (builder : Builder) (turns : List Turn) : Graph :=
  turns.foldl (fun g turn => stateAfter (builder.takeTurn turn) g) ∅

/-- An invariant that every task keeps holds after each turn, whether or not it has come through. -/
theorem Kept.afterTurn {inv : Graph → Prop} (kept : Kept inv) (hg : inv g) (turn : Turn) :
    inv (stateAfter (builder.takeTurn turn) g) := by
  have hends := kept.careful_carryOut (builder.during turn) turn.task g hg
  exact hends.of_either (fun _ _ hgood => hgood) fun _ _ hspared => hspared.1

/-- Such an invariant holds of all graphs that turns leave. -/
theorem Kept.leftBy {inv : Graph → Prop} (kept : Kept inv) (builder : Builder) (turns : List Turn) :
    inv (builder.leftBy turns) := by
  have hrun : ∀ g, inv g →
      inv (turns.foldl (fun g turn => stateAfter (builder.takeTurn turn) g) g) := by
    induction turns with
    | nil =>
        intro g hg
        exact hg
    | cons turn rest ih =>
        intro g hg
        exact ih _ (kept.afterTurn hg turn)
  exact hrun ∅ kept.empty

/-! ## Finished graphs -/

/-- A graph as a builder leaves it when a task has come through. -/
structure Finished (builder : Builder) (g : Graph) : Prop where
  recorded : ∃ record, Recorded record g
  resolved : Resolved builder g

theorem finished_empty (builder : Builder) : Finished builder ∅ where
  recorded := ⟨_, recorded_empty⟩
  resolved _ := resolvedAt_of_not_mem Graph.balanced_empty Table.not_mem_empty rfl

/-- In which turn a file was linked does not matter, since no file is read for it. -/
theorem resolved_during {turn : Turn} :
    Resolved (builder.during turn) g ↔ Resolved builder g := by
  have hlinks : ∀ path, (builder.during turn).linksIn g path = builder.linksIn g path := by
    intro path
    simp only [linksIn, resolverFor, during]
  constructor
  · intro h path
    exact (h path).congr (hlinks path).symm rfl rfl
  · intro h path
    exact (h path).congr (hlinks path) rfl rfl

/-- A task that comes through leaves a finished graph, if it was given one. -/
theorem ends_carryOut (h : Finished builder g) (task : Task) :
    Ends (builder.carryOut task) g (fun _ after => Finished builder after) (fun _ _ => True) := by
  obtain ⟨⟨record, hrecorded⟩, hresolved⟩ := h
  cases task with
  | build files =>
      apply ((ends_demand id (builder.build files) g).mono (fun _ _ hgood => hgood.1)
        fun _ _ _ => trivial).bind
      intro built _ hbuild
      obtain ⟨hrecorded, hresolved, -⟩ := resolved_of_build hbuild
      exact .of_eq_ok rfl ⟨⟨_, hrecorded⟩, hresolved⟩
  | update path content =>
      exact (ends_updateFile hrecorded hresolved path content).mono
        (fun _ _ hgood => ⟨⟨_, hgood.1⟩, hgood.2⟩) fun _ _ _ => trivial
  | remove path =>
      apply ((ends_removeFile hrecorded hresolved path).mono (fun _ _ hgood => hgood.2)
        fun _ _ _ => trivial).bind
      intro _ after hafter
      exact .pure ⟨⟨_, hafter.1⟩, hafter.2⟩
  | apply changes =>
      apply (ends_applyChanges_of_recorded hrecorded changes).mono
      · rintro _ after ⟨all, taken, -, hsame, hpassed⟩
        refine ⟨⟨_, hpassed.recorded⟩, hpassed.resolved fun hall path _ => ?_⟩
        -- no file has come or gone, so the graph is still the one that was given
        rw [hsame hall]
        exact hresolved path
      · exact fun _ _ _ => trivial
  | refresh files =>
      exact (ends_refresh hrecorded hresolved files).mono
        (fun _ _ hgood => ⟨⟨_, hgood.1⟩, hgood.2.1⟩) fun _ _ _ => trivial

theorem finished_of_takeTurns {turns : List Turn}
    (hrun : builder.takeTurns turns ∅ = .ok ⟨⟩ g) : Finished builder g := by
  -- each turn reads in its own way, but being resolved does not depend on that
  have hround : ∀ (turn : Turn) (rest : List Turn) (state : Graph), Finished builder state →
      Ends (builder.takeTurn turn) state (fun _ after => Finished builder after)
        (fun _ _ => True) := by
    intro turn rest state hstate
    have hduring : Finished (builder.during turn) state :=
      ⟨hstate.recorded, resolved_during.mpr hstate.resolved⟩
    apply (ends_carryOut hduring turn.task).imp
    intro _ after hafter
    exact ⟨hafter.recorded, resolved_during.mp hafter.resolved⟩
  exact (Ends.forM (fun _ => Finished builder) hround (finished_empty builder)).of_ok hrun

/-! ## What is said of a file -/

/-- Whether a name should lead to a file and leads to none. -/
def leadsNowhere (resolver : Resolver) (path name : String) : Bool :=
  match resolver.resolve name path with
  | .ok none => !resolver.isExternal name
  | _ => false

theorem unresolved_links {resolver : Resolver} {specifiers : List String}
    (h : (links resolver path specifiers).fault = none) :
    (links resolver path specifiers).unresolved =
      (specifiers.filter (leadsNowhere resolver path)).map (unresolvedName path) := by
  induction specifiers with
  | nil => rfl
  | cons name rest ih =>
      have hrest : (links resolver path rest).fault = none :=
        fault_links_eq_none_iff.mpr fun other hother =>
          fault_links_eq_none_iff.mp h other (List.mem_cons_of_mem _ hother)
      obtain ⟨target?, htarget⟩ := fault_links_eq_none_iff.mp h name (List.mem_cons_self ..)
      rw [links, htarget, List.filter_cons, leadsNowhere, htarget]
      cases target? with
      | some target => exact ih hrest
      | none =>
          cases resolver.isExternal name with
          | true => exact ih hrest
          | false => exact congrArg (List.cons _) (ih hrest)

theorem Finished.mem_nodes_of_mem_diagnostics (h : Finished builder g) {d : Diagnostic}
    (hd : d ∈ g.diagnostics) : d.path ∈ g.nodes := by
  obtain ⟨record, hrecorded⟩ := h.recorded
  by_contra hpath
  -- what is said of a file concerns its links or its scan, and without a node it has neither
  have hsaid : d ∈ said d.isLinking d.path g.diagnostics := Diagnostic.mem_said.mpr ⟨hd, rfl, rfl⟩
  have hnone : said d.isLinking d.path g.diagnostics = [] := by
    cases d.isLinking with
    | true =>
        have hnames : namesIn g d.path = [] := by
          rw [namesIn, Table.get?_eq_none_iff.mpr hpath]
          rfl
        rw [(h.resolved d.path).unresolved, linksIn, hnames]
        rfl
    | false =>
        rw [hrecorded.problems, hrecorded.not_mem_nodes.mp hpath]
        rfl
  rw [hnone] at hsaid
  cases hsaid

/-- After every run in which all turns have come through:

* a node has the kind that its path shows;
* every name in it has an answer by the files that there are now, its edges lead to the answers that are
  files, and the names that should lead to a file and lead to none are reported, in their order and as
  often as they occur;
* nothing is said about files without a node. -/
theorem edges_and_diagnostics_follow_names {turns : List Turn}
    (hrun : builder.takeTurns turns ∅ = .ok ⟨⟩ g) :
    (∀ path node, g.nodes.get? path = some node →
      node.kind = FileKind.ofPath path ∧
      (∀ name ∈ node.specifiers, ∃ target?,
        (builder.resolverFor g).resolve name path = .ok target?) ∧
      (∀ target, target ∈ g.targets path ↔ ∃ name ∈ node.specifiers,
        (builder.resolverFor g).resolve name path = .ok (some target)) ∧
      g.diagnostics.filter (fun d => d.path == path && d.kind == .unresolved) =
        (node.specifiers.filter (leadsNowhere (builder.resolverFor g) path)).map
          (unresolvedName path)) ∧
    ∀ d ∈ g.diagnostics, d.path ∈ g.nodes := by
  have hfinished := finished_of_takeTurns hrun
  refine ⟨fun path node hnode => ?_, fun d hd => hfinished.mem_nodes_of_mem_diagnostics hd⟩
  obtain ⟨record, hrecorded⟩ := hfinished.recorded
  have hresolved := hfinished.resolved path
  have hlinks : builder.linksIn g path = links (builder.resolverFor g) path node.specifiers := by
    rw [linksIn, namesIn, hnode]
    rfl
  have hanswered : (links (builder.resolverFor g) path node.specifiers).fault = none :=
    hlinks ▸ hresolved.answered
  have hanswers := fault_links_eq_none_iff.mp hanswered
  refine ⟨hrecorded.kinded path node hnode, hanswers, fun target => ?_, ?_⟩
  · calc target ∈ g.targets path
        ↔ target ∈ (builder.linksIn g path).targets := hresolved.mem_targets target
      _ ↔ target ∈ (links (builder.resolverFor g) path node.specifiers).targets := by rw [hlinks]
      _ ↔ _ := mem_targets_links hanswers
  · calc g.diagnostics.filter (fun d => d.path == path && d.kind == .unresolved)
        = said true path g.diagnostics := by simp [said, Diagnostic.isLinking]
      _ = (builder.linksIn g path).unresolved := hresolved.unresolved
      _ = (links (builder.resolverFor g) path node.specifiers).unresolved := by rw [hlinks]
      _ = _ := unresolved_links hanswered

/-- A file that imports itself, a file outside the project and a package is built, updated when it cannot
be read, refreshed when it can, and scanned for a change; other files are deleted that were never there. -/
theorem edges_and_diagnostics_follow_names_of_self_import :
    ∃ g node, Builder.takeTurns { reader := .ofText "" }
        [⟨.build (.contents [("a.ts", "import './a'; import '../x'; import 'pkg'")]), .ofText "",
            .oneByOne⟩,
          ⟨.update "./a.ts" none, .ofTable ∅, .oneByOne⟩,
          ⟨.refresh (.paths ["a.ts"]), .ofText "import './a'; import '../x'; import 'pkg'", .oneByOne⟩,
          ⟨.apply [⟨"b.ts", .deleted, none⟩, ⟨"a.ts", .modified, none⟩],
            .ofText "import './a'; import '../x'; import 'pkg'", .oneByOne⟩,
          ⟨.remove "c.ts", .ofTable ∅, .oneByOne⟩] ∅ = .ok ⟨⟩ g ∧
      g.nodes.get? "a.ts" = some node ∧ "a.ts" ∈ g.targets "a.ts" ∧
      g.diagnostics.filter (fun d => d.path == "a.ts" && d.kind == .unresolved) =
        [unresolvedName "a.ts" "../x"] := by
  let builder : Builder := { reader := .ofText "" }
  let text := "import './a'; import '../x'; import 'pkg'"
  let turns : List Turn :=
    [⟨.build (.contents [("a.ts", text)]), .ofText "", .oneByOne⟩,
      ⟨.update "./a.ts" none, .ofTable ∅, .oneByOne⟩,
      ⟨.refresh (.paths ["a.ts"]), .ofText text, .oneByOne⟩,
      ⟨.apply [⟨"b.ts", .deleted, none⟩, ⟨"a.ts", .modified, none⟩], .ofText text, .oneByOne⟩,
      ⟨.remove "c.ts", .ofTable ∅, .oneByOne⟩]
  let g := stateAfter (builder.takeTurns turns) ∅
  have hleft : faultOf? (builder.takeTurns turns) ∅ = none ∧ g.nodes.keys = ["a.ts"] ∧
      (g.nodes.get? "a.ts").map (·.specifiers) = some ["./a", "../x", "pkg"] := by decide +kernel
  obtain ⟨hdone, hkeys, hspecifiers⟩ := hleft
  obtain ⟨⟨⟩, hrun⟩ := exists_of_faultOf?_eq_none hdone
  obtain ⟨node, hnode, hnames⟩ := Option.map_eq_some_iff.mp hspecifiers
  have hresolver : builder.resolverFor g = .ofFiles ["a.ts"] := by rw [resolverFor, hkeys]
  obtain ⟨hnodes, -⟩ := edges_and_diagnostics_follow_names hrun
  obtain ⟨-, -, htargets, hunresolved⟩ := hnodes "a.ts" node hnode
  rw [hresolver, hnames] at hunresolved
  refine ⟨g, node, hrun, hnode, (htargets "a.ts").mpr ⟨"./a", ?_, ?_⟩, hunresolved.trans ?_⟩
  · rw [hnames]
    exact List.mem_cons_self ..
  · rw [hresolver]
    decide +kernel
  · decide +kernel

end ChangeImpact.Builder
