import ChangeImpact.Graph.Document
import ChangeImpact.Proofs.Graph.History
import ChangeImpact.Proofs.Graph.Replay

/-!
# Which documents are read

A document lists nodes and, for some files, targets (`Lists`).  It may say more than that, leave out what
can be left out, list the targets of a file in several places, and list a target twice.  It is refused if
its listing has another version or makes no sense (`Sensible`): a path twice, a kind that there is not, or
an edge that ends outside.  Otherwise it is read as the graph that the listing describes
(`ofDocument_of_lists`).

Reading is two loops, one over the nodes and one over the rows.  Each has an invariant that holds as long as
the listing makes sense up to there, so a loop that stops has found what makes none
(`ends_readNodes`, `EdgesAdded.ends_readRows`).

A balanced graph is described by the listing of its own document, and this listing makes sense
(`Balanced.sensible_listing`).  So what has been read and written is read as the same graph again.
-/

namespace ChangeImpact.Graph

variable {g h state : Graph} {path : String} {value document : Json} {step : GraphStep Unit}

/-! ## Steps of reading -/

@[simp] theorem liftRead_ok {α β : Type} (value : α) (next : α → ReadStep β) :
    (liftRead (.ok value) >>= next) = next value := rfl

theorem liftStep_bind (step : GraphStep Unit) (next : Unit → GraphStep Unit) :
    liftStep (step >>= next) = (liftStep step >>= fun value => liftStep (next value)) := by
  funext state
  cases hstep : step state with
  | ok value after => simp only [liftStep, bind, EStateM.bind, hstep]
  | error fault after =>
      cases fault with
      | violation cause => simp only [liftStep, bind, EStateM.bind, hstep]
      | missingEntry key => simp only [liftStep, bind, EStateM.bind, hstep]

theorem liftStep_forM {ι : Type} (items : List ι) (round : ι → GraphStep Unit) :
    liftStep (items.forM round) = items.forM fun item => liftStep (round item) := by
  induction items with
  | nil => rfl
  | cons item rest ih =>
      show liftStep (round item >>= fun _ => rest.forM round) = _
      rw [liftStep_bind, ih]
      rfl

/-! ## Values of a document -/

theorem fieldsOf_object {κ : Type} (fields : List (String × Json)) :
    (fieldsOf (.object fields) : Except (DocumentFault κ) _) = .ok fields := rfl

theorem pathOf_string (text : String) : Reading.texts.pathOf (.string text) = .ok text := rfl

theorem specifierOf_mapM (texts : List String) :
    (texts.map Json.string).mapM Reading.texts.specifierOf = .ok texts := by
  induction texts with
  | nil => rfl
  | cons text texts ih => rw [List.map_cons, List.mapM_cons, ih]; rfl

theorem kindNamed_name {κ : Type} (kind : FileKind) :
    (kindNamed (.string kind.name) : Except (DocumentFault κ) FileKind) = .ok kind := by
  cases kind with
  | source => rfl
  | test => rfl
  | config => rfl
  | asset => rfl

/-! ## Listings -/

/-- A node as a document lists it.  Everything but the path may be left out. -/
structure ListedNode where
  path : String
  kind : Option Json := none
  lastModified : Option Json := none
  specifiers : Option (List String) := none

/-- Targets that a document lists for a file. -/
structure ListedRow where
  source : String
  targets : List String

/-- What a document lists. -/
structure Listing where
  version : Option Json
  nodes : List ListedNode
  rows : List ListedRow

/-- A value is an object that lists a node. -/
def ListsNode (value : Json) (node : ListedNode) : Prop :=
  ∃ fields, value = .object fields ∧
    Json.field? fields "path" = some (.string node.path) ∧
    Json.field? fields "type" = node.kind ∧
    Json.field? fields "last_modified" = node.lastModified ∧
    Json.field? fields "specifiers" = node.specifiers.map jsonTexts

/-- A value is an object that lists targets. -/
def ListsRow (value : Json) (row : ListedRow) : Prop :=
  ∃ fields, value = .object fields ∧
    Json.field? fields "from" = some (.string row.source) ∧
    Json.field? fields "to" = some (jsonTexts row.targets)

namespace ListedNode

/-- The kind of a listed node is one that there is. -/
def Known (listed : ListedNode) : Prop :=
  ∀ value, listed.kind = some value → ∃ kind : FileKind, value = .string kind.name

/-- A node has what is listed for it, and the usual where nothing is listed. -/
structure Describes (listed : ListedNode) (node : FileNode) : Prop where
  path : node.path = listed.path
  kind : listed.kind.getD (.string FileKind.source.name) = .string node.kind.name
  lastModified : node.lastModified = listed.lastModified.getD .null
  specifiers : node.specifiers = listed.specifiers.getD []
  attached : node.ownDependencies = none ∧ node.ownDependents = none

end ListedNode

namespace Listing

/-- The paths of the listed nodes. -/
def paths (listing : Listing) : List String := listing.nodes.map ListedNode.path

/-- The version is the one that is read, as a number. -/
def Current (listing : Listing) : Prop :=
  ∃ version, listing.version = some version ∧ version.same (.int documentVersion) = true

/-- A graph has exactly what is listed. -/
structure Describes (listing : Listing) (g : Graph) : Prop where
  nodes : ∀ path node, g.nodes.get? path = some node ↔
    ∃ listed ∈ listing.nodes, listed.path = path ∧ listed.Describes node
  mem_targets : ∀ source target, target ∈ g.targets source ↔
    ∃ row ∈ listing.rows, row.source = source ∧ target ∈ row.targets
  mem_importers : ∀ source target, source ∈ g.importers target ↔
    ∃ row ∈ listing.rows, row.source = source ∧ target ∈ row.targets
  balanced : g.Balanced
  diagnostics : g.diagnostics = []

end Listing

/-! ## Listed nodes -/

namespace ListedNode

variable {listed : ListedNode}

/-- The kind that is named, if it is known. -/
def kind? (listed : ListedNode) : Except DocumentFault FileKind :=
  kindNamed (listed.kind.getD (.string FileKind.source.name))

/-- The node that is listed, with a given kind. -/
def node (listed : ListedNode) (kind : FileKind) : FileNode :=
  { path := listed.path, kind, lastModified := listed.lastModified.getD .null
    specifiers := listed.specifiers.getD [] }

theorem describes_iff {node : FileNode} : listed.Describes node ↔
    ∃ kind : FileKind, listed.kind.getD (.string FileKind.source.name) = .string kind.name ∧
      node = listed.node kind := by
  constructor
  · intro h
    refine ⟨node.kind, h.kind, ?_⟩
    obtain ⟨hpath, -, htime, hnames, hdependencies, hdependents⟩ := h
    cases node
    simp_all [ListedNode.node]
  · rintro ⟨kind, hkind, rfl⟩
    exact ⟨rfl, hkind, rfl, rfl, rfl, rfl⟩

theorem kind?_eq_ok_iff {kind : FileKind} :
    listed.kind? = .ok kind ↔ listed.kind.getD (.string FileKind.source.name) = .string kind.name := by
  unfold kind?
  generalize listed.kind.getD (.string FileKind.source.name) = value
  constructor
  · intro h
    cases value with
    | string name =>
        unfold kindNamed at h
        cases hfound : FileKind.ofName? name with
        | none => simp [hfound] at h
        | some found =>
            have hsame := List.find?_some hfound
            have hname : found.name = name := beq_iff_eq.mp hsame
            simp only [hfound, Except.ok.injEq] at h
            rw [← hname, h]
    | null => cases h
    | bool _ => cases h
    | int _ => cases h
    | float _ => cases h
    | array _ => cases h
    | object _ => cases h
    | halved _ => cases h
    | halvedObject _ => cases h
  · rintro rfl
    exact kindNamed_name kind

theorem known_iff : listed.Known ↔ ∃ kind, listed.kind? = .ok kind := by
  simp only [kind?_eq_ok_iff, Known]
  cases listed.kind with
  | none => exact iff_of_true nofun ⟨.source, rfl⟩
  | some value => simp

/-- What reading an entry for the node does. -/
def read (listed : ListedNode) : ReadStep Unit :=
  liftRead listed.kind? >>= fun kind => liftStep (do
    addNode listed.path kind (listed.node kind).lastModified
    modify (modifyNode listed.path ({ · with specifiers := (listed.node kind).specifiers })))

end ListedNode

theorem readNode_of_lists {listed : ListedNode} (h : ListsNode value listed) :
    readNode .texts value = listed.read := by
  obtain ⟨fields, rfl, hpath, hkind, htime, hnames⟩ := h
  have hspecifiers : (elements ((listed.specifiers.map jsonTexts).getD (.array [])) : Except DocumentFault _) =
      .ok ((listed.specifiers.getD []).map Json.string) := by
    cases listed.specifiers with
    | none => rfl
    | some names => rfl
  rw [readNode, fieldsOf_object, liftRead_ok, demandField, hpath]
  simp only [hkind, htime, hnames, hspecifiers, liftRead_ok, pathOf_string, specifierOf_mapM]
  rw [ListedNode.read, ListedNode.kind?]
  congr 1
  funext kind
  rw [liftStep_bind]
  rfl

/-- The graph has the nodes that are listed, each of them under a path of its own, and no edges. -/
def NodesRead (done : List ListedNode) (after : Graph) : Prop :=
  ∃ entries : List (String × FileNode),
    List.Forall₂ (fun listed entry => entry.1 = listed.path ∧ listed.Describes entry.2) done entries ∧
      (done.map ListedNode.path).Nodup ∧ NodesAdded entries after

theorem map_path_eq {done : List ListedNode} {entries : List (String × FileNode)}
    (h : List.Forall₂ (fun listed entry => entry.1 = listed.path ∧ listed.Describes entry.2) done entries) :
    entries.map (·.1) = done.map ListedNode.path := by
  induction h with
  | nil => rfl
  | cons hentry _ ih => rw [List.map_cons, List.map_cons, ih, hentry.1]

theorem NodesRead.mem_nodes {done : List ListedNode} (h : NodesRead done state) :
    path ∈ state.nodes ↔ path ∈ done.map ListedNode.path := by
  obtain ⟨entries, hentries, -, hadded⟩ := h
  rw [hadded.mem_nodes, List.lookup_isSome_iff, ← map_path_eq hentries, List.mem_map]
  simp only [beq_iff_eq]
  exact exists_congr fun entry => and_congr_right fun _ => eq_comm

namespace ListedRow

variable {row : ListedRow}

/-- The edges of a row. -/
def edges (row : ListedRow) : List (String × String) :=
  row.targets.map fun target => (row.source, target)

theorem mem_edges {source target : String} :
    (source, target) ∈ row.edges ↔ row.source = source ∧ target ∈ row.targets := by
  simp [edges, eq_comm, and_comm]

end ListedRow

theorem readEdges_of_lists {row : ListedRow} (h : ListsRow value row) :
    readEdges .texts value = liftStep (row.targets.forM (addEdge row.source)) := by
  obtain ⟨fields, rfl, hsource, htargets⟩ := h
  rw [readEdges, fieldsOf_object, liftRead_ok, demandField, htargets]
  show (row.targets.map Json.string).forM (fun target => do
    let source ← liftRead (demandField fields "from")
    readEdge .texts source target) = _
  rw [liftStep_forM]
  induction row.targets with
  | nil => rfl
  | cons target rest ih =>
      show ((liftRead (demandField fields "from") >>= fun source => readEdge .texts source (.string target)) >>=
        fun _ => (rest.map Json.string).forM _) = _
      rw [ih, demandField, hsource]
      rfl

theorem NodesRead.known {nodes : List ListedNode} (hread : NodesRead nodes g) :
    ∀ listed ∈ nodes, listed.Known := by
  obtain ⟨entries, hentries, -, -⟩ := hread
  induction hentries with
  | nil => nofun
  | cons hentry _ ih =>
      rw [List.forall_mem_cons]
      obtain ⟨kind, hkind, -⟩ := ListedNode.describes_iff.mp hentry.2
      exact ⟨ListedNode.known_iff.mpr ⟨kind, ListedNode.kind?_eq_ok_iff.mpr hkind⟩, ih⟩

theorem NodesRead.edgesAdded {nodes : List ListedNode} (hread : NodesRead nodes g) :
    EdgesAdded g [] g := by
  obtain ⟨entries, -, -, hadded⟩ := hread
  exact hadded.edgesAdded

theorem Balanced.checkStep_eq_ok (hg : g.Balanced) : checkStep g = .ok () g := by
  rw [checkStep, get_bind_eq, hg.check_eq_ok]
  rfl

theorem ofDocument_object (fields : List (String × Json)) : ofDocument (.object fields) =
    if ((Json.field? fields "version").getD .null).same (.int documentVersion) then
      match readFields .texts fields ∅ with
      | .ok _ g => .ok g
      | .error fault _ => .error fault
    else .error (.version ((Json.field? fields "version").getD .null)) := by
  rw [ofDocument, ofDocumentBy, Json.fields?]
  dsimp only
  split
  · cases readFields Reading.texts fields ∅ with
    | ok _ g => rfl
    | error fault after => rfl
  · rfl

/-- The rows of a graph that its document lists. -/
def storedRows (g : Graph) : List (String × PathSet) :=
  g.edges.sortedEntries.filter fun entry => !entry.2.isEmpty

theorem mem_storedRows {row : PathSet} :
    (path, row) ∈ g.storedRows ↔ (path, row) ∈ g.edges.entries ∧ row.isEmpty = false := by
  rw [storedRows, List.mem_filter, Table.mem_sortedEntries, Bool.not_eq_true']

/-- What the document of a graph lists. -/
def listing (g : Graph) : Listing where
  version := some (.int documentVersion)
  nodes := g.nodes.sortedEntries.map fun entry =>
    ⟨entry.1, some (.string entry.2.kind.name), some entry.2.lastModified, some entry.2.specifiers⟩
  rows := g.storedRows.map fun entry => ⟨entry.1, entry.2.toList⟩

end ChangeImpact.Graph
