import ChangeImpact.Graph.Consistency
import ChangeImpact.Json.Key

/-!
# Graphs as documents

A graph is stored as a JSON document with its nodes and its forward edges.  The reverse edges are not
stored; reading a document builds them again.

Reading is generous where the order and the number of edges are concerned, and ignores fields that it
does not know.  A document that does not describe a graph is refused with the first fault found.

Nothing in a document has to be a text where a path or the name of a module is expected.  What such a
value stands for is a matter of the `Reading`:

* `Reading.values` takes every value as it is, so the paths of the graph are keys and its names are values.
  This is how a graph file is loaded.
* `Reading.texts` takes texts alone.  The library goes on with graphs whose paths are texts, so a value of
  another kind is `DocumentFault.foreign`, and what is done with a graph that has such paths is left out.
-/

namespace ChangeImpact.Graph

/-- The version of the documents that are written and read. -/
def documentVersion : Int := 1

/-! ## Writing -/

/-- A list of texts as a value. -/
def jsonTexts (texts : List String) : Json := .array (texts.map Json.string)

/-- A node in a document. -/
def nodeDocument (path : String) (node : FileNode) : Json :=
  .object
    [("path", .string path), ("type", .string node.kind.name),
      ("last_modified", node.lastModified), ("specifiers", jsonTexts node.specifiers)]

/-- The edges of a file in a document. -/
def edgesDocument (path : String) (targets : PathSet) : Json :=
  .object [("from", .string path), ("to", jsonTexts targets.toList)]

/-- The document of a graph, its nodes and edges sorted by path. -/
def toDocument (g : Graph) : Json :=
  let nodes := g.nodes.sortedEntries.map fun (path, node) => nodeDocument path node
  let edges := (g.edges.sortedEntries.filter fun entry => !entry.2.isEmpty).map
    fun (path, targets) => edgesDocument path targets
  .object [("version", .int documentVersion), ("nodes", .array nodes), ("edges", .array edges)]

/-! ## Faults of documents -/

/-- Why a document is no graph. -/
inductive DocumentFault (κ : Type := String) where
  /-- The version is not the one that is read. -/
  | version (found : Json)
  /-- A field that must be there is missing. -/
  | missingField (name : String)
  /-- The name of a kind is none of those known. -/
  | unknownKind (found : Json)
  /-- A value is of the wrong kind altogether. -/
  | illTyped
  /-- An edge ends at something that is not the path of a node. -/
  | unknownEnd (source target : Json)
  /-- The nodes and edges make no graph. -/
  | inconsistent (cause : Violation κ)
  /-- A map of the graph has no entry for a key. -/
  | missingEntry (key : κ)
  /-- A value could be a path or the name of a module, but not for the reading. -/
  | foreign (found : Json)

/-- What is wrong inside a document of the right version; nothing is said about ill-typed values. -/
def DocumentFault.detail? : DocumentFault → Option String
  | version _ => none
  | missingField name => some (Text.quoted name)
  | unknownKind found => some (found.shown ++ " is not a valid FileType")
  | illTyped => none
  | unknownEnd source target =>
    some s!"Edge {source.shownAlone} -> {target.shownAlone} references an unknown node"
  | inconsistent cause => some cause.message
  | missingEntry key => some (Text.quoted key)
  | foreign _ => none

/-- How a fault is reported, where it has a text of its own. -/
def DocumentFault.message? : DocumentFault → Option String
  | version found => some ("Unsupported graph document version: " ++ found.shownAlone)
  | fault => fault.detail?.map ("Corrupt graph document: " ++ ·)

/-! ## Parts of a document -/

section Parts

variable {κ : Type}

/-- The values that make up a value: the items of an array, the characters of a text, the names of an
object's fields. -/
def elements : Json → Except (DocumentFault κ) (List Json)
  | .array items => .ok items
  | .string text => .ok (text.toList.map fun c => .string (String.ofList [c]))
  | .halved text => .ok (text.points.map fun point => .ofWording (.ofPoints [point]))
  | .object fields => .ok (fields.map fun field => .string field.1)
  | .halvedObject fields => .ok (fields.map fun field => .ofWording field.1)
  | _ => .error .illTyped

/-- The fields of an object.  Those whose names are no strings are among the fields that are not known. -/
def fieldsOf (value : Json) : Except (DocumentFault κ) (List (String × Json)) :=
  match value.fields? with
  | some fields => .ok fields
  | none => .error .illTyped

/-- A field that must be there. -/
def demandField (fields : List (String × Json)) (name : String) : Except (DocumentFault κ) Json :=
  match Json.field? fields name with
  | some value => .ok value
  | none => .error (.missingField name)

/-- The kind that a value names. -/
def kindNamed (value : Json) : Except (DocumentFault κ) FileKind :=
  match value with
  | .string name =>
    match FileKind.ofName? name with
    | some kind => .ok kind
    | none => .error (.unknownKind value)
  | _ => .error (.unknownKind value)

end Parts

/-! ## Readings -/

/-- What the values of a document are taken for where they stand for paths and for names of modules. -/
structure Reading (κ σ : Type) where
  /-- The path that a value is, if it is one. -/
  path? : Json → Option κ
  /-- The name of a module that a value is, if it is one. -/
  specifier? : Json → Option σ

namespace Reading

variable {κ σ : Type}

/-- Texts alone are paths and names. -/
def texts : Reading String String := ⟨Json.text?, Json.text?⟩

/-- Every key is a path, and every value a name. -/
def values : Reading Key Json := ⟨Key.ofJson?, some⟩

/-- The path that a value is. -/
def pathOf (reading : Reading κ σ) (value : Json) : Except (DocumentFault κ) κ :=
  match reading.path? value with
  | some path => .ok path
  | none => .error (if value.isKey then .foreign value else .illTyped)

/-- The name of a module that a value is. -/
def specifierOf (reading : Reading κ σ) (value : Json) : Except (DocumentFault κ) σ :=
  match reading.specifier? value with
  | some specifier => .ok specifier
  | none => .error (.foreign value)

end Reading

/-! ## Reading -/

/-- A step on the graph under construction. -/
abbrev ReadStep (α : Type) (κ : Type := String) (σ : Type := String) [LT κ] :=
  EStateM (DocumentFault κ) (Graph κ σ) α

section Steps

variable {κ σ : Type} [LT κ]

/-- Makes what is read from a value a step on the graph under construction. -/
def liftRead {α : Type} (value : Except (DocumentFault κ) α) : ReadStep α κ σ :=
  match value with
  | .ok value => pure value
  | .error fault => throw fault

/-- Makes a step on a graph a step of reading. -/
def liftStep (step : GraphStep Unit κ σ) : ReadStep Unit κ σ := fun g =>
  match step g with
  | .ok _ g => .ok () g
  | .error (.violation cause) g => .error (.inconsistent cause) g
  | .error (.missingEntry key) g => .error (.missingEntry key) g

variable [DecidableEq κ] [DecidableLT κ] [LE κ] [Std.IsLinearOrder κ] [Std.LawfulOrderLT κ]

/-- Adds the node that a value describes. -/
def readNode (reading : Reading κ σ) (value : Json) : ReadStep Unit κ σ := do
  let fields ← liftRead (fieldsOf value)
  let path ← liftRead (demandField fields "path")
  let kind ← liftRead (kindNamed ((Json.field? fields "type").getD (.string FileKind.source.name)))
  let path ← liftRead (reading.pathOf path)
  liftStep (addNode path kind ((Json.field? fields "last_modified").getD .null))
  let items ← liftRead (elements ((Json.field? fields "specifiers").getD (.array [])))
  let specifiers ← liftRead (items.mapM reading.specifierOf)
  modify (modifyNode path ({ · with specifiers }))

/-- Adds an edge between two values that should be paths of nodes.  The target is not looked at unless the
source is the path of a node. -/
def readEdge (reading : Reading κ σ) (source target : Json) : ReadStep Unit κ σ :=
  match reading.path? source, reading.path? target with
  | some source, some target => liftStep (addEdge source target)
  | path?, _ => do
    let g ← get
    if !source.isKey || (path?.any g.hasNode && !target.isKey) then throw .illTyped
    else throw (.unknownEnd source target)

/-- Adds the edges that a value describes. -/
def readEdges (reading : Reading κ σ) (value : Json) : ReadStep Unit κ σ := do
  let fields ← liftRead (fieldsOf value)
  let targets ← liftRead (demandField fields "to" >>= elements)
  targets.forM fun target => do
    let source ← liftRead (demandField fields "from")
    readEdge reading source target

variable [BEq κ]

/-- Adds the nodes and edges of a document, and checks the result. -/
def readFields (reading : Reading κ σ) (fields : List (String × Json)) : ReadStep Unit κ σ := do
  let nodes ← liftRead (elements ((Json.field? fields "nodes").getD (.array [])))
  nodes.forM (readNode reading)
  let edges ← liftRead (elements ((Json.field? fields "edges").getD (.array [])))
  edges.forM (readEdges reading)
  liftStep checkStep

/-- The graph that a document describes to a reading. -/
def ofDocumentBy (reading : Reading κ σ) (document : Json) : Except (DocumentFault κ) (Graph κ σ) :=
  match document.fields? with
  | some fields =>
    let version := (Json.field? fields "version").getD .null
    if version.same (.int documentVersion) then
      match readFields reading fields ∅ with
      | .ok _ g => .ok g
      | .error fault _ => .error fault
    else .error (.version version)
  | none => .error (.version .null)

end Steps

/-- The graph that a document describes, if its paths and its names of modules are texts. -/
def ofDocument (document : Json) : Except DocumentFault Graph :=
  ofDocumentBy .texts document

end ChangeImpact.Graph
