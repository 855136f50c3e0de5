import ChangeImpact.Disk.AtomicWrite
import ChangeImpact.Graph.Document
import ChangeImpact.Json.Printer
import ChangeImpact.Json.Reader
import ChangeImpact.Reader

/-!
# Graphs on a disk

A graph is kept from one run to the next in a file that holds its document.

* `Disk.loadGraphBy` gives no graph where there is no file, and where the file says that there is none.
  What a file holds is a graph to a reading; that of `Graph.Reading.values` leaves nothing out.
* `Disk.loadGraph` is what the program goes on with, a graph whose paths and names are texts.
-/

namespace ChangeImpact

/-- Why a JSON document could not be read from a disk. -/
inductive DocumentReadFault where
  | file (fault : ReadFault)
  | json (error : Json.ReadError)

/-- How the fault is reported. -/
def DocumentReadFault.message : DocumentReadFault → String
  | file fault => fault.message
  | json error => error.message

/-- Why a graph could not be loaded. -/
inductive GraphFileFault (κ : Type := String) where
  | unreadable (fault : DocumentReadFault)
  | notJson (path : String) (error : Json.ReadError)
  | document (fault : Graph.DocumentFault κ)

/-- How the fault is reported, where it has a text of its own. -/
def GraphFileFault.message? : GraphFileFault → Option String
  | unreadable fault => some fault.message
  | notJson path error => some s!"Graph file {path} is not valid JSON: {error.message}"
  | document fault => fault.message?

namespace Disk

/-! ## Documents -/

/-- Writes a document to a path, the fields of its objects sorted; tells whether that was done. -/
def writeDocument (path : String) (document : Json) : DiskStep Bool :=
  write path (Json.printSorted document).toList

/-- The document in a file; none if there is no such file. -/
def readDocument (disk : Disk) (path : String) : Except DocumentReadFault (Option Json) :=
  match Reader.diskText disk path with
  | .error (.disk (.refused .missing _)) => .ok none
  | .error fault => .error (.file fault)
  | .ok text =>
    match Json.readChars text with
    | .ok document => .ok (some document)
    | .error error => .error (.json error)

/-! ## Graphs -/

/-- Saves a graph; tells whether that was done. -/
def saveGraph (path : String) (g : Graph) : DiskStep Bool :=
  writeDocument path g.toDocument

section Loading

variable {κ σ : Type} [LT κ] [DecidableEq κ] [DecidableLT κ] [LE κ] [Std.IsLinearOrder κ]
  [Std.LawfulOrderLT κ] [BEq κ]

/-- The graph that was saved in a file, as a reading has it; none if there is no such file or if it holds
the null value. -/
def loadGraphBy (disk : Disk) (reading : Graph.Reading κ σ) (path : String) :
    Except (GraphFileFault κ) (Option (Graph κ σ)) :=
  let path := String.ofList (Path.tidy path.toList)
  match disk.readDocument path with
  | .ok none | .ok (some .null) => .ok none
  | .ok (some document) =>
    match Graph.ofDocumentBy reading document with
    | .ok g => .ok (some g)
    | .error fault => .error (.document fault)
  | .error (.json error) =>
    if error.isNotation then .error (.notJson path error)
    else .error (.unreadable (.json error))
  | .error fault => .error (.unreadable fault)

end Loading

/-- The graph that was saved in a file, if its paths and its names of modules are texts. -/
def loadGraph (disk : Disk) (path : String) : Except GraphFileFault (Option Graph) :=
  disk.loadGraphBy .texts path

/-- Whether there is anything where a graph would be saved. -/
def hasGraph (disk : Disk) (path : String) : Bool :=
  disk.has (String.ofList (Path.tidy path.toList))

/-- Removes a saved graph, if there is one. -/
def clearGraph (path : String) : DiskStep Unit := do
  if (← get).hasGraph path then removeFile (String.ofList (Path.tidy path.toList))

end Disk
end ChangeImpact
