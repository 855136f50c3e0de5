import ChangeImpact.Text.Blank

/-!
# Environment files

An environment file gives values to variables, one on a line: `NAME=value`, perhaps after `export`
and before a comment.  A value may stand in quotation marks, in which some escapes are known, and may
refer to other variables as `${NAME}` or `${NAME:-default}`.  Lines that make no sense are passed over.

* `Reader` is what the settings ask for: the environment as it is after a file has been read.
* `bindings` reads a file.
* `withFile` resolves the references; the environment wins over the file.
-/

namespace ChangeImpact.EnvironmentFile

/-- Variables with their values. -/
abbrev Environment := List (String × String)

/-- A reader of environment files gives the environment together with what the text of a file adds. -/
abbrev Reader := Environment → List Char → Environment

/-- A variable named by a line, with its value unless there is no equals sign. -/
structure Binding where
  name : String
  value : Option String
deriving DecidableEq, Repr

/-! ## Parts of a line -/

/-- A blank inside a line. -/
def isInnerBlank (c : Char) : Bool :=
  Text.isBlank c && c != '\n' && c != '\r'

/-- Whether a character belongs to a line. -/
def isInLine (c : Char) : Bool :=
  c != '\n' && c != '\r'

/-- The text after the blanks at its start that are inside the line. -/
def skipInner (text : List Char) : List Char :=
  text.dropWhile isInnerBlank

/-- The text after a line end at its start, which the end of the text is as well. -/
def afterLineEnd? : List Char → Option (List Char)
  | [] => some []
  | '\r' :: '\n' :: rest => some rest
  | '\n' :: rest => some rest
  | '\r' :: rest => some rest
  | _ => none

/-- The text after the word that a line may start with. -/
def skipExport (text : List Char) : List Char :=
  if "export".toList.isPrefixOf text then
    let rest := text.drop 6
    if rest.head?.any isInnerBlank then skipInner rest else text
  else text

/-- What remains of a line that makes no sense, from where that became clear, is passed over. -/
def skipLine (text : List Char) : List Char :=
  match text.dropWhile isInLine with
  | _ :: rest => rest
  | [] => []

/-! ## Names and values -/

/-- A name at the start of the text; there is none before a comment.  Fails with the text that is left
to be passed over. -/
def readName (text : List Char) : Except (List Char) (Option String × List Char) :=
  match text with
  | '#' :: _ => .ok (none, text)
  | '\'' :: rest =>
    match rest.span (· != '\'') with
    | (_ :: _, []) | ([], _) => .error text
    | (name, _ :: after) => .ok (some (String.ofList name), after)
  | _ =>
    match text.span fun c => c != '=' && c != '#' && !Text.isBlank c with
    | ([], _) => .error text
    | (name, rest) => .ok (some (String.ofList name), rest)

/-- How long the text is before the quotation mark that closes it.  A mark after a backslash does not
close it, unless no other mark does: then the last of them does. -/
def closingPlace? (quote : Char) (place : Nat) (escaped : Option Nat) : List Char → Option Nat
  | [] => escaped
  | [c] => if c = quote then some place else escaped
  | c :: next :: rest =>
    if c = quote then some place
    else if c = '\\' ∧ next = quote then closingPlace? quote (place + 2) (some (place + 1)) rest
    else closingPlace? quote (place + 1) escaped (next :: rest)

/-- The character that a letter after a backslash stands for between double quotation marks. -/
def escaped? (c : Char) : Option Char :=
  if c = '\\' ∨ c = '\'' ∨ c = '"' then some c
  else if c = 'a' then some (Char.ofNat 7)
  else if c = 'b' then some (Char.ofNat 8)
  else if c = 'f' then some (Char.ofNat 12)
  else if c = 'n' then some '\n'
  else if c = 'r' then some '\r'
  else if c = 't' then some '\t'
  else if c = 'v' then some (Char.ofNat 11)
  else none

/-- Replaces the escapes that are known between the quotation marks used. -/
def unescape (quote : Char) : List Char → List Char
  | '\\' :: c :: rest =>
    let known := if quote = '"' then escaped? c else (escaped? c).filter fun e => e == c && c != '"'
    match known with
    | some e => e :: unescape quote rest
    | none => '\\' :: unescape quote (c :: rest)
  | c :: rest => c :: unescape quote rest
  | [] => []
termination_by text => text.length

/-- A value without quotation marks: it ends before a comment that follows a blank. -/
def plainValue (line : List Char) : List Char :=
  Text.stripRight (beforeComment false line)
where
  /-- What stands before a hash sign that follows a blank. -/
  beforeComment (afterBlank : Bool) : List Char → List Char
    | [] => []
    | c :: rest =>
      if c = '#' ∧ afterBlank then [] else c :: beforeComment (Text.isBlank c) rest

/-- A value after an equals sign. -/
def readValue (text : List Char) : Except (List Char) (String × List Char) :=
  match text with
  | [] => .ok ("", text)
  | c :: rest =>
    if c = '\'' ∨ c = '"' then
      match closingPlace? c 0 none rest with
      | some place =>
        .ok (String.ofList (unescape c (rest.take place)), rest.drop (place + 1))
      | none => .error text
    else if c = '\n' ∨ c = '\r' then .ok ("", text)
    else
      let (line, after) := text.span isInLine
      .ok (String.ofList (plainValue line), after)

/-! ## Lines and files -/

/-- Reads one line, or several if a value in quotation marks goes over their ends. -/
def readBinding (text : List Char) : Except (List Char) (Option Binding × List Char) := do
  let (name, rest) ← readName (skipExport text)
  let rest := skipInner rest
  let (value, rest) ←
    match rest with
    | '=' :: rest => do
      let (value, rest) ← readValue (skipInner rest)
      pure (some value, rest)
    | rest => pure (none, rest)
  let rest :=
    match skipInner rest with
    | '#' :: comment => comment.dropWhile isInLine
    | _ => rest
  match afterLineEnd? (skipInner rest) with
  | some rest => return (name.map fun name => ⟨name, value⟩, rest)
  | none => throw rest

/-- Reads lines up to the end of the text; the fuel bounds their number. -/
private def readLines : Nat → List Char → List Binding
  | 0, _ => []
  | fuel + 1, text =>
    match Text.stripLeft text with
    | [] => []
    | text =>
      match readBinding text with
      | .ok (binding, rest) => binding.toList ++ readLines fuel rest
      | .error rest => readLines fuel (skipLine rest)

/-- The variables that a file names, in the order of its lines. -/
def bindings (text : List Char) : List Binding :=
  readLines (text.length + 1) text

/-! ## References to variables -/

/-- A reference to a variable after its opening brace: the name, the default, and the rest. -/
def reference? (text : List Char) : Option (String × String × List Char) :=
  match text.span fun c => c != '\x7d' && c != ':' with
  | (name, '\x7d' :: rest) => some (String.ofList name, "", rest)
  | (name, ':' :: '-' :: rest) =>
    match rest.span (· != '\x7d') with
    | (default, _ :: rest) => some (String.ofList name, String.ofList default, rest)
    | _ => none
  | _ => none

/-- A text with its references replaced; the fuel bounds the length. -/
private def substitute (value? : String → Option String) : Nat → List Char → List Char
  | 0, _ => []
  | _, [] => []
  | fuel + 1, c :: rest =>
    match c, rest with
    | '$', '\x7b' :: inner =>
      match reference? inner with
      | some (name, default, after) =>
        ((value? name).getD default).toList ++ substitute value? fuel after
      | none => c :: substitute value? fuel rest
    | _, _ => c :: substitute value? fuel rest

/-- Gives a variable a value; one that is there keeps its place. -/
def assign {α : Type} (table : List (String × α)) (name : String) (value : α) :
    List (String × α) :=
  if table.any (·.1 == name) then
    table.map fun entry => if entry.1 == name then (name, value) else entry
  else table ++ [(name, value)]

/-- Gives the next variable of a file its value. -/
private def define (environment : Environment) (table : List (String × Option String))
    (binding : Binding) : List (String × Option String) :=
  let value? (name : String) : Option String :=
    match environment.lookup name with
    | some value => some value
    | none => (table.lookup name).map (·.getD "")
  assign table binding.name <|
    binding.value.map fun value =>
      String.ofList (substitute value? (value.length + 1) value.toList)

/-- The environment together with the variables of a file that it lacks.  This reader is used where no
other one is given. -/
def withFile (environment : Environment) (text : List Char) : Environment :=
  let table := (bindings text).foldl (define environment) []
  environment ++ table.filterMap fun (name, value) =>
    if (environment.lookup name).isSome then none else value.map fun value => (name, value)

end ChangeImpact.EnvironmentFile
