import ChangeImpact.Text.Blank
import ChangeImpact.Text.Word

/-!
# Imports found by their looks

Where a script cannot be read as one, imports are looked for in its bare text.  Four forms are known:
`import … from "m"` or `import "m"`, `export … from "m"`, `import("m")` and `require("m")`.  Each form
starts at the boundary of a word.  Comments and strings are text like any other.

* `specifiers` lists the modules named in the order of their places.
-/

namespace ChangeImpact.Script.TextScan

/-! ## The parts of a form -/

/-- The two quotation marks; either may close what the other has opened. -/
def isQuote (c : Char) : Bool := c == '"' || c == '\''

/-- The characters between `import` and the word `from`. -/
def isClauseChar (c : Char) : Bool :=
  Text.isWordChar c || Text.isBlank c || c == '\x7b' || c == '\x7d' || c == ',' || c == '*' ||
    c == '$'

/-- A text in quotation marks that is not empty, and the rest. -/
def quoted? : List Char → Option (List Char × List Char)
  | [] => none
  | c :: rest =>
    if isQuote c then
      match rest.span (!isQuote ·) with
      | ([], _) => none
      | (_, []) => none
      | (name, _ :: after) => some (name, after)
    else none

/-- The text after a given word at its start. -/
def after? (start : String) (text : List Char) : Option (List Char) :=
  if start.toList.isPrefixOf text then some (text.drop start.length) else none

/-- What stands before the word `from` and the blanks after it, at the end of a clause. -/
def beforeFrom? (clause : List Char) : Option (List Char) :=
  let trimmed := Text.stripRight clause
  if trimmed.length < clause.length && "from".toList.isSuffixOf trimmed then
    some (trimmed.take (trimmed.length - 4))
  else none

/-- Whether a text starts and ends with a blank. -/
def betweenBlanks (text : List Char) : Bool :=
  text.head?.any Text.isBlank && text.getLast?.any Text.isBlank

/-! ## The forms -/

/-- A module found: its name, how far after the start of the form it stands, and the length of the
form. -/
structure Hit where
  name : List Char
  offset : Nat
  length : Nat
deriving DecidableEq, Repr, Inhabited

/-- The hit for a name in quotation marks whose opening one and whose end are known by what is left
of the text there. -/
def Hit.between (text name atQuote after : List Char) : Hit :=
  ⟨name, text.length - atQuote.length + 1, text.length - after.length⟩

/-- A form with a word, a clause and a name in quotation marks. -/
def statementForm? (word : String) (accepts : List Char → Bool) (text : List Char) :
    Option Hit := do
  let rest ← after? word text
  let (clause, atQuote) := rest.span isClauseChar
  guard (accepts clause)
  let (name, after) ← quoted? atQuote
  return .between text name atQuote after

/-- A form with a word and a name in quotation marks and parentheses. -/
def callForm? (word : String) (text : List Char) : Option Hit := do
  let rest ← after? word text
  let inside ← after? "(" (Text.stripLeft rest)
  let atQuote := Text.stripLeft inside
  let (name, after) ← quoted? atQuote
  let closed ← after? ")" (Text.stripLeft after)
  return .between text name atQuote closed

/-- What may stand between `import` and the name: blanks alone, or a clause with `from`. -/
def importAccepts (clause : List Char) : Bool :=
  (!clause.isEmpty && clause.all Text.isBlank) ||
    match beforeFrom? clause with
    | some before => betweenBlanks before && 3 ≤ before.length
    | none => false

/-- What may stand between `export` and the name: a clause with `from`. -/
def exportAccepts (clause : List Char) : Bool :=
  match beforeFrom? clause with
  | some before => betweenBlanks before
  | none => false

/-- All forms. -/
def forms : List (List Char → Option Hit) :=
  [statementForm? "import" importAccepts, statementForm? "export" exportAccepts,
    callForm? "import", callForm? "require"]

/-! ## Going through a text -/

/-- All hits of a form with their places, which do not overlap.  `skipped` characters belong to the
hit before, `place` counts the characters passed, and `before` tells whether the last of them can
stand in a word. -/
def hits (form? : List Char → Option Hit) (skipped place : Nat) (before : Bool) :
    List Char → List (Nat × List Char)
  | [] => []
  | c :: rest =>
    match skipped with
    | skipped + 1 => hits form? skipped (place + 1) (Text.isWordChar c) rest
    | 0 =>
      match (if before then none else form? (c :: rest)) with
      | some hit =>
        (place + hit.offset, hit.name) ::
          hits form? (hit.length - 1) (place + 1) (Text.isWordChar c) rest
      | none => hits form? 0 (place + 1) (Text.isWordChar c) rest

/-- The modules that a text seems to import, in the order of their places. -/
def specifiers (text : String) : List String :=
  let found := forms.flatMap fun form? => hits form? 0 0 false text.toList
  (found.mergeSort fun first second => first.1 ≤ second.1).map fun hit => String.ofList hit.2

end ChangeImpact.Script.TextScan
