import ChangeImpact.Script.Lexeme
import ChangeImpact.Script.Node

/-!
# Grammar rules

A rule reads a phrase from the start of a text.  It finds one, or the text has none there (and
another rule may be tried), or the text is broken whatever rule is tried.

What is grammatical at a place also depends on a context: the language, and whether a line break can
end the statement there.
-/

namespace ChangeImpact.Script

/-- What rules know about the place at which they read. -/
structure Context where
  dialect : Dialect
  /-- Whether a line break can end the statement.  Inside brackets it cannot. -/
  breaks : Bool := true
  /-- Whether an arrow function may declare the type of its result here. -/
  resultTypes : Bool := true

/-- What reading a phrase leads to. -/
inductive Outcome (α : Type) where
  | found (value : α) (rest : List Char)
  | absent
  | broken

/-- A grammar rule for phrases of a type. -/
def Rule (α : Type) : Type :=
  Context → List Char → Outcome α

namespace Rule

variable {α β : Type}

instance : Monad Rule where
  pure value := fun _ text => .found value text
  bind rule next := fun context text =>
    match rule context text with
    | .found value rest => next value context rest
    | .absent => .absent
    | .broken => .broken

/-- No phrase. -/
def absent : Rule α :=
  fun _ _ => .absent

/-- The first rule, or the second one where the first finds nothing. -/
def orElse (first : Rule α) (second : Unit → Rule α) : Rule α :=
  fun context text =>
    match first context text with
    | .absent => second () context text
    | outcome => outcome

instance : OrElse (Rule α) := ⟨orElse⟩

/-- Makes it a fault of the text if the phrase is absent. -/
def required (rule : Rule α) : Rule α :=
  fun context text =>
    match rule context text with
    | .absent => .broken
    | outcome => outcome

/-- A phrase that may be absent. -/
def optional (rule : Rule α) : Rule (Option α) :=
  fun context text =>
    match rule context text with
    | .found value rest => .found (some value) rest
    | .absent => .found none text
    | .broken => .broken

/-- Repeats a rule as long as it finds something; the fuel bounds the repetitions. -/
private def repeated (rule : Rule α) : Nat → Rule (List α)
  | 0 => pure []
  | fuel + 1 => fun context text =>
    match rule context text with
    | .found value rest =>
      if rest.length < text.length then
        match repeated rule fuel context rest with
        | .found values rest => .found (value :: values) rest
        | .absent => .found [value] rest
        | .broken => .broken
      else .found [] text
    | .absent => .found [] text
    | .broken => .broken

/-- As many phrases as there are. -/
def many (rule : Rule α) : Rule (List α) :=
  fun context text => repeated rule (text.length + 1) context text

/-- Goes on from a value as long as the step finds something; the fuel bounds the steps. -/
private def continued (step : α → Rule α) : Nat → α → Rule α
  | 0, value => pure value
  | fuel + 1, value => fun context text =>
    match step value context text with
    | .found value rest => continued step fuel value context rest
    | .absent => .found value text
    | .broken => .broken

/-- Extends a phrase step by step as far as possible. -/
def extend (step : α → Rule α) (value : α) : Rule α :=
  fun context text => continued step (text.length + 1) value context text

/-- The context at the current place. -/
def context : Rule Context :=
  fun context text => .found context text

/-- Nothing, provided that a condition holds. -/
def guard (condition : Bool) : Rule Unit :=
  if condition then pure () else absent

/-- A rule for a part of the text in another context. -/
def within (change : Context → Context) (rule : Rule α) : Rule α :=
  fun context text => rule (change context) text

/-- A rule for a part in which line breaks do not end statements. -/
def inBrackets (rule : Rule α) : Rule α :=
  within (fun context => { context with breaks := false, resultTypes := true }) rule

/-- A rule for a part in which line breaks can end statements. -/
def inBody (rule : Rule α) : Rule α :=
  within (fun context => { context with breaks := true, resultTypes := true }) rule

/-- Looks whether a phrase follows, without reading it. -/
def ahead (rule : Rule α) : Rule Unit :=
  fun context text =>
    match rule context text with
    | .found _ _ => .found () text
    | _ => .absent

/-- Nothing, provided that no such phrase follows. -/
def notAhead (rule : Rule α) : Rule Unit :=
  fun context text =>
    match rule context text with
    | .found _ _ => .absent
    | _ => .found () text

/-! ## Lexemes -/

/-- The lexeme that a recogniser finds right here. -/
def exactly (lexeme? : List Char → Option (α × List Char)) : Rule α :=
  fun _ text =>
    match lexeme? text with
    | some (value, rest) => .found value rest
    | none => .absent

/-- The lexeme that a recogniser finds after blanks and comments. -/
def lexeme (lexeme? : List Char → Option (α × List Char)) : Rule α :=
  fun _ text =>
    match lexeme? (Lexeme.skip text) with
    | some (value, rest) => .found value rest
    | none => .absent

/-- A recogniser without a value as one with a value. -/
def valueless (after? : List Char → Option (List Char)) (text : List Char) :
    Option (Unit × List Char) :=
  (after? text).map fun rest => ((), rest)

/-- The blanks and comments up to the next lexeme. -/
def gap : Rule Unit :=
  fun _ text => .found () (Lexeme.skip text)

/-- Any word. -/
def word : Rule String :=
  lexeme Lexeme.word?

/-- A given word. -/
def keyword (expected : String) : Rule Unit := do
  let found ← word
  guard (found == expected)

/-- One of some words. -/
def keywordOf (expected : List String) : Rule String := do
  let found ← word
  guard (expected.contains found)
  return found

/-- Any operator or bracket. -/
def operator : Rule String :=
  lexeme Lexeme.operator?

/-- A given operator or bracket, where no longer one is found. -/
def symbol (expected : String) : Rule Unit := do
  let found ← operator
  guard (found == expected)

/-- A given bracket, even where it would be the start of a longer operator. -/
def bracket (expected : Char) : Rule Unit :=
  lexeme fun text =>
    match text with
    | c :: rest => if c = expected then some ((), rest) else none
    | [] => none

/-- The end of the text. -/
def atEnd : Rule Unit :=
  lexeme fun text => if text.isEmpty then some ((), text) else none

/-- Nothing, provided that the statement goes on after a line break that may follow here. -/
def sameStatement (operand : Bool := true) : Rule Unit :=
  fun context text =>
    if context.breaks && Lexeme.endsStatement context.dialect operand text then .absent
    else .found () text

/-- A place at which a semicolon is understood. -/
def understood (operand : Bool) : Rule Unit :=
  fun context text =>
    if Lexeme.endsStatement context.dialect operand text then .found () text else .absent

/-- The end of a statement: a semicolon, or a place at which it is understood. -/
def semicolon (operand : Bool := true) : Rule Unit :=
  symbol ";" <|> understood operand

/-- Nothing, provided that the language has types. -/
def typed : Rule Unit := do
  guard (← context).dialect.hasTypes

/-- The next character after blanks and comments, without reading it. -/
def peek : Rule Char :=
  fun _ text =>
    match Lexeme.skip text with
    | c :: _ => .found c text
    | [] => .absent

/-- Phrases with commas between them, any of which may be missing. -/
def sparseList (rule : Rule α) : Rule (List α) := do
  let first ← optional rule
  let others ← many do
    symbol ","
    optional rule
  return (first :: others).filterMap id

/-- Phrases with commas between them; a comma may also stand after the last one. -/
def commaList (rule : Rule α) : Rule (List α) := do
  match ← optional rule with
  | none => return []
  | some first =>
    let others ← many do
      symbol ","
      rule
    let _ ← optional (symbol ",")
    return first :: others

/-- At least one phrase, with commas between them. -/
def commaList1 (rule : Rule α) : Rule (List α) := do
  let first ← rule
  let others ← many do
    symbol ","
    rule
  return first :: others

end Rule
end ChangeImpact.Script
