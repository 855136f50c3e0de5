import ChangeImpact.Text.Digit
import ChangeImpact.Text.Quoted

/-!
# Options on a command line

An argument that starts with a dash is an option, if an option of that name is known or could be
meant.  Long names may be shortened as long as one option is left that starts with them, a value may
be attached with an equals sign, and single-letter flags may be written together.

* `words` tells options from values.
* `read` goes through the words and collects what the options say.
-/

namespace ChangeImpact.CommandLine

/-- Why arguments are not carried out. -/
inductive UsageFault where
  | ambiguous (argument : String) (candidates : List String)
  | expectsOne (option : String)
  | expectsSome (option : String)
  | unusedValue (option value : String)
  | invalidInteger (option value : String)
  | noCommand (name : String)
  | unknownCommand (name value : String) (known : List String)
  | unrecognized (arguments : List String)
  /-- Help is asked for, and nothing else is done. -/
  | help
deriving DecidableEq, Repr

/-- How a fault is reported. -/
def UsageFault.message : UsageFault → String
  | ambiguous argument candidates =>
    s!"ambiguous option: {argument} could match " ++ ", ".intercalate candidates
  | expectsOne option => s!"argument {option}: expected one argument"
  | expectsSome option => s!"argument {option}: expected at least one argument"
  | unusedValue option value =>
    s!"argument {option}: ignored explicit argument " ++ Text.quoted value
  | invalidInteger option value => s!"argument {option}: invalid int value: " ++ Text.quoted value
  | noCommand name => s!"the following arguments are required: {name}"
  | unknownCommand name value known =>
    s!"argument {name}: invalid choice: " ++ Text.quoted value ++ " (choose from " ++
      ", ".intercalate (known.map Text.quoted) ++ ")"
  | unrecognized arguments => "unrecognized arguments: " ++ " ".intercalate arguments
  | help => "help"

/-- How many values an option takes. -/
inductive Arity where
  | flag | one | several
deriving DecidableEq, Repr

/-- An option: its names, how many values it takes, and what it adds to that which the options
before it have said. -/
structure OptionSpec (α : Type) where
  names : List String
  arity : Arity
  collect : (values : List String) → α → Except UsageFault α

namespace OptionSpec

variable {α : Type}

/-- All names of an option, as faults give them. -/
def title (option : OptionSpec α) : String := "/".intercalate option.names

/-- The option that asks for help. -/
def help : OptionSpec α where
  names := ["-h", "--help"]
  arity := .flag
  collect _ _ := .error .help

/-- An option without values. -/
def flag (names : List String) (raise : α → α) : OptionSpec α where
  names := names
  arity := .flag
  collect _ collected := .ok (raise collected)

/-- An option with one value. -/
def one (names : List String) (set : String → α → α) : OptionSpec α where
  names := names
  arity := .one
  collect values collected := .ok (values.foldl (fun collected value => set value collected) collected)

/-- An option with one value or more. -/
def several (names : List String) (set : List String → α → α) : OptionSpec α where
  names := names
  arity := .several
  collect values collected := .ok (set values collected)

end OptionSpec

/-! ## Words -/

/-- An argument, after options have been told from values. -/
inductive Word (α : Type) where
  | value (text : String)
  | option (spec : OptionSpec α) (name : String) (attached : Option String) (text : String)
  | unknown (text : String)
  /-- All arguments after the divider are values. -/
  | divider

namespace Word

variable {α : Type}

/-- The argument itself. -/
def text : Word α → String
  | value text | option _ _ _ text | unknown text => text
  | divider => "--"

/-- Whether the argument is a value. -/
def isValue : Word α → Bool
  | value _ => true
  | _ => false

end Word

variable {α : Type}

/-- The option with a name. -/
def named? (specs : List (OptionSpec α)) (name : String) : Option (OptionSpec α) :=
  specs.find? fun spec => spec.names.contains name

/-- An argument cut at its first equals sign. -/
def cutAtEquals (argument : List Char) : String × Option String :=
  match argument.span (· != '=') with
  | (name, _ :: attached) => (String.ofList name, some (String.ofList attached))
  | (name, []) => (String.ofList name, none)

/-- The options that an argument may mean, with the name and the attached value. -/
def meanings (specs : List (OptionSpec α)) (argument : List Char) :
    List (OptionSpec α × String × Option String) :=
  let all := specs.flatMap fun spec => spec.names.map fun name => (spec, name)
  match argument with
  | '-' :: '-' :: _ =>
    let (start, attached) := cutAtEquals argument
    (all.filter fun (_, name) => start.toList.isPrefixOf name.toList).map
      fun (spec, name) => (spec, name, attached)
  | _ =>
    let letter := String.ofList (argument.take 2)
    all.filterMap fun (spec, name) =>
      if name = letter then some (spec, name, some (String.ofList (argument.drop 2)))
      else if argument.isPrefixOf name.toList then some (spec, name, none)
      else none

/-- Whether every character is a decimal digit. -/
def areDigits (text : List Char) : Bool :=
  text.all fun c => (Text.digitValue? c).isSome

/-- Whether an argument is a negative number.  A line feed may follow it. -/
def isNegativeNumber (argument : List Char) : Bool :=
  match argument with
  | '-' :: body =>
    let body := if body.getLast? = some '\n' then body.dropLast else body
    match body.span (· != '.') with
    | (digits, []) => !digits.isEmpty && areDigits digits
    | (digits, _ :: fraction) => areDigits digits && !fraction.isEmpty && areDigits fraction
  | _ => false

/-- Tells whether an argument is an option. -/
def word (specs : List (OptionSpec α)) (argument : String) : Except UsageFault (Word α) :=
  let text := argument.toList
  if text.head? ≠ some '-' ∨ text.length = 1 then .ok (.value argument)
  else
    let (start, attached) := cutAtEquals text
    match named? specs argument, named? specs start with
    | some spec, _ => .ok (.option spec argument none argument)
    | none, some spec => .ok (.option spec start attached argument)
    | none, none =>
      match meanings specs text with
      | [(spec, name, attached)] => .ok (.option spec name attached argument)
      | [] =>
        if isNegativeNumber text || text.contains ' ' then .ok (.value argument)
        else .ok (.unknown argument)
      | several => .error (.ambiguous argument (several.map (·.2.1)))

/-- Tells options from values, up to the divider. -/
def words (specs : List (OptionSpec α)) : List String → Except UsageFault (List (Word α))
  | [] => .ok []
  | "--" :: rest => .ok (.divider :: rest.map .value)
  | argument :: rest => do return (← word specs argument) :: (← words specs rest)

/-! ## Reading -/

/-- Takes an attached text apart: flags that are written together, and the option at their end with
the value that is left for it. -/
def unfoldAttached (specs : List (OptionSpec α)) (spec : OptionSpec α) (single : Bool) :
    List Char → Except UsageFault (List (OptionSpec α) × OptionSpec α × Option String)
  | [] =>
    if spec.arity = .flag then .error (.unusedValue spec.title "")
    else .ok ([], spec, some "")
  | letter :: rest =>
    if spec.arity ≠ .flag then .ok ([], spec, some (String.ofList (letter :: rest)))
    else if !single then .error (.unusedValue spec.title (String.ofList (letter :: rest)))
    else
      match named? specs (String.ofList ['-', letter]), rest with
      | none, _ => .error (.unusedValue spec.title (String.ofList (letter :: rest)))
      | some next, [] => .ok ([spec], next, none)
      | some next, rest => do
        let (flags, last, value) ← unfoldAttached specs next true rest
        return (spec :: flags, last, value)

/-- The values that follow an option. -/
def valuesOf (spec : OptionSpec α) (following : List (Word α)) : Except UsageFault (List String) :=
  match spec.arity, following with
  | .flag, _ => .ok []
  | .one, .value text :: _ => .ok [text]
  | .one, _ => .error (.expectsOne spec.title)
  | .several, following =>
    let values := (following.takeWhile Word.isValue).map Word.text
    if values.isEmpty then .error (.expectsSome spec.title) else .ok values

/-- What the options have said, the arguments that are left over, and those from the first value on,
if reading stops there. -/
structure Reading (α : Type) where
  collected : α
  leftOver : List String := []
  rest : List String := []

/-- Reads words from left to right. -/
def read (specs : List (OptionSpec α)) (stopsAtValue : Bool) :
    List (Word α) → α → Except UsageFault (Reading α)
  | [], collected => .ok { collected }
  | .option spec name attached _ :: following, collected => do
    let (flags, last, value) ← match attached with
      | none => pure ([], spec, none)
      | some attached =>
        unfoldAttached specs spec ((name.toList.drop 1).head? != some '-') attached.toList
    let values ← match value with
      | some value => pure [value]
      | none => valuesOf last following
    let collected ← flags.foldlM (fun collected flag => flag.collect [] collected) collected
    let collected ← last.collect values collected
    read specs stopsAtValue (following.drop (if value.isSome then 0 else values.length)) collected
  | .unknown text :: following, collected => do
    let reading ← read specs stopsAtValue following collected
    return { reading with leftOver := text :: reading.leftOver }
  | word :: following, collected =>
    if stopsAtValue then .ok { collected, rest := (word :: following).map Word.text }
    else do
      let reading ← read specs stopsAtValue following collected
      return { reading with leftOver := word.text :: reading.leftOver }
termination_by words => words.length

end ChangeImpact.CommandLine
