import ChangeImpact.Json.Basic

/-!
# Writing JSON

Values are written over several lines, two spaces deeper for each array or object around them, and
with nothing but ASCII: every other character is escaped by its UTF-16 units.  Fields come in the
order of the object, or sorted by name.
-/

namespace ChangeImpact.Json

/-- The escape of one UTF-16 unit. -/
def escapeUnit (unit : Nat) : List Char :=
  ['\\', 'u'] ++ Text.hexDigits 4 unit

/-- A character inside a string. -/
def escapeChar (c : Char) : List Char :=
  if c = '"' then ['\\', '"']
  else if c = '\\' then ['\\', '\\']
  else if c = '\n' then ['\\', 'n']
  else if c = '\r' then ['\\', 'r']
  else if c = '\t' then ['\\', 't']
  else if c.toNat = 0x0c then ['\\', 'f']
  else if c.toNat = 0x08 then ['\\', 'b']
  else if 0x20 ≤ c.toNat ∧ c.toNat ≤ 0x7e then [c]
  else if c.toNat < 0x10000 then escapeUnit c.toNat
  else
    escapeUnit (0xd800 + (c.toNat - 0x10000) / 0x400) ++
      escapeUnit (0xdc00 + (c.toNat - 0x10000) % 0x400)

/-- A string in its quotation marks. -/
def printString (s : String) : List Char :=
  '"' :: s.toList.flatMap escapeChar ++ ['"']

/-- A text that holds half of a pair, in its quotation marks. -/
def printHalved (text : HalvedText) : List Char :=
  '"' :: text.points.flatMap (fun point =>
    if Text.isHalf point then escapeUnit point else escapeChar (Char.ofNat point)) ++ ['"']

/-- The name of a field. -/
def printName : Wording → List Char
  | .whole text => printString text
  | .halved text => printHalved text

/-- A 64-bit binary number. -/
def printFloat : Binary64 → List Char
  | .infinite false => "Infinity".toList
  | .infinite true => "-Infinity".toList
  | value => value.text?.getD "NaN".toList

/-- A line break and the indentation of a depth. -/
def newline (depth : Nat) : List Char :=
  '\n' :: List.replicate (2 * depth) ' '

mutual

/-- A value at a depth of indentation. -/
def printAt (depth : Nat) : Json → List Char
  | null => "null".toList
  | bool true => "true".toList
  | bool false => "false".toList
  | int value => (toString value).toList
  | float value => printFloat value
  | string value => printString value
  | halved value => printHalved value
  | array [] => ['[', ']']
  | array (item :: items) =>
    '[' :: newline (depth + 1) ++ printAt (depth + 1) item ++ printItems (depth + 1) items ++
      newline depth ++ [']']
  | object [] => ['\x7b', '\x7d']
  | object ((name, value) :: fields) =>
    '\x7b' :: newline (depth + 1) ++ printString name ++ ':' :: ' ' :: printAt (depth + 1) value ++
      printFields (depth + 1) fields ++ newline depth ++ ['\x7d']
  | halvedObject [] => ['\x7b', '\x7d']
  | halvedObject ((name, value) :: fields) =>
    '\x7b' :: newline (depth + 1) ++ printName name ++ ':' :: ' ' :: printAt (depth + 1) value ++
      printHalvedFields (depth + 1) fields ++ newline depth ++ ['\x7d']

/-- The items after the first one, each led by a comma. -/
def printItems (depth : Nat) : List Json → List Char
  | [] => []
  | item :: items => ',' :: newline depth ++ printAt depth item ++ printItems depth items

/-- The fields after the first one, each led by a comma. -/
def printFields (depth : Nat) : List (String × Json) → List Char
  | [] => []
  | (name, value) :: fields =>
    ',' :: newline depth ++ printString name ++ ':' :: ' ' :: printAt depth value ++
      printFields depth fields

/-- `printFields` where halves stand in names. -/
def printHalvedFields (depth : Nat) : List (Wording × Json) → List Char
  | [] => []
  | (name, value) :: fields =>
    ',' :: newline depth ++ printName name ++ ':' :: ' ' :: printAt depth value ++
      printHalvedFields depth fields

end

/-- The text of a value, its fields in their order. -/
def print (value : Json) : String :=
  String.ofList (printAt 0 value)

mutual

/-- The value with the fields of every object sorted by name. -/
def sorted : Json → Json
  | array items => array (sortedItems items)
  | object fields =>
    object ((sortedFields fields).mergeSort fun first second => first.1 ≤ second.1)
  | halvedObject fields =>
    halvedObject ((sortedHalvedFields fields).mergeSort fun first second =>
      ¬ second.1.points < first.1.points)
  | value => value

/-- Every value of a list with its fields sorted. -/
def sortedItems : List Json → List Json
  | [] => []
  | item :: items => sorted item :: sortedItems items

/-- Every field with the fields inside its value sorted. -/
def sortedFields : List (String × Json) → List (String × Json)
  | [] => []
  | (name, value) :: fields => (name, sorted value) :: sortedFields fields

/-- `sortedFields` where halves stand in names. -/
def sortedHalvedFields : List (Wording × Json) → List (Wording × Json)
  | [] => []
  | (name, value) :: fields => (name, sorted value) :: sortedHalvedFields fields

end

/-- The text of a value, all fields sorted by name. -/
def printSorted (value : Json) : String :=
  print (sorted value)

end ChangeImpact.Json
