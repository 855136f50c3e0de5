import ChangeImpact.Json.Basic

/-!
# Reading JSON

A text is read as one JSON value with blanks around it.  Besides JSON proper the numbers `NaN`,
`Infinity` and `-Infinity` are read.  A fault tells what was expected and at which character; of a
field that is given twice the last value counts.

Strings are read as code points, since an escape may stand for half of a surrogate pair.  How deep the
values of a text are nested does not matter, so a reader that runs out of its stack is left out.
-/

namespace ChangeImpact.Json

/-- Why a text is not a JSON value. -/
inductive ReadCause where
  | value | propertyName | colon | comma | extraData | byteOrderMark
  | unterminatedString | controlCharacter | escape | unicodeEscape
  | longInteger (digits : Nat)
deriving DecidableEq, Repr

/-- A cause, and how much of the text was left where it arose. -/
structure Refusal where
  cause : ReadCause
  left : Nat

private def refuse {α : Type} (cause : ReadCause) (rest : List Char) : Except Refusal α :=
  .error ⟨cause, rest.length⟩

/-- The blanks between the parts of a value. -/
def isGap (c : Char) : Bool :=
  c == ' ' || c == '\t' || c == '\n' || c == '\r'

/-- The text without the blanks at its start. -/
def skipGap (text : List Char) : List Char :=
  text.dropWhile isGap

/-! ## Numbers -/

/-- The value of decimal digits. -/
def digitsValue (digits : List Char) : Nat :=
  digits.foldl (fun n c => 10 * n + (c.toNat - 48)) 0

/-- The longest start of the text that consists of digits, and the rest. -/
def spanDigits (text : List Char) : List Char × List Char :=
  text.span Char.isDigit

/-- The whole part of a number: a zero, or digits that do not start with zero. -/
def wholePart? : List Char → Option (List Char × List Char)
  | '0' :: rest => some (['0'], rest)
  | text =>
    let (digits, rest) := spanDigits text
    if digits.isEmpty then none else some (digits, rest)

/-- The digits after a point, if there are any. -/
def fractionPart? : List Char → Option (List Char × List Char)
  | '.' :: text =>
    let (digits, rest) := spanDigits text
    if digits.isEmpty then none else some (digits, rest)
  | _ => none

/-- The exponent after an `e`, if there is one. -/
def exponentPart? : List Char → Option (Int × List Char)
  | c :: text =>
    if c = 'e' ∨ c = 'E' then
      let (negative, text) :=
        match text with
        | '-' :: rest => (true, rest)
        | '+' :: rest => (false, rest)
        | text => (false, text)
      let (digits, rest) := spanDigits text
      if digits.isEmpty then none
      else some (if negative then -(digitsValue digits : Int) else digitsValue digits, rest)
    else none
  | [] => none

/-- The most digits that an integer may have. -/
def longestInteger : Nat := 4300

/-- A number without its sign.  `source` is the text with the sign, to which a fault refers. -/
def readUnsigned (negative : Bool) (source text : List Char) : Except Refusal (Json × List Char) :=
  match wholePart? text with
  | none => refuse .value source
  | some (whole, rest) =>
    let fraction := fractionPart? rest
    let rest := (fraction.map (·.2)).getD rest
    let exponent := exponentPart? rest
    let rest := (exponent.map (·.2)).getD rest
    if fraction.isNone && exponent.isNone then
      if longestInteger < whole.length then refuse (.longInteger whole.length) source
      else
        let value : Int := digitsValue whole
        .ok (int (if negative then -value else value), rest)
    else
      let digits := (fraction.map (·.1)).getD []
      let power : Int := (exponent.map (·.1)).getD 0 - digits.length
      .ok (float (Binary64.ofDecimal negative (digitsValue (whole ++ digits)) power), rest)

/-- A number at the start of the text. -/
def readNumber (text : List Char) : Except Refusal (Json × List Char) :=
  match text with
  | '-' :: rest => readUnsigned true text rest
  | _ => readUnsigned false text text

/-! ## Strings -/

/-- The character of a short escape. -/
def shortEscape? (c : Char) : Option Char :=
  if c = '"' ∨ c = '\\' ∨ c = '/' then some c
  else if c = 'b' then some (Char.ofNat 8)
  else if c = 'f' then some (Char.ofNat 12)
  else if c = 'n' then some '\n'
  else if c = 'r' then some '\r'
  else if c = 't' then some '\t'
  else none

/-- The value of four hexadecimal digits. -/
def hexUnit? (a b c d : Char) : Option Nat := do
  let a ← Text.hexValue? a
  let b ← Text.hexValue? b
  let c ← Text.hexValue? c
  let d ← Text.hexValue? d
  return ((a * 16 + b) * 16 + c) * 16 + d

/-- Whether a UTF-16 unit is the first half of a pair. -/
def isHighSurrogate (unit : Nat) : Bool := 0xd800 ≤ unit && unit < 0xdc00

/-- Whether a UTF-16 unit is the second half of a pair. -/
def isLowSurrogate (unit : Nat) : Bool := 0xdc00 ≤ unit && unit < 0xe000

/-- The second unit of a pair, where the text goes on with an escape and does not end with it. -/
inductive SecondUnit where
  | absent
  | invalid
  | unit (value : Nat)

/-- Looks for a second unit right after a first one. -/
def secondUnit : List Char → SecondUnit
  | '\\' :: 'u' :: a :: b :: c :: d :: _ :: _ =>
    match hexUnit? a b c d with
    | some unit => .unit unit
    | none => .invalid
  | _ => .absent

/-- What the next code point of a string is. -/
inductive StringStep where
  | close (rest : List Char)
  | point (point : Nat) (rest : List Char)
  | refused (refusal : Refusal)

/-- Reads the digits of an escaped unit, and of the unit after it if the two make a pair.  `escape` is
what was left of the text at the letter of the escape. -/
def unicodeStep (escape : Nat) : List Char → StringStep
  | a :: b :: c :: d :: rest =>
    if rest.isEmpty then .refused ⟨.unicodeEscape, escape⟩
    else
      match hexUnit? a b c d with
      | none => .refused ⟨.unicodeEscape, escape⟩
      | some high =>
        if isHighSurrogate high then
          match secondUnit rest with
          | .absent => .point high rest
          | .invalid => .refused ⟨.unicodeEscape, rest.length - 1⟩
          | .unit low =>
            if isLowSurrogate low then
              .point (0x10000 + (high - 0xd800) * 0x400 + (low - 0xdc00)) (rest.drop 6)
            else .point high rest
        else .point high rest
  | _ => .refused ⟨.unicodeEscape, escape⟩

/-- Reads the next code point of a string.  `opening` is what was left of the text at the opening
quotation mark. -/
def stringStep (opening : Nat) : List Char → StringStep
  | [] => .refused ⟨.unterminatedString, opening⟩
  | '"' :: rest => .close rest
  | ['\\'] => .refused ⟨.unterminatedString, opening⟩
  | '\\' :: 'u' :: rest => unicodeStep (rest.length + 1) rest
  | '\\' :: c :: rest =>
    match shortEscape? c with
    | some e => .point e.toNat rest
    | none => .refused ⟨.escape, rest.length + 2⟩
  | c :: rest =>
    if c.toNat < 0x20 then .refused ⟨.controlCharacter, rest.length + 1⟩ else .point c.toNat rest

private theorem unicodeStep_shorter {escape point : Nat} {text rest : List Char}
    (h : unicodeStep escape text = .point point rest) : rest.length < text.length := by
  unfold unicodeStep at h
  repeat' split at h
  all_goals first
    | contradiction
    | (injection h with _ h; subst h; simp; try omega)

theorem stringStep_shorter {opening point : Nat} {text rest : List Char}
    (h : stringStep opening text = .point point rest) : rest.length < text.length := by
  unfold stringStep at h
  split at h
  · contradiction
  · contradiction
  · contradiction
  · have := unicodeStep_shorter h
    simp
    omega
  · split at h
    · injection h with _ h
      subst h
      simp only [List.length_cons]
      omega
    · contradiction
  · split at h
    · contradiction
    · injection h with _ h
      subst h
      simp

/-- Reads a string up to its closing quotation mark; `sofar` holds the code points read, the last one
first. -/
def readStringFrom (opening : Nat) (sofar : List Nat) (text : List Char) :
    Except Refusal (Wording × List Char) :=
  match _h : stringStep opening text with
  | .close rest => .ok (.ofPoints sofar.reverse, rest)
  | .point point rest => readStringFrom opening (point :: sofar) rest
  | .refused refusal => .error refusal
termination_by text.length
decreasing_by exact stringStep_shorter (by assumption)

/-- A string, after its opening quotation mark. -/
def readString (text : List Char) : Except Refusal (Wording × List Char) :=
  readStringFrom (text.length + 1) [] text

/-! ## Values -/

/-- A value that is written as a word, if the text starts with one. -/
def readWord? (text : List Char) : Option (Json × List Char) :=
  [("null", null), ("true", bool true), ("false", bool false), ("NaN", float .nan),
    ("Infinity", float (.infinite false)), ("-Infinity", float (.infinite true))].findSome?
    fun (word, value) =>
      if word.toList.isPrefixOf text then some (value, text.drop word.length) else none

mutual

/-- Reads a value at the start of the text.  The fuel bounds the nesting and the number of items;
the length of the text is always enough. -/
def readValue : Nat → List Char → Except Refusal (Json × List Char)
  | 0, text => refuse .value text
  | fuel + 1, text =>
    match text with
    | '"' :: rest => do
      let (value, rest) ← readString rest
      return (ofWording value, rest)
    | '\x7b' :: rest =>
      match skipGap rest with
      | '\x7d' :: rest => .ok (object [], rest)
      | rest => do
        let (fields, rest) ← readFields fuel [] rest
        return (ofFields fields, rest)
    | '[' :: rest =>
      match skipGap rest with
      | ']' :: rest => .ok (array [], rest)
      | rest => do
        let (items, rest) ← readItems fuel [] rest
        return (array items, rest)
    | text =>
      match readWord? text with
      | some found => .ok found
      | none => readNumber text

/-- Reads the items of an array up to its end; `sofar` holds those before, the last one first. -/
def readItems : Nat → List Json → List Char → Except Refusal (List Json × List Char)
  | 0, _, text => refuse .value text
  | fuel + 1, sofar, text => do
    let (item, rest) ← readValue fuel text
    match skipGap rest with
    | ']' :: rest => return ((item :: sofar).reverse, rest)
    | ',' :: rest => readItems fuel (item :: sofar) (skipGap rest)
    | rest => refuse .comma rest

/-- Reads the fields of an object up to its end; `sofar` holds those before. -/
def readFields : Nat → List (Wording × Json) → List Char →
    Except Refusal (List (Wording × Json) × List Char)
  | 0, _, text => refuse .value text
  | fuel + 1, sofar, text => do
    match text with
    | '"' :: rest => do
      let (name, rest) ← readString rest
      match skipGap rest with
      | ':' :: rest => do
        let (value, rest) ← readValue fuel (skipGap rest)
        match skipGap rest with
        | '\x7d' :: rest => return (setField sofar name value, rest)
        | ',' :: rest => readFields fuel (setField sofar name value) (skipGap rest)
        | rest => refuse .comma rest
      | rest => refuse .colon rest
    | text => refuse .propertyName text

end

/-! ## Whole texts -/

/-- Why and where a text was refused. -/
structure ReadError where
  cause : ReadCause
  /-- The number of characters before the fault. -/
  offset : Nat
  /-- The line of the fault, from one. -/
  line : Nat
  /-- The column of the fault in its line, from one. -/
  column : Nat
deriving DecidableEq, Repr

/-- Counts line and column of an offset in a text. -/
def ReadError.locate (cause : ReadCause) (text : List Char) (offset : Nat) : ReadError :=
  let before := text.take offset
  ⟨cause, offset, before.count '\n' + 1, (before.reverse.takeWhile (· != '\n')).length + 1⟩

/-- What a fault is called. -/
def ReadCause.message : ReadCause → String
  | value => "Expecting value"
  | propertyName => "Expecting property name enclosed in double quotes"
  | colon => "Expecting ':' delimiter"
  | comma => "Expecting ',' delimiter"
  | extraData => "Extra data"
  | byteOrderMark => "Unexpected UTF-8 BOM (decode using utf-8-sig)"
  | unterminatedString => "Unterminated string starting at"
  | controlCharacter => "Invalid control character at"
  | escape => "Invalid \\escape"
  | unicodeEscape => "Invalid \\uXXXX escape"
  | longInteger digits =>
    s!"Exceeds the limit ({longestInteger} digits) for integer string conversion: " ++
      s!"value has {digits} digits; use sys.set_int_max_str_digits() to increase the limit"

/-- Whether the fault lies in the notation, and not in the size of a number. -/
def ReadError.isNotation (e : ReadError) : Bool :=
  match e.cause with
  | .longInteger _ => false
  | _ => true

/-- The fault with its place. -/
def ReadError.message (e : ReadError) : String :=
  if e.isNotation then
    s!"{e.cause.message}: line {e.line} column {e.column} (char {e.offset})"
  else e.cause.message

/-- Reads a text that is one value with blanks around it. -/
def readChars (text : List Char) : Except ReadError Json :=
  let found : Except Refusal Json := do
    if text.head? == some (Char.ofNat 0xfeff) then refuse .byteOrderMark text
    else
      let (value, rest) ← readValue (2 * text.length + 2) (skipGap text)
      let rest := skipGap rest
      if rest.isEmpty then return value else refuse .extraData rest
  found.mapError fun refusal =>
    ReadError.locate refusal.cause text (text.length - refusal.left)

/-- `readChars` on strings. -/
def read (text : String) : Except ReadError Json :=
  readChars text.toList

end ChangeImpact.Json
