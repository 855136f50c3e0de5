import ChangeImpact.Number.Shortest
import ChangeImpact.Text.Wording

/-!
# JSON values

A JSON value as the documents of the library hold it.  Numbers without a fraction and exponent are
integers of any size, all others are 64-bit binary numbers.  The fields of an object keep their order.

A text is a string, and so is the name of a field, unless half of a surrogate pair stands in it by itself.
Values with such texts have forms of their own (`halved`, `halvedObject`).
-/

namespace ChangeImpact

/-- A JSON value. -/
inductive Json where
  | null
  | bool (value : Bool)
  | int (value : Int)
  | float (value : Binary64)
  | string (value : String)
  /-- A text that holds half of a pair. -/
  | halved (value : HalvedText)
  | array (items : List Json)
  | object (fields : List (String × Json))
  /-- An object of which some name holds half of a pair. -/
  | halvedObject (fields : List (Wording × Json))
deriving Inhabited

namespace Json

/-! ## Fields -/

section Fields

variable {ν : Type} [BEq ν]

/-- The value of a field, or `none` if there is no such field. -/
def field? (fields : List (ν × Json)) (name : ν) : Option Json :=
  (fields.find? fun field => field.1 == name).map (·.2)

/-- Sets a field: one that is there keeps its place and takes the new value. -/
def setField (fields : List (ν × Json)) (name : ν) (value : Json) : List (ν × Json) :=
  if fields.any (·.1 == name) then
    fields.map fun field => if field.1 == name then (name, value) else field
  else fields ++ [(name, value)]

end Fields

/-- The field with a string for its name, if its name is one. -/
def stringField? (field : Wording × Json) : Option (String × Json) :=
  field.1.string?.map fun name => (name, field.2)

/-- An object with given fields. -/
def ofFields (fields : List (Wording × Json)) : Json :=
  match fields.mapM stringField? with
  | some fields => object fields
  | none => halvedObject fields

/-- The fields of an object whose names are strings. -/
def fields? : Json → Option (List (String × Json))
  | object fields => some fields
  | halvedObject fields => some (fields.filterMap stringField?)
  | _ => none

/-! ## Texts -/

/-- A text as a value. -/
def ofWording : Wording → Json
  | .whole text => string text
  | .halved text => halved text

/-- The text that a value is, if it is one. -/
def text? : Json → Option String
  | string text => some text
  | _ => none

/-! ## Equality -/

/-- The number that a value stands for in comparisons; the truth values count as one and zero. -/
def number? : Json → Option (Int ⊕ Binary64)
  | bool value => some (.inl (if value then 1 else 0))
  | int value => some (.inl value)
  | float value => some (.inr value)
  | _ => none

/-- Whether two numbers are equal, whatever their kinds. -/
def sameNumber : Int ⊕ Binary64 → Int ⊕ Binary64 → Bool
  | .inl m, .inl n => m == n
  | .inl m, .inr y => y.equalsInt m
  | .inr x, .inl n => x.equalsInt n
  | .inr x, .inr y => x.same y

mutual

/-- Whether two values are equal.  Numbers are compared by value and objects without regard to the
order of their fields. -/
def same : Json → Json → Bool
  | null, null => true
  | string s, string t => s == t
  | halved s, halved t => s == t
  | array xs, array ys => sameItems xs ys
  | object fs, object gs => fs.length == gs.length && sameFields fs gs
  | halvedObject fs, halvedObject gs => fs.length == gs.length && sameHalvedFields fs gs
  | x, y =>
    match number? x, number? y with
    | some m, some n => sameNumber m n
    | _, _ => false
termination_by structural x => x

/-- Whether two lists hold equal values in the same order. -/
def sameItems : List Json → List Json → Bool
  | [], [] => true
  | x :: xs, y :: ys => same x y && sameItems xs ys
  | _, _ => false
termination_by structural xs => xs

/-- Whether every field of the first list has an equal field in the second. -/
def sameFields : List (String × Json) → List (String × Json) → Bool
  | [], _ => true
  | (name, x) :: fs, gs =>
    (match field? gs name with
      | some y => same x y
      | none => false) && sameFields fs gs
termination_by structural fs => fs

/-- `sameFields` where halves stand in names. -/
def sameHalvedFields : List (Wording × Json) → List (Wording × Json) → Bool
  | [], _ => true
  | (name, x) :: fs, gs =>
    (match field? gs name with
      | some y => same x y
      | none => false) && sameHalvedFields fs gs
termination_by structural fs => fs

end

/-! ## Values in messages -/

mutual

/-- A value as messages show it, with texts quoted. -/
def shown : Json → String
  | null => "None"
  | bool true => "True"
  | bool false => "False"
  | int value => toString value
  | float (.infinite negative) => if negative then "-inf" else "inf"
  | float value =>
    match value.text? with
    | some text => String.ofList text
    | none => "nan"
  | string value => Text.quoted value
  | halved value => value.quoted
  | array items => "[" ++ ", ".intercalate (shownItems items) ++ "]"
  | object fields => "\x7b" ++ ", ".intercalate (shownFields fields) ++ "\x7d"
  | halvedObject fields => "\x7b" ++ ", ".intercalate (shownHalvedFields fields) ++ "\x7d"

/-- The values of a list as messages show them. -/
def shownItems : List Json → List String
  | [] => []
  | item :: items => shown item :: shownItems items

/-- The fields of an object as messages show them. -/
def shownFields : List (String × Json) → List String
  | [] => []
  | (name, value) :: fields => (Text.quoted name ++ ": " ++ shown value) :: shownFields fields

/-- `shownFields` where halves stand in names. -/
def shownHalvedFields : List (Wording × Json) → List String
  | [] => []
  | (name, value) :: fields => (name.quoted ++ ": " ++ shown value) :: shownHalvedFields fields

end

/-- A value as messages show it where it stands by itself: a text is not quoted. -/
def shownAlone : Json → String
  | string value => value
  | halved value => value.shown
  | value => shown value

end Json
end ChangeImpact
