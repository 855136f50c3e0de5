import ChangeImpact.Json.Basic

/-!
# Values as keys

A table may be keyed by values of any kind but arrays and objects.  Two values are the same key if they
are equal: numbers by what they are, whichever way they are written, with the truth values as one and
zero, and texts by their characters.

* `Key.code_injective` says that the code of a key is its own; keys are ordered by their codes.
-/

namespace ChangeImpact

/-- The integer that a number is, if it is one. -/
def Binary64.integer? : Binary64 → Option Int
  | finite negative significand exponent =>
    let (num, den) := ratio significand exponent
    if num % den = 0 then some (if negative then -((num / den : Nat) : Int) else (num / den : Nat))
    else none
  | _ => none

/-- A value as a key. -/
inductive Key where
  | null
  | integer (value : Int)
  /-- A number that is no integer. -/
  | number (value : Binary64)
  /-- A text, by its code points. -/
  | text (points : List Nat)
deriving DecidableEq, Repr, Inhabited

namespace Key

/-- A number as a key. -/
def ofNumber (value : Binary64) : Key :=
  match value.integer? with
  | some n => integer n
  | none => number value

/-- A string as a key. -/
def ofString (text : String) : Key := .text (text.toList.map Char.toNat)

/-- The key that a value is, if it is one. -/
def ofJson? : Json → Option Key
  | .null => some null
  | .bool value => some (integer (if value then 1 else 0))
  | .int value => some (integer value)
  | .float value => some (ofNumber value)
  | .string value => some (ofString value)
  | .halved value => some (text value.points)
  | .array _ | .object _ | .halvedObject _ => none

/-- Equality of keys as it is asked for by itself, and not when a key is looked up: not-a-number is found
as the key that it is, and still does not equal itself. -/
instance : BEq Key where
  beq first second := first ≠ number .nan && decide (first = second)

/-! ## The order of keys -/

/-- A key as a list of numbers. -/
def code : Key → List Int
  | null => [0]
  | integer value => [1, value]
  | number (.finite negative significand exponent) => [2, negative.toInt, significand, exponent]
  | number (.infinite negative) => [3, negative.toInt]
  | number .nan => [4]
  | text points => 5 :: points.map Nat.cast

/-- The key with a code. -/
def ofCode : List Int → Key
  | [1, value] => integer value
  | [2, sign, significand, exponent] => number (.finite (sign == 1) significand.toNat exponent)
  | [3, sign] => number (.infinite (sign == 1))
  | [4] => number .nan
  | 5 :: points => text (points.map Int.toNat)
  | _ => null

theorem ofCode_code (key : Key) : ofCode key.code = key := by
  have hsign : ∀ negative : Bool, (negative.toInt == 1) = negative := by decide
  cases key with
  | null => rfl
  | integer value => rfl
  | number value =>
    cases value with
    | finite negative significand exponent =>
      rw [code, ofCode, hsign, Int.toNat_natCast]
    | infinite negative => rw [code, ofCode, hsign]
    | nan => rfl
  | text points =>
    have hpoints : (points.map Nat.cast).map Int.toNat = points := by
      rw [List.map_map]
      exact List.map_id'' Int.toNat_natCast points
    rw [code, ofCode, hpoints]

theorem code_injective {first second : Key} (h : first.code = second.code) : first = second := by
  rw [← ofCode_code first, h, ofCode_code]

instance : LT Key := ⟨fun first second => first.code < second.code⟩

instance : LE Key := ⟨fun first second => ¬ second.code < first.code⟩

instance : Std.IsLinearOrder Key where
  le_refl first := List.lt_irrefl first.code
  le_trans _ _ _ h h' := List.le_trans (α := Int) h h'
  le_antisymm _ _ h h' := code_injective (List.le_antisymm h h')
  le_total first second := List.le_total first.code second.code

instance : Std.LawfulOrderLT Key where
  lt_iff first second := by
    show first.code < second.code ↔ ¬ second.code < first.code ∧ ¬ ¬ first.code < second.code
    exact ⟨fun hlt => ⟨List.lt_asymm hlt, not_not_intro hlt⟩, fun h => Decidable.not_not.mp h.2⟩

instance : DecidableLT Key := fun first second => inferInstanceAs (Decidable (first.code < second.code))

end Key

/-- Whether a value can be the key of a table. -/
def Json.isKey (value : Json) : Bool := (Key.ofJson? value).isSome

end ChangeImpact
