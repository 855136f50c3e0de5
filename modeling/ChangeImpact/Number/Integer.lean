import ChangeImpact.Text.Blank
import ChangeImpact.Text.Digit

/-!
# Reading integers

An integer that a person has typed: blanks around it, a sign, and digits of any script, between which
single underscores may stand.
-/

namespace ChangeImpact

/-- The most digits that are read as an integer. -/
def mostIntegerDigits : Nat := 4300

/-- Reads digits; `expected` tells that the next character must be one. -/
private def readDigits (value : Nat) (expected : Bool) : List Char → Option Nat
  | [] => if expected then none else some value
  | '_' :: rest => if expected then none else readDigits value true rest
  | c :: rest => (Text.digitValue? c).bind fun digit => readDigits (10 * value + digit) false rest

/-- The natural number that digits with underscores between them denote. -/
def readNatural? (digits : List Char) : Option Nat :=
  if mostIntegerDigits < (digits.filter (· != '_')).length then none
  else readDigits 0 true digits

/-- The integer that a text denotes. -/
def readInteger? (text : String) : Option Int :=
  match Text.strip text.toList with
  | '-' :: digits => (readNatural? digits).map fun n => -(n : Int)
  | '+' :: digits => (readNatural? digits).map Int.ofNat
  | digits => (readNatural? digits).map Int.ofNat

end ChangeImpact
