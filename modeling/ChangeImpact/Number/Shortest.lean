import ChangeImpact.Number.Binary64

/-!
# Shortest decimal digits

A binary number is written with the fewest significant digits from which it can be read back.  Among
the decimals with that many digits the one nearest to the number is taken.

For each count of digits the two neighbours of the number on the grid of decimals with that many
digits are tried.  If any point of the grid reads back as the number, then so does one of the two.
-/

namespace ChangeImpact.Binary64

/-- A decimal `digits · 10 ^ exponent`. -/
structure Decimal where
  digits : Nat
  exponent : Int
deriving DecidableEq, Repr, Inhabited

/-- How many decimal digits a natural number has. -/
def digitCount (n : Nat) : Nat :=
  (Nat.toDigits 10 n).length

/-- The exponent of the power of ten at or below a positive `num / den`. -/
def decimalExponent (num den : Nat) : Int :=
  let guess : Int := (digitCount num : Int) - digitCount den
  if den * Nat.pow 10 guess.toNat ≤ num * Nat.pow 10 (-guess).toNat then guess else guess - 1

/-- The decimal without zeros at the end of its digits. -/
def dropZeros : Nat → Decimal → Decimal
  | 0, d => d
  | fuel + 1, d =>
    if d.digits ≠ 0 ∧ d.digits % 10 = 0 then dropZeros fuel ⟨d.digits / 10, d.exponent + 1⟩ else d

/-- Whether a decimal is read as the number with this significand and exponent. -/
def readsBack (significand : Nat) (exponent : Int) (d : Decimal) : Bool :=
  ofDecimal false d.digits d.exponent == finite false significand exponent

/-- Of the two decimals with `count` digits next to a number, the nearest that reads back. -/
def neighbour? (significand : Nat) (exponent : Int) (count : Nat) : Option Decimal :=
  let (num, den) := ratio significand exponent
  let grid : Int := decimalExponent num den - count + 1
  let scaledNum := num * Nat.pow 10 (-grid).toNat
  let scaledDen := den * Nat.pow 10 grid.toNat
  let below := scaledNum / scaledDen
  let nearest := divideToEven scaledNum scaledDen
  let other := if nearest = below then below + 1 else below
  [nearest, other].map (Decimal.mk · grid) |>.find? (readsBack significand exponent)

/-- The shortest decimal that reads back as a positive finite number. -/
def shortest (significand : Nat) (exponent : Int) : Decimal :=
  match (List.range' 1 17).findSome? (neighbour? significand exponent) with
  | some d => dropZeros 20 d
  | none => ⟨0, 0⟩

/-! ## The written form -/

/-- How numbers are written: positionally up to a power of ten, with an exponent beyond. -/
structure Style where
  /-- The point stands at least this many places after the first digit. -/
  leastPoint : Int
  /-- The point stands at most this many places after the first digit. -/
  greatestPoint : Int
  /-- The least number of digits of an exponent. -/
  exponentWidth : Nat

/-- Positional between `0.0001` and `10 ^ 16`, and exponents with two digits at least. -/
def plain : Style := ⟨-3, 16, 2⟩

/-- The digits of a natural number, padded with zeros to a width. -/
def paddedDigits (width n : Nat) : List Char :=
  let digits := Nat.toDigits 10 n
  List.replicate (width - digits.length) '0' ++ digits

/-- Digits with the point after the first `point` of them; a fraction is always written. -/
def positional (digits : List Char) (point : Int) : List Char :=
  if point ≤ 0 then ['0', '.'] ++ List.replicate (-point).toNat '0' ++ digits
  else
    let whole := digits.take point.toNat
    let fraction := digits.drop point.toNat
    whole ++ List.replicate (point.toNat - whole.length) '0' ++ ['.'] ++
      (if fraction.isEmpty then ['0'] else fraction)

/-- Digits with the point after the first of them, and an exponent. -/
def scientific (style : Style) (digits : List Char) (point : Int) : List Char :=
  let power := point - 1
  digits.take 1 ++ (if digits.length ≤ 1 then [] else '.' :: digits.drop 1) ++ ['e'] ++
    [if power < 0 then '-' else '+'] ++ paddedDigits style.exponentWidth power.natAbs

/-- A decimal in a notation. -/
def Decimal.render (style : Style) (d : Decimal) : List Char :=
  let digits := Nat.toDigits 10 d.digits
  let point : Int := digits.length + d.exponent
  if style.leastPoint ≤ point ∧ point ≤ style.greatestPoint then positional digits point
  else scientific style digits point

/-- The written form of a number that is finite; `none` for the others. -/
def text? : Binary64 → Option (List Char)
  | finite negative significand exponent =>
    let digits :=
      if significand = 0 then ['0', '.', '0'] else (shortest significand exponent).render plain
    some (if negative then '-' :: digits else digits)
  | _ => none

end ChangeImpact.Binary64
