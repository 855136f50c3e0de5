/-!
# Binary floating-point numbers

The 64-bit binary numbers of IEEE 754, kept as sign, significand and exponent, so that their value is
in the logic: `finite negative m e` stands for `m · 2 ^ e`, negated if `negative`.

Every number that a program reads or computes goes through `ofRatio`, which takes the nearest
number, the one with the even significand if two are equally near.
-/

namespace ChangeImpact

/-- A 64-bit binary number.  `ofRatio` keeps significands below `2 ^ 53` and exponents at or above
`-1074`, and gives each value a single form. -/
inductive Binary64 where
  | finite (negative : Bool) (significand : Nat) (exponent : Int)
  | infinite (negative : Bool)
  | nan
deriving DecidableEq, Repr, Inhabited

namespace Binary64

/-- The exponent of the smallest positive number. -/
def leastExponent : Int := -1074

/-- The largest exponent of a finite number. -/
def greatestExponent : Int := 971

/-- Zero. -/
def zero : Binary64 := finite false 0 leastExponent

/-- The nearest natural number to a quotient; of two the even one. -/
def divideToEven (num den : Nat) : Nat :=
  let quotient := num / den
  let twice := 2 * (num % den)
  if twice < den then quotient
  else if den < twice then quotient + 1
  else quotient + quotient % 2

/-- Numerator and denominator of `num / den` divided by `2 ^ exponent`. -/
def scaleDown (num den : Nat) (exponent : Int) : Nat × Nat :=
  (num * Nat.pow 2 (-exponent).toNat, den * Nat.pow 2 exponent.toNat)

/-- The exponent at which `num / den` has a significand of 53 bits, if the number is not too small
for that. -/
def exponentOf (num den : Nat) : Int :=
  let guess : Int := (num.log2 : Int) - den.log2 - 52
  let (scaledNum, scaledDen) := scaleDown num den guess
  max leastExponent (if scaledNum < Nat.pow 2 52 * scaledDen then guess - 1 else guess)

/-- The number nearest to `num / den`. -/
def ofRatio (negative : Bool) (num den : Nat) : Binary64 :=
  if num = 0 ∨ den = 0 then finite negative 0 leastExponent
  else
    let exponent := exponentOf num den
    let (scaledNum, scaledDen) := scaleDown num den exponent
    let significand := divideToEven scaledNum scaledDen
    let (significand, exponent) :=
      if significand = Nat.pow 2 53 then (Nat.pow 2 52, exponent + 1) else (significand, exponent)
    if greatestExponent < exponent then infinite negative
    else finite negative significand exponent

/-- The number nearest to `digits · 10 ^ exponent`.  Far outside the range of the finite numbers
the power is not computed: four bits make up more than a decimal digit, and three bits less than one. -/
def ofDecimal (negative : Bool) (digits : Nat) (exponent : Int) : Binary64 :=
  let bits : Int := digits.log2
  if digits = 0 then finite negative 0 leastExponent
  else if 400 < bits / 4 + exponent then infinite negative
  else if bits / 3 + 1 + exponent < -400 then finite negative 0 leastExponent
  else ofRatio negative (digits * Nat.pow 10 exponent.toNat) (Nat.pow 10 (-exponent).toNat)

/-- Numerator and denominator of the absolute value of a finite number. -/
def ratio (significand : Nat) (exponent : Int) : Nat × Nat :=
  (significand * Nat.pow 2 exponent.toNat, Nat.pow 2 (-exponent).toNat)

/-- Whether the number is exactly the given integer. -/
def equalsInt (x : Binary64) (n : Int) : Bool :=
  match x with
  | finite negative significand exponent =>
    let (num, den) := ratio significand exponent
    (if negative then -(num : Int) else num) == n * den
  | _ => false

/-- Whether two numbers have the same value.  The two zeros do; not-a-number counts as one value. -/
def same (x y : Binary64) : Bool :=
  match x, y with
  | finite _ 0 _, finite _ 0 _ => true
  | x, y => decide (x = y)

end Binary64
end ChangeImpact
