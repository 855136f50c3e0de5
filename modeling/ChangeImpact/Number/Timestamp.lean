import ChangeImpact.Number.Binary64

/-!
# Points in time

A point in time is a whole number of nanoseconds.  Reports give it in seconds, as a binary number.
-/

namespace ChangeImpact

/-- A point in time, in nanoseconds. -/
structure Timestamp where
  nanoseconds : Int
deriving DecidableEq, Repr, Inhabited

namespace Timestamp

/-- The nanoseconds of a second. -/
def perSecond : Nat := 1000000000

/-- A whole number of seconds. -/
def ofWholeSeconds (seconds : Int) : Timestamp := ⟨seconds * perSecond⟩

/-- The time in seconds: the fraction is computed first and then added to the whole seconds, each
time with the nearest binary number. -/
def seconds (time : Timestamp) : Binary64 :=
  let whole := time.nanoseconds.fdiv perSecond
  let rest := (time.nanoseconds.fmod perSecond).toNat
  match Binary64.ofDecimal false 1 (-9) with
  | .finite _ significand exponent =>
    let (num, den) := Binary64.ratio significand exponent
    match Binary64.ofRatio false (num * rest) den with
    | .finite _ significand exponent =>
      let (num, den) := Binary64.ratio significand exponent
      let sum := whole * den + num
      Binary64.ofRatio (sum < 0) sum.natAbs den
    | other => other
  | other => other

/-- The time of a number of seconds, without what is left below a nanosecond. -/
def ofSeconds : Binary64 → Timestamp
  | .finite negative significand exponent =>
    let (num, den) := Binary64.ratio significand exponent
    let whole := num / den * perSecond
    match Binary64.ofRatio false (num % den * perSecond) den with
    | .finite _ significand exponent =>
      let (num, den) := Binary64.ratio significand exponent
      if negative then ⟨-(whole + (num + den - 1) / den : Nat)⟩ else ⟨(whole + num / den : Nat)⟩
    | _ => ⟨0⟩
  | _ => ⟨0⟩

end Timestamp
end ChangeImpact
