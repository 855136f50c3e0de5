/-!
# Ranges of characters

A class of characters is written down as a list of closed ranges of code points, in increasing
order.  The tables of this folder hold the classes that the text rules of the library need, each as
Unicode 14.0 has it.
-/

namespace ChangeImpact.Text

/-- The closed ranges of code points that make up a class of characters. -/
abbrev CharRanges := List (Nat × Nat)

/-- Whether the code point of a character falls into one of the ranges. -/
def CharRanges.holds (ranges : CharRanges) (c : Char) : Bool :=
  ranges.any fun range => range.1 ≤ c.toNat && c.toNat ≤ range.2

end ChangeImpact.Text
