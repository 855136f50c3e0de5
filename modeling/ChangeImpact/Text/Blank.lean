import ChangeImpact.Text.CharRange

/-!
# Blank characters

The blank characters are those that Unicode gives a white-space, paragraph or segment separating
direction or the category of a space.  Besides the usual ones they include the information
separators `0x1c` to `0x1f` and the next-line control `0x85`.  `strip` cuts them off both ends of a
text.
-/

namespace ChangeImpact.Text

/-- The code points of the blank characters. -/
def blankRanges : CharRanges :=
  [
   (0x0009, 0x000d), (0x001c, 0x0020), (0x0085, 0x0085), (0x00a0, 0x00a0), (0x1680, 0x1680), (0x2000, 0x200a),
   (0x2028, 0x2029), (0x202f, 0x202f), (0x205f, 0x205f), (0x3000, 0x3000)]

/-- Whether a character is blank. -/
def isBlank (c : Char) : Bool :=
  blankRanges.holds c

/-- The text without the blanks at its start. -/
def stripLeft (text : List Char) : List Char :=
  text.dropWhile isBlank

/-- The text without the blanks at its end. -/
def stripRight (text : List Char) : List Char :=
  (text.reverse.dropWhile isBlank).reverse

/-- The text without the blanks at either end. -/
def strip (text : List Char) : List Char :=
  stripRight (stripLeft text)

/-- `strip` on strings. -/
def stripString (text : String) : String :=
  String.ofList (strip text.toList)

end ChangeImpact.Text
