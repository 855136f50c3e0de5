import ChangeImpact.Text.Quoted

/-!
# Texts with halves of pairs

A document may escape one half of a surrogate pair without the other.  Such a half is no character, so a text
that holds one is no string.  It is kept by its code points, and is told apart from every other text.
-/

namespace ChangeImpact

/-- Whether a code point is half of a surrogate pair. -/
def Text.isHalf (point : Nat) : Bool := 0xd800 ≤ point && point < 0xe000

/-- A text that holds half of a pair, by its code points. -/
structure HalvedText where
  points : List Nat
  halved : points.any Text.isHalf = true
deriving DecidableEq, Repr

/-- A text as a document may have it. -/
inductive Wording where
  | whole (text : String)
  | halved (text : HalvedText)
deriving DecidableEq, Repr

namespace Wording

/-- The text of code points. -/
def ofPoints (points : List Nat) : Wording :=
  if h : points.any Text.isHalf = true then halved ⟨points, h⟩
  else whole (String.ofList (points.map Char.ofNat))

/-- The code points of a text. -/
def points : Wording → List Nat
  | whole text => text.toList.map Char.toNat
  | halved text => text.points

/-- The string that a text is, if it is one. -/
def string? : Wording → Option String
  | whole text => some text
  | halved _ => none

end Wording

namespace HalvedText

/-- The escape by which a half is shown. -/
def shownHalf (point : Nat) : List Char := ['\\', 'u'] ++ Text.hexDigits 4 point

/-- The text with its halves escaped. -/
def shown (text : HalvedText) : String :=
  String.ofList (text.points.flatMap fun point =>
    if Text.isHalf point then shownHalf point else [Char.ofNat point])

/-- The text in quotation marks. -/
def quoted (text : HalvedText) : String :=
  let quote := Text.quoteFor (text.points.map Char.ofNat)
  String.ofList (quote :: text.points.flatMap (fun point =>
    if Text.isHalf point then shownHalf point else Text.quoteChar quote (Char.ofNat point)) ++ [quote])

end HalvedText

/-- The text in quotation marks. -/
def Wording.quoted : Wording → String
  | whole text => Text.quoted text
  | halved text => text.quoted

end ChangeImpact
