import ChangeImpact.Text.Hex

/-!
# UTF-8

A character is one to four bytes.  The first of them tells how many more are owed and in which range
the next one has to be; the others have to be tails.  Bytes that are no text are refused with the
first fault and where it is.

* `encode` writes a text as bytes.
* `decode` reads bytes as a text.
-/

namespace ChangeImpact.Text.Utf8

/-- The bytes of a text. -/
def encode (text : List Char) : List UInt8 :=
  text.flatMap String.utf8EncodeChar

/-! ## Faults -/

/-- What is wrong with a character's bytes. -/
inductive Cause where
  | start | continuation | endOfData
deriving DecidableEq, Repr

/-- How a cause is called. -/
def Cause.message : Cause → String
  | start => "invalid start byte"
  | continuation => "invalid continuation byte"
  | endOfData => "unexpected end of data"

/-- A fault: its cause, the position of the character, its first byte, and how many bytes of it could
still be read. -/
structure Fault where
  cause : Cause
  position : Nat
  first : UInt8
  size : Nat
deriving DecidableEq, Repr

/-- How a fault is reported.  A single byte is shown, of several bytes the positions. -/
def Fault.message (fault : Fault) : String :=
  let place :=
    if fault.size = 1 then
      "byte 0x" ++ String.ofList (Text.hexDigits 2 fault.first.toNat) ++ " in position " ++
        toString fault.position
    else s!"bytes in position {fault.position}-{fault.position + fault.size - 1}"
  "'utf-8' codec can't decode " ++ place ++ ": " ++ fault.cause.message

/-! ## Reading a character -/

/-- What a character's first byte says: its part of the character's number, how many more bytes are
owed, and the range of the next one. -/
structure Lead where
  value : Nat
  owed : Nat
  least : Nat := 0x80
  greatest : Nat := 0xbf
deriving DecidableEq, Repr

/-- What a byte says as the first one of a character. -/
def lead? (byte : UInt8) : Option Lead :=
  let b := byte.toNat
  if b < 0x80 then some { value := b, owed := 0 }
  else if b < 0xc2 then none
  else if b < 0xe0 then some { value := b - 0xc0, owed := 1 }
  else if b = 0xe0 then some { value := 0, owed := 2, least := 0xa0 }
  else if b = 0xed then some { value := 0xd, owed := 2, greatest := 0x9f }
  else if b < 0xf0 then some { value := b - 0xe0, owed := 2 }
  else if b = 0xf0 then some { value := 0, owed := 3, least := 0x90 }
  else if b < 0xf4 then some { value := b - 0xf0, owed := 3 }
  else if b = 0xf4 then some { value := 4, owed := 3, greatest := 0x8f }
  else none

/-- Whether a byte can stand after the second byte of a character. -/
def isTail (byte : UInt8) : Bool :=
  0x80 ≤ byte.toNat && byte.toNat ≤ 0xbf

/-- The bytes that continue a character, as far as they are right. -/
def Lead.tails (lead : Lead) : List UInt8 → List UInt8
  | [] => []
  | next :: rest =>
    if lead.owed ≠ 0 ∧ lead.least ≤ next.toNat ∧ next.toNat ≤ lead.greatest then
      next :: (rest.take (lead.owed - 1)).takeWhile isTail
    else []

/-- The character of a first byte and its tails. -/
def Lead.char (lead : Lead) (tails : List UInt8) : Char :=
  Char.ofNat (tails.foldl (fun value byte => 64 * value + (byte.toNat - 0x80)) lead.value)

/-! ## Reading a text -/

/-- Reads bytes of which the first is at a given position. -/
def decodeFrom (position : Nat) : List UInt8 → Except Fault (List Char)
  | [] => .ok []
  | first :: rest =>
    match lead? first with
    | none => .error ⟨.start, position, first, 1⟩
    | some lead =>
      let tails := lead.tails rest
      if tails.length = lead.owed then
        (decodeFrom (position + 1 + lead.owed) (rest.drop lead.owed)).map (lead.char tails :: ·)
      else
        let cause := if tails.length = rest.length then .endOfData else .continuation
        .error ⟨cause, position, first, 1 + tails.length⟩
termination_by bytes => bytes.length
decreasing_by
  rw [List.length_drop, List.length_cons]
  omega

/-- The text that bytes encode. -/
def decode (bytes : List UInt8) : Except Fault (List Char) :=
  decodeFrom 0 bytes

end ChangeImpact.Text.Utf8
