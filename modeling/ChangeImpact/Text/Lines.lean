/-!
# Line ends

Every spelling of a line end, `\r\n` and `\r` included, is read as a line feed.
-/

namespace ChangeImpact.Text

/-- The text with a line feed for every line end. -/
def unifyLines : List Char → List Char
  | [] => []
  | '\r' :: '\n' :: rest => '\n' :: unifyLines rest
  | '\r' :: rest => '\n' :: unifyLines rest
  | c :: rest => c :: unifyLines rest

end ChangeImpact.Text
