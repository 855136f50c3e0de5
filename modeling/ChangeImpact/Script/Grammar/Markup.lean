import ChangeImpact.Script.Grammar.Type

/-!
# Markup

Elements in angle brackets as values, with attributes and with text, expressions and further
elements between the opening and the closing tag.  The text between tags is no code: quotation
marks and comment signs in it mean nothing.
-/

namespace ChangeImpact.Script.Grammar

open Rule

variable (g : Grammar)

/-- What follows a character reference such as `&amp;` at the start of the text. -/
def afterReference? : List Char → Option (List Char)
  | '&' :: '#' :: x :: rest =>
    if x = 'x' ∨ x = 'X' then afterDigits 6 (fun c => (Text.hexValue? c).isSome) rest
    else afterDigits 5 Char.isDigit (x :: rest)
  | '&' :: rest => afterDigits 30 Char.isAlpha rest
  | _ => none
where
  /-- What follows some characters of a class and a semicolon. -/
  afterDigits (most : Nat) (isDigit : Char → Bool) (text : List Char) : Option (List Char) :=
    let count := (text.takeWhile isDigit).length
    match text.drop count with
    | ';' :: rest => if 0 < count ∧ count ≤ most then some rest else none
    | _ => none

/-- What follows the closing quotation mark of an attribute; the fuel bounds the length. -/
def afterAttributeString? (quote : Char) : Nat → List Char → Option (List Char)
  | 0, _ => none
  | _, [] => none
  | fuel + 1, c :: rest =>
    if c = quote then some rest
    else if c = '&' then
      match afterReference? (c :: rest), rest with
      | some after, _ => afterAttributeString? quote fuel after
      | none, next :: after =>
        if next = '#' ∨ next.isAlpha then none else afterAttributeString? quote fuel after
      | none, [] => none
    else afterAttributeString? quote fuel rest

/-- What follows an attribute's value in quotation marks. -/
def afterAttributeText? (text : List Char) : Option (List Char) :=
  match text with
  | c :: rest =>
    if c = '"' ∨ c = '\'' then afterAttributeString? c text.length rest else none
  | [] => none

/-- A name of an element or attribute without dots: it may hold hyphens. -/
def afterMarkupName? (text : List Char) : Option (List Char) :=
  match text with
  | c :: rest =>
    if Lexeme.isWordStart c then some (rest.dropWhile fun c => Lexeme.isWordChar c || c == '-')
    else none
  | [] => none

/-- A name of an element or attribute without dots. -/
def markupName : Rule Unit :=
  lexeme (valueless afterMarkupName?)

/-- The name of an attribute, perhaps in a namespace. -/
def attributeName : Rule Unit := do
  markupName
  let _ ← optional do
    symbol ":"
    markupName

/-- The name of an element, perhaps a member of something or in a namespace. -/
def elementName : Rule Unit := do
  attributeName
  let _ ← many do
    symbol "."
    markupName

/-- An expression in braces, which may be missing. -/
def embedded : Rule Node :=
  inBrackets do
    bracket '\x7b'
    let node ← optional ((do
      symbol "..."
      g.value) <|> g.expressions)
    bracket '\x7d'
    return groupOf [node]

/-- An attribute of an element. -/
def markupAttribute : Rule Node :=
  embedded g <|> (do
    attributeName
    let value ← optional do
      bracket '='
      (do
        lexeme (valueless afterAttributeText?)
        return blank) <|> embedded g <|> g.read .element
    return groupOf [value])

/-- What stands between the tags of an element, right here: text, a reference to a character, an
expression or an element. -/
def content : Rule Node :=
  (do
    exactly fun text =>
      let rest := text.dropWhile fun c => !"<>\x7b\x7d&".toList.contains c
      if rest.length < text.length then some ((), rest) else none
    return blank) <|>
  (do
    exactly (valueless afterReference?)
    return blank) <|>
  embedded g <|>
  (do
    notAhead (closing *> pure ())
    g.read .element)
where
  /-- The start of a closing tag. -/
  closing : Rule Unit := do
    bracket '<'
    bracket '/'

/-- An element with everything in it. -/
def element : Rule Piece :=
  inBrackets do
    bracket '<'
    let attributes ← (do
      elementName
      let generic ← optional do
        typed
        typeArguments g
      let attributes ← many (markupAttribute g)
      return generic.toList ++ attributes) <|> pure []
    selfClosed attributes <|> filled attributes
where
  /-- An element without content. -/
  selfClosed (attributes : List Node) : Rule Piece := do
    bracket '/'
    exactly fun text =>
      match text with
      | '>' :: rest => some ((), rest)
      | _ => none
    return ⟨.group attributes, .other⟩
  /-- An element with content up to its closing tag. -/
  filled (attributes : List Node) : Rule Piece := do
    bracket '>'
    let nodes ← many (content g)
    bracket '<'
    bracket '/'
    let _ ← optional elementName
    bracket '>'
    return ⟨.group (attributes ++ nodes), .other⟩

end ChangeImpact.Script.Grammar
