import ChangeImpact.Script.Grammar.Class
import ChangeImpact.Script.Grammar.Markup

/-!
# Expressions

Values with operators, calls and functions.  Calls of `import` and `require` name modules, so calls
are kept as such; operators are only grouped.

An object or an array may turn out to be a pattern when an equals sign follows it; its shape
remembers which of the two it can be.
-/

namespace ChangeImpact.Script.Grammar

open Rule

variable (g : Grammar)

/-! ## Objects and arrays -/

/-- An element of an array or an argument that is spread out. -/
def spread : Rule Piece := do
  symbol "..."
  g .expression

/-- An array, or the pattern of one. -/
def array : Rule Piece :=
  inBrackets do
    bracket '['
    let pieces ← sparseList (spread g <|> g .expression)
    bracket ']'
    let asValue := pieces.all (·.shape.isValue)
    let asPattern := pieces.all (·.shape.isPattern)
    guard (asValue || asPattern)
    return ⟨.group (pieces.map (·.node)), .literal asValue asPattern⟩

/-- A member of an object, or of the pattern of one. -/
def objectMember : Rule Piece :=
  spread g <|> (do
    let words ← many do
      let found ← keywordOf ["static", "async", "get", "set"]
      let c ← peek
      guard (Lexeme.isWordChar c || "[\"'#*\\.".toList.contains c)
      return found
    let star ← optional (symbol "*")
    let name ← propertyName g
    let _ ← optional do
      typed
      symbol "?"
      ahead (bracket '(' <|> bracket '<')
    method name <|> (do
      guard (words.isEmpty && star.isNone)
      pair name <|> short name))
where
  /-- A function as a member. -/
  method (name : PropertyName) : Rule Piece := do
    let parts ← signature g
    let body ← required (g.read .block)
    return ⟨.group [name.node, parts, body], .other⟩
  /-- A name with a value. -/
  pair (name : PropertyName) : Rule Piece := do
    symbol ":"
    let piece ← g .expression
    return ⟨.group [name.node, piece.node], piece.shape⟩
  /-- A name that stands for its own value, in a pattern perhaps with a default. -/
  short (name : PropertyName) : Rule Piece := do
    match name.plain with
    | none => absent
    | some found =>
      guard !((← context).dialect = .javascript && reservedWords.contains found)
      match ← optional (initializer g) with
      | some default => return ⟨default, .literal false true⟩
      | none => return ⟨blank, .target⟩

/-- An object, or the pattern of one. -/
def object : Rule Piece :=
  inBrackets do
    bracket '\x7b'
    let pieces ← sparseList (objectMember g)
    bracket '\x7d'
    let asValue := pieces.all (·.shape.isValue)
    let asPattern := pieces.all (·.shape.isPattern)
    guard (asValue || asPattern)
    return ⟨.group (pieces.map (·.node)), .literal asValue asPattern⟩

/-! ## Functions with arrows -/

/-- What an arrow function does. -/
def arrowBody : Rule Node :=
  required (g.read .block <|> g.value)

/-- An arrow function from its parameters on. -/
def arrowFunction : Rule Piece := do
  let generic ←
    if (← context).dialect.hasTypes then optional (typeParameters g) else pure none
  let nodes ← parameters g
  let place ← context
  let result ←
    if place.dialect.hasTypes && place.resultTypes then
      optional do
        symbol ":"
        resultType g
    else pure none
  symbol "=>"
  let body ← arrowBody g
  return ⟨groupOf [generic, some nodes, result, some body], .other⟩

/-- An arrow function with a single name as its parameter. -/
def shortArrowFunction : Rule Piece := do
  let _ ← name
  symbol "=>"
  let body ← arrowBody g
  return ⟨body, .other⟩

/-- A function that waits for others. -/
def asyncFunction : Rule Piece := do
  keyword "async"
  sameStatement
  (do
    notAhead (keyword "function")
    arrowFunction g <|> shortArrowFunction g)

/-! ## Operands without operators -/

/-- A value in parentheses. -/
def parenthesized : Rule Piece := do
  let node ← condition g
  return ⟨node, .target⟩

/-- The module that a call of `import` names, or the module itself. -/
def importValue : Rule Piece := do
  keyword "import"
  (do
    symbol "."
    keyword "meta"
    return ⟨blank, .other⟩) <|> (do
    let nodes ← arguments g
    return ⟨call (.leaf .importWord "import") nodes, .other⟩)

/-- A member of a value. -/
def memberStep (piece : Piece) : Rule Piece :=
  (do
    symbol "."
    let _ ← memberName
    return ⟨.group [piece.node], .target⟩) <|>
  inBrackets (do
    bracket '['
    let index ← g.expressions
    bracket ']'
    return ⟨.group [piece.node, index], .target⟩) <|>
  (do
    typed
    sameStatement
    symbol "!"
    return ⟨.group [piece.node], .target⟩)

/-- A new object of a class. -/
def newValue : Rule Piece := do
  keyword "new"
  (do
    symbol "."
    keyword "target"
    return ⟨blank, .other⟩) <|> (do
    let first ← constructed
    let function ← extend (memberStep g) first
    let generic ← optional do
      typed
      let types ← typeArguments g
      ahead (bracket '(')
      return types
    let nodes ← optional (arguments g)
    return ⟨groupOf [some function.node, generic, nodes], .other⟩)
where
  /-- The start of the class's expression. -/
  constructed : Rule Piece := do
    let c ← peek
    if c = '(' then parenthesized g
    else if c = '[' then array g
    else if c = '\x7b' then object g
    else if c = '@' then return ⟨← classValue g, .other⟩
    else
      newAgain <|> classOrFunction <|> importValue g <|> plain
  /-- Another new object. -/
  newAgain : Rule Piece := do
    ahead (keyword "new")
    g .operand
  /-- A class or function without a name of its own. -/
  classOrFunction : Rule Piece := do
    return ⟨← functionValue g <|> classValue g, .other⟩
  /-- A name or a word that stands for a value. -/
  plain : Rule Piece := do
    let found ← word
    let keepsBack := isReserved (← context).dialect found
    guard (!keepsBack || ["this", "super", "null", "true", "false"].contains found)
    return ⟨.leaf .identifier found, .target⟩

/-- The words that stand for a value of their own. -/
def valueWords : List String := ["this", "super", "null", "true", "false"]

/-- An operand that starts with a word. -/
def wordValue : Rule Piece :=
  (do
    let found ← lookedAt
    if found = "function" then return ⟨← functionValue g, .other⟩
    else if found = "class" then return ⟨← classValue g, .other⟩
    else if found = "new" then newValue g
    else if found = "import" then importValue g
    else if valueWords.contains found then do
      let _ ← word
      return ⟨blank, .other⟩
    else if found = "async" then
      asyncFunction g <|> (do return ⟨← functionValue g, .other⟩) <|> shortArrowFunction g <|>
        named
    else shortArrowFunction g <|> named)
where
  /-- The word at this place, without reading it. -/
  lookedAt : Rule String :=
    fun context text =>
      match word context text with
      | .found found _ => .found found text
      | .absent => .absent
      | .broken => .broken
  /-- A name. -/
  named : Rule Piece := do
    return ⟨← nameNode, .target⟩

/-- An operand without operators, calls and members. -/
def primary : Rule Piece := do
  let c ← peek
  let dialect := (← context).dialect
  if c = '(' then arrowFunction g <|> parenthesized g
  else if c = '[' then array g
  else if c = '\x7b' then object g
  else if c = '`' then return ⟨← template g.expressions, .other⟩
  else if c = '"' ∨ c = '\'' then return ⟨← stringNode, .other⟩
  else if c = '/' then do
    lexeme (valueless Lexeme.afterRegex?)
    return ⟨blank, .other⟩
  else if c.isDigit ∨ c = '.' then do
    lexeme (valueless Lexeme.afterNumber?)
    return ⟨blank, .other⟩
  else if c = '#' then do
    let _ ← privateName
    ahead (keyword "in")
    return ⟨blank, .other⟩
  else if c = '@' then return ⟨← classValue g, .other⟩
  else if c = '<' then
    (do
      guard dialect.hasTypes
      arrowFunction g) <|> (do
      guard dialect.hasMarkup
      g .element)
  else wordValue g

/-! ## Calls and members -/

/-- Arguments for a generic function that is called, or that is only given its types. -/
def genericStep (piece : Piece) : Rule Piece := do
  typed
  let types ← typeArguments g
  (do
    let nodes ← arguments g
    return ⟨.group [call piece.node nodes, types], .other⟩) <|> (do
    let text ← template g.expressions
    return ⟨.group [piece.node, types, text], .other⟩) <|> (do
    let place ← context
    (ahead (symbol ")" <|> symbol "]" <|> symbol "," <|> symbol ";" <|> symbol "\x7d" <|>
      symbol ":" <|> symbol "." <|> symbol "?." <|> symbol "=" <|> symbol "==" <|>
      symbol "===" <|> symbol "!=" <|> symbol "!==" <|> symbol "||" <|> symbol "&&" <|>
      symbol "??") <|> atEnd <|> (do
        guard place.breaks
        understood true))
    return ⟨.group [piece.node, types], .other⟩)

/-- A call, or a member that may be missing. -/
def callStep (piece : Piece) : Rule Piece :=
  (do
    let nodes ← arguments g
    return ⟨call piece.node nodes, .other⟩) <|>
  (do
    ahead (bracket '`')
    let text ← template g.expressions
    return ⟨call piece.node text, .other⟩) <|>
  (do
    symbol "?."
    notAhead (exactly fun text =>
      match text with
      | c :: _ => if c.isDigit then some ((), text) else none
      | [] => none)
    optionalMember) <|>
  genericStep g piece
where
  /-- What follows `?.`. -/
  optionalMember : Rule Piece :=
    inBrackets (do
      bracket '['
      let index ← g.expressions
      bracket ']'
      return ⟨.group [piece.node, index], .target⟩) <|>
    (do
      let generic ← optional do
        typed
        typeArguments g
      let nodes ← arguments g
      return ⟨groupOf [some (call piece.node nodes), generic], .other⟩) <|>
    (do
      let _ ← memberName
      return ⟨.group [piece.node], .target⟩)

/-- An operand with its calls and members. -/
def applied : Rule Piece := do
  let first ← primary g
  extend (fun piece => memberStep g piece <|> callStep g piece) first

/-! ## Operators -/

/-- A new value for what stands on the left. -/
def assignment (left : Piece) : Rule Piece :=
  (do
    guard left.shape.isAssignable
    symbol "="
    let right ← g.value
    return ⟨.group [left.node, right], .defaulted⟩) <|>
  (do
    guard (left.shape = .target)
    let found ← operator
    guard (Lexeme.updatingOperators.contains found)
    let right ← g.value
    return ⟨.group [left.node, right], .other⟩)

/-- An operator in front of an operand. -/
def unaryOperator : Rule Unit :=
  (do
    let found ← operator
    guard (["!", "~", "-", "+", "++", "--"].contains found)) <|>
  (do
    let _ ← keywordOf ["typeof", "void", "delete", "await"])

/-- A value that a generator hands out. -/
def yielded : Rule Piece := do
  keyword "yield"
  let node ← optional do
    sameStatement
    let _ ← optional (symbol "*")
    g.value
  return ⟨groupOf [node], .other⟩

/-- A value with its type asserted in front of it. -/
def typeAssertion : Rule Piece := do
  guard ((← context).dialect = .typescript)
  notAhead (arrowFunction g)
  let types ← typeArguments g
  let piece ← g .operand
  guard piece.shape.isValue
  return ⟨.group [types, piece.node], .other⟩

/-- An operand of a binary operator. -/
def operand : Rule Piece :=
  (do
    unaryOperator
    let piece ← g .operand
    guard piece.shape.isValue
    return ⟨.group [piece.node], .other⟩) <|>
  yielded g <|>
  typeAssertion g <|>
  (do
    let piece ← applied g
    assignment g piece <|> (do
      guard piece.shape.isValue
      sameStatement
      (symbol "++" <|> symbol "--")
      return ⟨.group [piece.node], .other⟩) <|> pure piece)

/-- An operator and the operand after it. -/
def binaryStep : Rule Node :=
  (do
    let found ← operator
    guard (Lexeme.binaryOperators.contains found)
    right) <|>
  (do
    let _ ← keywordOf ["in", "instanceof"]
    right) <|>
  (do
    typed
    sameStatement
    keyword "as"
    (do
      keyword "const"
      notAhead (symbol ".")
      return blank) <|> g.read .type) <|>
  (do
    typed
    sameStatement
    keyword "satisfies"
    g.read .type)
where
  /-- The operand on the right. -/
  right : Rule Node := do
    let piece ← g .operand
    guard piece.shape.isValue
    return piece.node

/-- One of two values, chosen by the value before the question mark. -/
def choice : Rule Node := do
  questionMark
  let positive ← bracketed <|> within ({ · with resultTypes := false }) bracketed
  let negative ← g.value
  return .group [positive, negative]
where
  /-- The first of the two values, up to the colon. -/
  bracketed : Rule Node := do
    let node ← within ({ · with breaks := false }) g.value
    symbol ":"
    return node

/-- An expression without a comma at its top. -/
def expression : Rule Piece := do
  let first ← g .operand
  match ← many (binaryStep g), ← optional (choice g) with
  | [], none => return first
  | others, chosen =>
    guard first.shape.isValue
    return ⟨.group (first.node :: others ++ chosen.toList), .other⟩

end ChangeImpact.Script.Grammar
