import ChangeImpact.Script.Grammar.Module

/-!
# Statements

Statements, blocks and whole scripts.  A statement is recognised by its first word; what starts with
none of the words of statements is an expression.
-/

namespace ChangeImpact.Script.Grammar

open Rule

variable (g : Grammar)

/-- Statements in braces. -/
def block : Rule Piece :=
  inBody do
    bracket '\x7b'
    let nodes ← many (g.read .statement)
    bracket '\x7d'
    return ⟨.group nodes, .other⟩

/-- An expression as a statement. -/
def expressionStatement : Rule Node := do
  let node ← g.expressions
  semicolon
  return node

/-- A statement that starts with a brace: a block, or an expression that starts with an object. -/
def bracedStatement : Rule Node :=
  (do
    let node ← g.read .block
    notAhead continuation
    return node) <|> expressionStatement g <|> g.read .block
where
  /-- What cannot start a statement but goes on an expression. -/
  continuation : Rule Unit := do
    let c ← peek
    guard (".=,?)".toList.contains c)

/-! ## Conditions and loops -/

/-- A choice between statements. -/
def ifStatement : Rule Node := do
  keyword "if"
  let condition ← g.condition
  let positive ← g.read .statement
  let negative ← optional do
    keyword "else"
    g.read .statement
  return groupOf [some condition, some positive, negative]

/-- A loop over the members of something. -/
def eachHeader : Rule Node :=
  inBrackets do
    bracket '('
    let bound ← (do
      let _ ← keywordOf ["let", "const", "var"]
      let bound ← destructuring g <|> nameNode
      let type ← optionalDeclaredType g
      let value ← optional (initializer g)
      ahead (keywordOf ["in", "of"])
      return groupOf [some bound, some type, value]) <|> (do
      let piece ← applied g
      guard piece.shape.isAssignable
      return piece.node)
    let _ ← keywordOf ["in", "of"]
    let walked ← g.expressions
    bracket ')'
    return .group [bound, walked]

/-- A loop with a start, a condition and a step. -/
def countHeader : Rule Node :=
  inBrackets do
    bracket '('
    let start ← (do
      let _ ← keywordOf ["let", "const", "var"]
      let (node, _) ← declarators g
      return node) <|> (do
      return (← optional g.expressions).getD blank)
    symbol ";"
    let condition ← optional g.expressions
    symbol ";"
    let step ← optional g.expressions
    bracket ')'
    return groupOf [some start, condition, step]

/-- A loop that starts with `for`. -/
def forStatement : Rule Node := do
  keyword "for"
  let header ← (do
    let _ ← optional (keyword "await")
    eachHeader g) <|> countHeader g
  let body ← g.read .statement
  return .group [header, body]

/-- A loop with its condition in front, or a statement with an object's members as names. -/
def whileStatement : Rule Node := do
  let _ ← keywordOf ["while", "with"]
  let condition ← g.condition
  let body ← g.read .statement
  return .group [condition, body]

/-- A loop with its condition at the end. -/
def doStatement : Rule Node := do
  keyword "do"
  let body ← g.read .statement
  keyword "while"
  let condition ← g.condition
  let _ ← optional (symbol ";")
  return .group [body, condition]

/-- A choice between cases. -/
def switchStatement : Rule Node := do
  keyword "switch"
  let condition ← g.condition
  let cases ← inBody do
    bracket '\x7b'
    let cases ← many do
      let label ← (do
        keyword "case"
        g.expressions) <|> (do
        keyword "default"
        return blank)
      symbol ":"
      let nodes ← many (g.read .statement)
      return Node.group (label :: nodes)
    bracket '\x7d'
    return cases
  return .group (condition :: cases)

/-! ## Other statements -/

/-- Statements whose failure is handled. -/
def tryStatement : Rule Node := do
  keyword "try"
  let body ← g.read .block
  let handler ← optional do
    keyword "catch"
    let bound ← optional (inBrackets do
      bracket '('
      let bound ← destructuring g <|> nameNode
      let type ← optionalDeclaredType g
      bracket ')'
      return Node.group [bound, type])
    let body ← g.read .block
    return groupOf [bound, some body]
  let finalizer ← optional do
    keyword "finally"
    g.read .block
  return groupOf [some body, handler, finalizer]

/-- Leaves a function, a loop or a program. -/
def leavingStatement : Rule Node := do
  let found ← keywordOf ["return", "throw", "break", "continue", "debugger"]
  if found = "throw" then
    expressionStatement g
  else if found = "debugger" then
    semicolon false
    return blank
  else
    (do
      semicolon false
      return blank) <|>
    (if found = "return" then expressionStatement g
    else do
      let _ ← name
      semicolon false
      return blank)

/-- A statement with a name. -/
def labelledStatement : Rule Node := do
  let found ← word
  guard !(isReserved (← context).dialect found)
  symbol ":"
  g.read .statement

/-- The words that only ever start a statement of their own. -/
def statementWords : List String :=
  ["if", "for", "while", "with", "do", "switch", "try", "return", "throw", "break", "continue",
   "debugger", "const", "var", "export", "else", "case", "default", "catch", "finally"]

/-- A statement that starts with a word. -/
def wordStatement : Rule Node := do
  let found ← lookedAt
  if found = "if" then ifStatement g
  else if found = "for" then forStatement g
  else if found = "while" ∨ found = "with" then whileStatement g
  else if found = "do" then doStatement g
  else if found = "switch" then switchStatement g
  else if found = "try" then tryStatement g
  else if ["return", "throw", "break", "continue", "debugger"].contains found then
    leavingStatement g
  else if found = "export" then exportStatement g
  else if found = "import" then
    importStatement g <|> declaration g <|> expressionStatement g
  else if statementWords.contains found then declaration g
  else declaration g <|> labelledStatement g <|> expressionStatement g
where
  /-- The word at this place, without reading it. -/
  lookedAt : Rule String :=
    fun context text =>
      match word context text with
      | .found found _ => .found found text
      | .absent => .absent
      | .broken => .broken

/-- A statement. -/
def statement : Rule Piece := do
  let c ← peek
  let node ←
    if c = '\x7b' then bracedStatement g
    else if c = ';' then symbol ";" *> pure blank
    else if c = '@' then
      exportStatement g <|> classDeclaration g <|> expressionStatement g
    else wordStatement g <|> expressionStatement' c
  return ⟨node, .other⟩
where
  /-- An expression that does not start with a word. -/
  expressionStatement' (c : Char) : Rule Node := do
    guard !(Lexeme.isWordStart c || c == '\\')
    expressionStatement g

/-! ## The whole grammar -/

/-- The rules for all phrases, given the grammar for the phrases inside them. -/
def step (g : Grammar) : Grammar
  | .expression => expression g
  | .operand => operand g
  | .pattern => pattern g
  | .type => type g
  | .element => element g
  | .block => block g
  | .statement => statement g

/-- The grammar down to a depth of nesting. -/
def toDepth : Nat → Grammar
  | 0 => fun _ => absent
  | depth + 1 => step (toDepth depth)

/-- A line at the start of a script that names its interpreter. -/
def interpreterLine : Rule Unit :=
  lexeme fun text =>
    match text with
    | '#' :: '!' :: rest => some ((), rest.dropWhile (· != '\n'))
    | _ => none

/-- A script. -/
def script (g : Grammar) : Rule Node := do
  let _ ← optional interpreterLine
  let nodes ← many (g.read .statement)
  atEnd
  return .group nodes

end Grammar

/-- The syntax tree of a script, if its syntax is without fault.  This parser is used where no other one
is given; it takes comments that are written as in markup for a fault.

Phrases are not nested deeper than eight for each character, since between two phrases of one kind at
least one character is read. -/
def parse? (dialect : Dialect) (text : List Char) : Option Node :=
  let text := if text.head?.map Char.toNat = some 0xfeff then text.drop 1 else text
  match Grammar.script (Grammar.toDepth (8 * text.length + 8)) { dialect } text with
  | .found node _ => some node
  | _ => none

end ChangeImpact.Script
