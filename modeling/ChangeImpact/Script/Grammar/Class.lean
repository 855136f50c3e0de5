import ChangeImpact.Script.Grammar.Type

/-!
# Functions and classes

The parts that declarations and expressions share: patterns, functions with their bodies, and
classes with their members.
-/

namespace ChangeImpact.Script.Grammar

open Rule

variable (g : Grammar)

/-! ## Patterns -/

/-- A value after an equals sign. -/
def initializer : Rule Node := do
  symbol "="
  g.value

/-- A member of an object pattern. -/
def patternMember : Rule Node :=
  (do
    symbol "..."
    g.read .pattern) <|>
  (do
    let name ← propertyName g
    symbol ":"
    let pattern ← g.read .pattern
    let default ← optional (initializer g)
    return groupOf [some name.node, some pattern, default]) <|>
  (do
    let _ ← name
    return groupOf [← optional (initializer g)])

/-- An element of an array pattern. -/
def patternElement : Rule Node := do
  let _ ← optional (symbol "...")
  let pattern ← g.read .pattern
  let default ← optional (initializer g)
  return groupOf [some pattern, default]

/-- Members in braces or elements in brackets, to which the parts of a value are bound. -/
def destructuring : Rule Node := do
  let c ← peek
  if c = '\x7b' then
    inBrackets do
      bracket '\x7b'
      let nodes ← sparseList (patternMember g)
      bracket '\x7d'
      return .group nodes
  else if c = '[' then
    inBrackets do
      bracket '['
      let nodes ← sparseList (patternElement g)
      bracket ']'
      return .group nodes
  else absent

/-- What a value can be bound to. -/
def pattern : Rule Piece := do
  return ⟨← destructuring g <|> nameNode, .other⟩

/-! ## Functions -/

/-- A function from its parameters on. -/
def functionRest : Rule Node := do
  let parts ← signature g
  let body ← g.read .block
  return .group [parts, body]

/-- A function as a value. -/
def functionValue : Rule Node := do
  let _ ← optional do
    keyword "async"
    sameStatement
  keyword "function"
  let _ ← optional (symbol "*")
  let _ ← optional do
    let found ← word
    guard !(isReserved (← context).dialect found && found != "yield" && found != "await")
  functionRest g

/-! ## Classes -/

/-- A type argument list after a class or interface that is extended. -/
def heritageItem : Rule Node := do
  let piece ← g .operand
  guard piece.shape.isValue
  let generic ← optional do
    typed
    typeArguments g
  return groupOf [some piece.node, generic]

/-- What a class extends and implements. -/
def heritage : Rule Node := do
  let extended ← optional do
    keyword "extends"
    if (← context).dialect.hasTypes then
      return Node.group (← commaList1 (heritageItem g))
    else heritageItem g
  let implemented ← optional do
    typed
    keyword "implements"
    return Node.group (← commaList1 (g.read .type))
  return groupOf [extended, implemented]

/-- The end of a member of a class that has no body. -/
def memberEnd (operand : Bool) : Rule Unit :=
  semicolon operand <|> (do
    typed
    symbol ",")

/-- A member of a class with a name: a function or a field. -/
def classMember : Rule Node := do
  if (← context).dialect.hasTypes then
    let _ ← modifiers
    indexed <|> named
  else
    let _ ← many do
      let found ← keywordOf ["static", "async", "get", "set"]
      let c ← peek
      guard (Lexeme.isWordChar c || "[\"'#*\\.".toList.contains c)
      return found
    let _ ← optional (symbol "*")
    named
where
  /-- A member that stands for all members of a type. -/
  indexed : Rule Node := do
    let node ← indexSignature g
    memberEnd false
    return node
  /-- A function of the class, in a typed language perhaps without a body. -/
  method (name : PropertyName) : Rule Node := do
    let parts ← signature g
    match ← optional (g.read .block) with
    | some body =>
      let _ ← optional (symbol ";")
      return .group [name.node, parts, body]
    | none =>
      typed
      memberEnd false
      return .group [name.node, parts]
  /-- A field of the class. -/
  field (name : PropertyName) : Rule Node := do
    let type ← optionalDeclaredType g
    let value ← optional (initializer g)
    memberEnd value.isSome
    return groupOf [some name.node, some type, value]
  /-- A function or a field. -/
  named : Rule Node := do
    let name ← propertyName g
    if (← context).dialect.hasTypes then
      let _ ← optional (symbol "?" <|> symbol "!")
    method name <|> field name

/-- The members of a class in braces. -/
def classBody : Rule Node :=
  inBody do
    bracket '\x7b'
    let nodes ← many ((do
        symbol ";"
        return blank) <|> (do
        let decorators ← many (decorator g)
        let node ← staticBlock <|> classMember g
        return Node.group (decorators ++ [node])))
    bracket '\x7d'
    return .group nodes
where
  /-- Statements that are run when the class is made. -/
  staticBlock : Rule Node := do
    keyword "static"
    g.read .block

/-- A class from the word `class` on.  A declaration needs a name. -/
def classRest (needsName : Bool) : Rule Node := do
  keyword "class"
  let found ← optional do
    notAhead (keywordOf ["extends", "implements"])
    name
  guard (found.isSome || !needsName)
  let generic ← optionalTypeParameters g
  let inherited ← heritage g
  let body ← classBody g
  return .group [generic, inherited, body]

/-- A class with the decorators before it. -/
def classValue : Rule Node := do
  let decorators ← many (decorator g)
  let node ← classRest g false
  return .group (decorators ++ [node])

end ChangeImpact.Script.Grammar
