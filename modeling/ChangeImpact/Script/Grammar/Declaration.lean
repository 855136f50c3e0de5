import ChangeImpact.Script.Grammar.Expression

/-!
# Declarations

What a script or a block declares: variables, functions and classes, and in the typed languages also
interfaces, type names, enumerations, namespaces, and things that exist elsewhere.
-/

namespace ChangeImpact.Script.Grammar

open Rule

variable (g : Grammar)

/-- A variable that is declared. -/
def declarator : Rule (Node × Bool) := do
  let bound ← destructuring g <|> nameNode
  if (← context).dialect.hasTypes then
    let _ ← optional do
      symbol "!"
      ahead (symbol ":")
  let type ← optionalDeclaredType g
  let value ← optional (initializer g)
  return (groupOf [some bound, some type, value], value.isSome)

/-- Variables that are declared with `let`, `const` or `var`, without the end of the statement. -/
def declarators : Rule (Node × Bool) := do
  let found ← commaList1 (declarator g)
  return (.group (found.map (·.1)), (found.getLast?.map (·.2)).getD false)

/-- A declaration of variables. -/
def variableDeclaration : Rule Node := do
  let found ← keywordOf ["let", "const", "var"]
  if found = "let" then
    ahead (do
      let c ← peek
      guard (Lexeme.isWordStart c || c == '[' || c == '\x7b' || c == '\\'))
    notAhead (keywordOf ["in", "instanceof", "of", "as", "satisfies"])
  let (node, assigned) ← declarators g
  semicolon assigned
  return node

/-- A function with a name.  In a typed language its body may be missing. -/
def functionDeclaration : Rule Node := do
  let _ ← optional do
    keyword "async"
    sameStatement
  keyword "function"
  let _ ← optional (symbol "*")
  let _ ← name
  let parts ← signature g
  match ← optional (g.read .block) with
  | some body => return .group [parts, body]
  | none =>
    typed
    semicolon false
    return parts

/-- A class with a name. -/
def classDeclaration : Rule Node := do
  let decorators ← many (decorator g)
  let _ ← optional do
    typed
    keyword "abstract"
  let node ← classRest g true
  return .group (decorators ++ [node])

/-! ## Declarations of the typed languages -/

/-- A name for a type. -/
def typeAlias : Rule Node := do
  keyword "type"
  let _ ← word
  let generic ← optional (typeParameters g)
  symbol "="
  let type ← g.read .type
  semicolon false
  return groupOf [generic, some type]

/-- The members that objects of a type have. -/
def interface : Rule Node := do
  keyword "interface"
  let _ ← word
  let generic ← optional (typeParameters g)
  let extended ← optional do
    keyword "extends"
    return Node.group (← commaList1 (g.read .type))
  let members ← objectType g
  return groupOf [generic, extended, some members]

/-- Names for values that belong together. -/
def enumeration : Rule Node := do
  let _ ← optional (keyword "const")
  keyword "enum"
  let _ ← word
  inBrackets do
    bracket '\x7b'
    let nodes ← commaList do
      let name ← propertyName g
      let value ← optional (initializer g)
      return groupOf [some name.node, value]
    bracket '\x7d'
    return .group nodes

/-- A namespace or module with the statements in it. -/
def namespaceDeclaration : Rule Node := do
  let _ ← keywordOf ["namespace", "module"]
  sameStatement
  (do
    let _ ← lexeme Lexeme.string?
    return ()) <|> (do
    let _ ← dottedName
    return ())
  let body ← optional (g.read .block)
  match body with
  | some body => return body
  | none =>
    semicolon false
    return blank

/-- Another name for a member of a namespace. -/
def importAlias : Rule Node := do
  keyword "import"
  let _ ← name
  symbol "="
  let _ ← dottedName
  semicolon false
  return blank

/-- Declarations that only typed languages have. -/
def typedDeclaration : Rule Node := do
  typed
  typeAlias g <|> interface g <|> enumeration g <|> namespaceDeclaration g <|> importAlias

/-- A declaration of something that exists elsewhere. -/
def ambientDeclaration (declaration : Rule Node) : Rule Node := do
  typed
  keyword "declare"
  sameStatement
  (do
    keyword "global"
    g.read .block) <|> (do
    keyword "module"
    symbol "."
    let _ ← word
    let type ← declaredType g
    semicolon false
    return type) <|> declaration

/-- Any declaration but an ambient one. -/
def plainDeclaration : Rule Node :=
  typedDeclaration g <|> functionDeclaration g <|> classDeclaration g <|> variableDeclaration g

/-- Any declaration. -/
def declaration : Rule Node :=
  ambientDeclaration g (plainDeclaration g) <|> plainDeclaration g

end ChangeImpact.Script.Grammar
