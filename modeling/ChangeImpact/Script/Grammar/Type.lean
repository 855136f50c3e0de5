import ChangeImpact.Script.Grammar.Name

/-!
# Types and parameters

The types of the typed languages, and the parameter lists that types and functions share.  A type
can import a module, as in `import("…").Name`.
-/

namespace ChangeImpact.Script.Grammar

open Rule

variable (g : Grammar)

/-! ## Parts shared with functions -/

/-- A type after a colon. -/
def declaredType : Rule Node := do
  symbol ":"
  g.read .type

/-- A type after a colon in a typed language; elsewhere there is none. -/
def optionalDeclaredType : Rule Node := do
  if (← context).dialect.hasTypes then
    return (← optional (declaredType g)).getD blank
  else return blank

/-- The arguments of a generic type or function. -/
def typeArguments : Rule Node :=
  inBrackets do
    bracket '<'
    let types ← commaList1 (g.read .type)
    let _ ← optional (symbol ",")
    bracket '>'
    return .group types

/-- The parameters of a generic type or function. -/
def typeParameters : Rule Node :=
  inBrackets do
    bracket '<'
    let nodes ← commaList1 do
      let _ ← optional do
        keyword "const"
        ahead word
      let _ ← word
      let bound ← optional do
        (keyword "extends" <|> symbol ":")
        g.read .type
      let default ← optional do
        symbol "="
        g.read .type
      return groupOf [bound, default]
    let _ ← optional (symbol ",")
    bracket '>'
    return .group nodes

/-- The parameters of a generic in a typed language; elsewhere there are none. -/
def optionalTypeParameters : Rule Node := do
  if (← context).dialect.hasTypes then
    return (← optional (typeParameters g)).getD blank
  else return blank

/-- What a function says about its arguments by its result: `x is T`, `asserts x`. -/
def predicate : Rule Node :=
  (do
    keyword "asserts"
    let _ ← word
    let type ← optional do
      keyword "is"
      g.read .type
    return groupOf [type]) <|>
  (do
    let _ ← word
    keyword "is"
    g.read .type)

/-- The type of a result. -/
def resultType : Rule Node :=
  predicate g <|> g.read .type

/-- An expression after an at sign that marks a class, a member or a parameter. -/
def decorator : Rule Node := do
  bracket '@'
  (inBrackets do
    bracket '('
    let node ← g.expressions
    bracket ')'
    return Node.group [node]) <|> (do
    let first ← word
    let members ← many do
      symbol "."
      memberName
    let function := if members.isEmpty then Node.leaf .identifier first else blank
    let types ← optional do
      typed
      let types ← typeArguments g
      ahead (bracket '(')
      return types
    match ← optional (arguments g) with
    | some arguments => return groupOf [some (call function arguments), types]
    | none => return blank)

/-- The words that may precede a parameter of a constructor. -/
def parameterModifiers : List String :=
  ["public", "private", "protected", "override", "readonly"]

/-- A parameter of a function. -/
def parameter : Rule Node := do
  let decorators ← many (decorator g)
  if (← context).dialect.hasTypes then
    let _ ← many do
      let _ ← keywordOf parameterModifiers
      let c ← peek
      guard (Lexeme.isWordStart c || c == '[' || c == '\x7b')
  let pattern ← (do
      symbol "..."
      g.read .pattern) <|> g.read .pattern <|> (do
      typed
      keyword "this"
      return blank)
  if (← context).dialect.hasTypes then
    let _ ← optional (symbol "?")
  let type ← optionalDeclaredType g
  let default ← optional do
    symbol "="
    g.value
  return .group (decorators ++ [pattern, type] ++ default.toList)

/-- The parameters of a function in parentheses. -/
def parameters : Rule Node :=
  inBrackets do
    bracket '('
    let nodes ← commaList (parameter g)
    bracket ')'
    return .group nodes

/-- The parameters of a function with its generic ones and the type of the result. -/
def signature : Rule Node := do
  let generic ← optionalTypeParameters g
  let nodes ← parameters g
  let result ←
    if (← context).dialect.hasTypes then
      optional do
        symbol ":"
        resultType g
    else pure none
  return groupOf [some generic, some nodes, result]

/-! ## Members of object types -/

/-- The words that may precede a member of an object type or a class. -/
def memberModifiers : List String :=
  ["public", "private", "protected", "declare", "static", "override", "abstract", "readonly",
   "accessor", "async", "get", "set"]

/-- The words before a member, each of them followed by the name or by another one. -/
def modifiers : Rule (List String) := do
  let words ← many do
    let found ← keywordOf memberModifiers
    let c ← peek
    guard (Lexeme.isWordChar c || "[\"'#*\\.".toList.contains c)
    return found
  let _ ← optional (symbol "*")
  return words

/-- A member that stands for all members of a type: `[key: string]: T` or `[Key in Keys]: T`. -/
def indexSignature : Rule Node := do
  let _ ← optional do
    let _ ← optional (symbol "-" <|> symbol "+")
    keyword "readonly"
    ahead (bracket '[')
  let key ← inBrackets do
    bracket '['
    let _ ← word
    let key ← (do
        symbol ":"
        g.read .type) <|> (do
        keyword "in"
        let type ← g.read .type
        let newName ← optional do
          keyword "as"
          g.read .type
        return groupOf [some type, newName])
    bracket ']'
    return key
  let _ ← optional do
    let _ ← optional (symbol "-" <|> symbol "+")
    symbol "?"
  let type ← declaredType g
  return .group [key, type]

/-- A function that an object type can be called or constructed with. -/
def callSignature : Rule Node :=
  (do
    let _ ← optional (keyword "abstract")
    keyword "new"
    signature g) <|> signature g

/-- A member of an object type that has a name. -/
def namedMember : Rule Node := do
  let _ ← modifiers
  let name ← propertyName g
  let _ ← optional (symbol "?")
  let type ← signature g <|> optionalDeclaredType g
  return .group [name.node, type]

/-- The members of an object type or an interface. -/
def objectType : Rule Node :=
  inBody do
    bracket '\x7b'
    let nodes ← many do
      let _ ← many separator
      let node ← indexSignature g <|> namedMember' <|> callSignature g
      ahead (separator <|> bracket '\x7d' <|> understood false)
      return node
    let _ ← many separator
    bracket '\x7d'
    return .group nodes
where
  /-- The end of a member. -/
  separator : Rule Unit :=
    symbol ";" <|> symbol ","
  /-- A member with a name; the word `new` before parameters is none. -/
  namedMember' : Rule Node := do
    notAhead do
      keyword "new"
      bracket '('
    namedMember g

/-! ## Types -/

/-- The question mark of a condition. -/
def questionMark : Rule Unit :=
  symbol "?" <|> lexeme fun text =>
    match text with
    | '?' :: '.' :: c :: rest => if c.isDigit then some ((), '.' :: c :: rest) else none
    | _ => none

/-- What `typeof` may look up in a type. -/
def queried : Rule Node := do
  let first ← importCall <|> (do
    let _ ← word
    return blank)
  let nodes ← many ((do
      symbol "."
      let _ ← memberName
      return blank) <|> (do
      symbol "?."
      let _ ← memberName
      return blank))
  let generic ← optional (typeArguments g)
  return groupOf [some (.group (first :: nodes)), generic]
where
  /-- An imported module. -/
  importCall : Rule Node := do
    keyword "import"
    return call (.leaf .importWord "import") (← arguments g)

/-- A module imported by a type, with names inside it. -/
def importType : Rule Node := do
  keyword "import"
  let nodes ← arguments g
  let _ ← many do
    symbol "."
    word
  return call (.leaf .importWord "import") nodes

/-- A member of a tuple type. -/
def tupleMember : Rule Node := do
  let _ ← optional (symbol "...")
  (do
    let _ ← word
    let _ ← optional (symbol "?")
    declaredType g) <|> (do
    let type ← g.read .type
    let _ ← optional (symbol "?")
    return type)

/-- A type that starts with parentheses: those of a function's parameters, or of a type. -/
def parenthesizedType : Rule Node :=
  (do
    let generic ← optional (typeParameters g)
    let nodes ← parameters g
    symbol "=>"
    let result ← resultType g
    return groupOf [generic, some nodes, some result]) <|>
  inBrackets (do
    bracket '('
    let type ← g.read .type
    bracket ')'
    return type)

/-- A type without an operator before or after it. -/
def primaryType : Rule Node := do
  let c ← peek
  if c = '\x7b' then objectType g
  else if c = '[' then
    inBrackets do
      bracket '['
      let nodes ← sparseList (tupleMember g)
      bracket ']'
      return .group nodes
  else if c = '(' ∨ c = '<' then parenthesizedType g
  else if c = '`' then template (g.read .type)
  else if c = '"' ∨ c = '\'' then do
    let _ ← lexeme Lexeme.string?
    return blank
  else if c = '*' then do
    bracket '*'
    return blank
  else if c = '-' ∨ c = '+' then do
    let _ ← operator
    lexeme (valueless Lexeme.afterNumber?)
    return blank
  else if c.isDigit ∨ c = '.' then do
    lexeme (valueless Lexeme.afterNumber?)
    return blank
  else do
    let _ ← word
    let _ ← many do
      symbol "."
      word
    let generic ← optional do
      sameStatement false
      typeArguments g
    return groupOf [generic]

/-- What may follow a type: brackets for arrays and for looking up a member. -/
def typeSuffix (type : Node) : Rule Node := do
  sameStatement false
  inBrackets do
    bracket '['
    let index ← optional (g.read .type)
    bracket ']'
    return groupOf [some type, index]

/-- A type with the words before it. -/
def typeOperand : Rule Node :=
  constructorType <|> (do
    let _ ← many do
      let _ ← keywordOf ["keyof", "readonly", "unique"]
      let c ← peek
      guard (Lexeme.isWordStart c || "\x7b[(\"'`".toList.contains c)
    inferred <|> query <|> imported <|> (do
      let type ← primaryType g
      extend (typeSuffix g) type))
where
  /-- The type of a constructor. -/
  constructorType : Rule Node := do
    let _ ← optional (keyword "abstract")
    keyword "new"
    let generic ← optional (typeParameters g)
    let nodes ← parameters g
    symbol "=>"
    let result ← g.read .type
    return groupOf [generic, some nodes, some result]
  /-- A type that is to be found. -/
  inferred : Rule Node := do
    keyword "infer"
    let _ ← word
    let bound ← optional do
      sameStatement false
      keyword "extends"
      g.read .type
    return groupOf [bound]
  /-- The type of a value. -/
  query : Rule Node := do
    keyword "typeof"
    let type ← queried g
    extend (typeSuffix g) type
  /-- A type of another module. -/
  imported : Rule Node := importType g

/-- Types with bars and ampersands between them. -/
def unionType : Rule Node := do
  let _ ← optional (symbol "|" <|> symbol "&")
  let first ← typeOperand g
  let others ← many do
    (symbol "|" <|> symbol "&")
    typeOperand g
  return if others.isEmpty then first else .group (first :: others)

/-- A type. -/
def type : Rule Piece := do
  let first ← unionType g
  match ← optional do
      sameStatement false
      keyword "extends"
      let bound ← unionType g
      questionMark
      let positive ← within ({ · with breaks := false }) (g.read .type)
      symbol ":"
      let negative ← g.read .type
      return [bound, positive, negative] with
  | some others => return ⟨.group (first :: others), .other⟩
  | none => return ⟨first, .other⟩

end ChangeImpact.Script.Grammar
