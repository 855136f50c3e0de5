import ChangeImpact.Script.Grammar.Basic

/-!
# Names

Words that name something.  In JavaScript some words are reserved wherever a name is expected; in
the typed languages a word is only kept back where it would start another phrase.
-/

namespace ChangeImpact.Script.Grammar

open Rule

/-- The words that no name in JavaScript may have. -/
def reservedWords : List String :=
  ["break", "case", "catch", "class", "const", "continue", "debugger", "default", "delete", "do",
   "else", "export", "extends", "false", "finally", "for", "function", "if", "import", "in",
   "instanceof", "new", "null", "return", "super", "switch", "this", "throw", "true", "try",
   "typeof", "var", "void", "while", "with", "yield", "await"]

/-- The words with which an expression starts that is not a name. -/
def expressionWords : List String :=
  ["function", "class", "new", "typeof", "void", "delete", "this", "super", "true", "false",
   "null", "import", "await", "yield"]

/-- Whether a word is kept back from names. -/
def isReserved (dialect : Dialect) (word : String) : Bool :=
  (if dialect.hasTypes then expressionWords else reservedWords).contains word

/-- A name of a value. -/
def name : Rule String := do
  let found ← word
  guard !(isReserved (← context).dialect found)
  return found

/-- A name of a value as a node. -/
def nameNode : Rule Node := do
  return .leaf .identifier (← name)

/-- A string as a node. -/
def stringNode : Rule Node := do
  return .leaf .string (← lexeme Lexeme.string?)

/-- The name of a private member, after a hash sign. -/
def privateName : Rule String := do
  bracket '#'
  exactly Lexeme.word?

/-- Any name after a dot. -/
def memberName : Rule String :=
  privateName <|> word

/-- The names of an object's and a class's members.  `plain` is the word, if the name is one. -/
structure PropertyName where
  node : Node
  plain : Option String := none

/-- The name of a member. -/
def propertyName (g : Grammar) : Rule PropertyName :=
  (do
    let found ← word
    return ⟨blank, some found⟩) <|>
  (do
    let _ ← lexeme Lexeme.string?
    return ⟨blank, none⟩) <|>
  (do
    lexeme (valueless Lexeme.afterNumber?)
    return ⟨blank, none⟩) <|>
  (do
    let _ ← privateName
    return ⟨blank, none⟩) <|>
  inBrackets (do
    bracket '['
    let node ← g.value
    bracket ']'
    return ⟨node, none⟩)

/-- Names with dots between them. -/
def dottedName : Rule (List String) := do
  let first ← name
  let others ← many do
    symbol "."
    word
  return first :: others

/-- A template: text with substitutions, each read by `hole`. -/
def template (hole : Rule Node) : Rule Node := do
  bracket '`'
  let holes ← many do
    exactly (valueless Lexeme.afterTemplateText?)
    exactly fun text =>
      match text with
      | '$' :: '\x7b' :: rest => some ((), rest)
      | _ => none
    let node ← inBrackets hole
    bracket '\x7d'
    return Node.group [node]
  exactly (valueless Lexeme.afterTemplateText?)
  exactly fun text =>
    match text with
    | '`' :: rest => some ((), rest)
    | _ => none
  return .group holes

/-- The arguments of a call.  Comments count among them. -/
def arguments (g : Grammar) : Rule Node :=
  inBrackets do
    bracket '('
    let first ← slot
    let others ← many do
      symbol ","
      slot
    bracket ')'
    return .node .arguments true "" ((first :: others).flatten.map fun node => (none, node))
where
  /-- The comments at this place. -/
  commentNodes : Rule (List Node) :=
    fun _ text => .found ((Lexeme.comments text).map (Node.leaf .comment)) text
  /-- An argument, with the comments before and after it; it may be missing. -/
  slot : Rule (List Node) := do
    let before ← commentNodes
    match ← optional argument with
    | some node => return before ++ node :: (← commentNodes)
    | none => return before
  /-- A value, or one that is spread out. -/
  argument : Rule Node :=
    (do
      symbol "..."
      return .group [← g.value]) <|> g.value

/-- A call of a function. -/
def call (function arguments : Node) : Node :=
  .node .call true "" [(some .function, function), (some .arguments, arguments)]

end ChangeImpact.Script.Grammar
