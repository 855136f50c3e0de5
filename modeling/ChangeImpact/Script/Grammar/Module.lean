import ChangeImpact.Script.Grammar.Declaration

/-!
# Imports and exports

The statements that name other modules.  The name of the module is the statement's source.
-/

namespace ChangeImpact.Script.Grammar

open Rule

variable (g : Grammar)

/-- A statement with the module that it names. -/
def fromSource (kind : NodeKind) (source : Node) : Node :=
  .node kind true "" [(some .source, source)]

/-- The module after the word `from`. -/
def fromClause : Rule Node := do
  keyword "from"
  stringNode

/-- A name that a module exports: a word or a string. -/
def exportedName : Rule Unit :=
  (do
    let found ← word
    guard (found = "default" || !(isReserved (← context).dialect found))) <|>
  (do
    let _ ← lexeme Lexeme.string?)

/-- The word that restricts an import or export to types. -/
def typeOnly : Rule Unit := do
  typed
  let _ ← keywordOf ["type", "typeof"]

/-- Names in braces, each perhaps under another name; `inner` reads the last name of each.  A comma may
stand at the end, even where there is no name. -/
def namedList (inner : Rule Unit) : Rule Unit :=
  inBrackets do
    bracket '\x7b'
    let _ ← optional (commaList1 (item <|> do
      typeOnly
      item))
    let _ ← optional (symbol ",")
    bracket '\x7d'
where
  /-- A name, perhaps followed by another one. -/
  item : Rule Unit := do
    (do
      exportedName
      keyword "as"
      inner) <|> inner
    ahead (symbol "," <|> symbol "\x7d")

/-- A name of an imported value. -/
def importedName : Rule Unit := do
  let _ ← name

/-- What an import brings in. -/
def importClause : Rule Unit :=
  braced <|> (do
    importedName
    let _ ← optional do
      symbol ","
      braced)
where
  /-- A namespace, or names in braces. -/
  braced : Rule Unit :=
    (do
      symbol "*"
      keyword "as"
      importedName) <|> namedList importedName

/-- How a module is to be loaded. -/
def importAttributes : Rule Node := do
  sameStatement false
  let _ ← keywordOf ["with", "assert"]
  let piece ← object g
  guard piece.shape.isValue
  return piece.node

/-- A module bound by `name = require("…")`. -/
def importRequire : Rule Node := do
  importedName
  symbol "="
  keyword "require"
  inBrackets do
    bracket '('
    let source ← stringNode
    bracket ')'
    return .group [fromSource .importRequire source]

/-- An import statement. -/
def importStatement : Rule Node := do
  keyword "import"
  let node ← withoutClause <|> withClause <|> (do
    typeOnly
    withClause)
  semicolon false
  return node
where
  /-- The source after what is imported. -/
  withClause : Rule Node :=
    (do
      importClause
      let source ← fromClause
      loaded source) <|> (do
      typed
      importRequire)
  /-- A source alone. -/
  withoutClause : Rule Node := do
    let source ← stringNode
    loaded source
  /-- The statement for a source. -/
  loaded (source : Node) : Rule Node := do
    let attributes ← optional (importAttributes g)
    let children := (attributes.map fun node => (none, node)).toList
    return .node .importStatement true "" ((some .source, source) :: children)

/-- An export statement. -/
def exportStatement : Rule Node := do
  let decorators ← many (decorator g)
  keyword "export"
  if decorators.isEmpty then
    reexport <|> typedExport <|> defaultExport <|> declared
  else
    let node ← defaultExport <|> declared
    return .group (decorators ++ [node])
where
  /-- An export statement without a source. -/
  plain (node : Node) : Node :=
    .node .exportStatement true "" [(none, node)]
  /-- Names that are passed on from another module, or names of this one. -/
  reexport : Rule Node := do
    let source ← (do
      symbol "*"
      let _ ← optional do
        keyword "as"
        exportedName
      some <$> fromClause) <|> (do
      namedList exportedName
      optional do
        sameStatement false
        fromClause)
    semicolon false
    return match source with
      | some source => fromSource .exportStatement source
      | none => plain blank
  /-- The exports that only typed languages have. -/
  typedExport : Rule Node := do
    typed
    (do
      keyword "type"
      namedList exportedName
      let source ← optional do
        sameStatement false
        fromClause
      semicolon false
      return match source with
        | some source => fromSource .exportStatement source
        | none => plain blank) <|> (do
      symbol "="
      let node ← g.value
      semicolon
      return plain node) <|> (do
      keyword "as"
      keyword "namespace"
      let _ ← name
      semicolon false
      return plain blank)
  /-- The value that a module stands for. -/
  defaultExport : Rule Node := do
    keyword "default"
    (do
      let node ← declaration g
      return plain node) <|> (do
      let node ← g.value
      semicolon
      return plain node)
  /-- A declaration whose names are exported. -/
  declared : Rule Node := do
    return plain (← declaration g)

end ChangeImpact.Script.Grammar
