import ChangeImpact.Script.Rule

/-!
# The frame of the grammar

The rules of the grammar need each other: a block holds statements, a statement holds expressions,
and an expression may hold a function with a block.  A rule therefore takes the grammar as an
argument, a table of the few phrases that all others lead back to.
-/

namespace ChangeImpact.Script

/-- What an expression can be besides a value. -/
inductive Shape where
  /-- Something that a value can be assigned to. -/
  | target
  /-- An object or an array.  Either may also be readable as a pattern, and an object with a default
  for one of its names is nothing but a pattern. -/
  | literal (asValue asPattern : Bool)
  /-- An assignment, which is also a pattern with a default. -/
  | defaulted
  /-- Nothing else. -/
  | other
deriving DecidableEq, Repr, Inhabited

namespace Shape

/-- Whether the expression can stand for a value. -/
def isValue : Shape → Bool
  | literal asValue _ => asValue
  | _ => true

/-- Whether the expression can stand for a pattern inside a larger one. -/
def isPattern : Shape → Bool
  | target | defaulted => true
  | literal _ asPattern => asPattern
  | other => false

/-- Whether the expression can stand left of an assignment. -/
def isAssignable : Shape → Bool
  | target => true
  | literal _ asPattern => asPattern
  | _ => false

end Shape

/-- A phrase that has been read. -/
structure Piece where
  node : Node
  shape : Shape := .other
deriving Inhabited

/-- The phrases that all others lead back to. -/
inductive Goal where
  | expression | operand | pattern | type | element | block | statement
deriving DecidableEq, Repr

/-- A rule for each of these phrases. -/
abbrev Grammar := Goal → Rule Piece

namespace Grammar

open Rule

/-- The node of a phrase. -/
def read (g : Grammar) (goal : Goal) : Rule Node := do
  return (← g goal).node

/-- An expression that is a value. -/
def value (g : Grammar) : Rule Node := do
  let piece ← g .expression
  guard piece.shape.isValue
  return piece.node

/-- Expressions with commas between them. -/
def expressions (g : Grammar) : Rule Node := do
  let first ← g.value
  match ← many do
      symbol ","
      g.value with
  | [] => return first
  | others => return .group (first :: others)

/-- Expressions in parentheses, as a statement demands them. -/
def condition (g : Grammar) : Rule Node :=
  inBrackets do
    bracket '('
    let node ← g.expressions
    if (← context).dialect.hasTypes then
      let _ ← optional do
        symbol ":"
        g.read .type
    bracket ')'
    return .group [node]

/-- A node without anything of interest. -/
def blank : Node := .group []

/-- The nodes that are there. -/
def groupOf (nodes : List (Option Node)) : Node :=
  .group (nodes.filterMap id)

end Grammar
end ChangeImpact.Script
