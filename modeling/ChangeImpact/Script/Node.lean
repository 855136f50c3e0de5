/-!
# Syntax trees of scripts

A syntax tree keeps what is needed to find the modules that a script names.  Statements and calls
that can name a module have kinds of their own; everything else is grouped under `other`.

* `Node.specifier?` is the module that a single node names.
* `Node.specifiers` collects them over a whole tree with a list of nodes still to be visited.
* `Node.preorder` lists the nodes of a tree, each before its children.
-/

namespace ChangeImpact.Script

/-- What a node of a syntax tree stands for. -/
inductive NodeKind where
  /-- An `import` statement. -/
  | importStatement
  /-- An `export` statement. -/
  | exportStatement
  /-- The `name = require("…")` of an import. -/
  | importRequire
  /-- A call with arguments in brackets or with a template. -/
  | call
  /-- The bracketed arguments of a call. -/
  | arguments
  /-- A string with its quotation marks. -/
  | string
  /-- A name. -/
  | identifier
  /-- The word `import` in the place of a function. -/
  | importWord
  | comment
  | other
deriving DecidableEq, Repr, Inhabited

/-- What a child is to its parent. -/
inductive Role where
  /-- The module that a statement names. -/
  | source
  /-- The function of a call. -/
  | function
  /-- The arguments of a call. -/
  | arguments
deriving DecidableEq, Repr, Inhabited

/-- A syntax tree.  `named` is false for punctuation. -/
inductive Node where
  | node (kind : NodeKind) (named : Bool) (text : String) (children : List (Option Role × Node))
deriving Inhabited

namespace Node

/-- What the node stands for. -/
def kind : Node → NodeKind
  | node kind _ _ _ => kind

/-- Whether the node is more than punctuation. -/
def named : Node → Bool
  | node _ named _ _ => named

/-- The text of the node, where it is kept. -/
def text : Node → String
  | node _ _ text _ => text

/-- The children with their roles. -/
def roles : Node → List (Option Role × Node)
  | node _ _ _ children => children

/-- The children from left to right. -/
def children (n : Node) : List Node :=
  n.roles.map (·.2)

/-- The child with a role. -/
def child? (n : Node) (role : Role) : Option Node :=
  (n.roles.find? fun child => child.1 == some role).map (·.2)

/-- The first child that is more than punctuation. -/
def firstNamed? (n : Node) : Option Node :=
  n.children.find? named

/-- A leaf with its text. -/
def leaf (kind : NodeKind) (text : String) : Node :=
  node kind true text []

/-- A node that only holds others together. -/
def group (children : List Node) : Node :=
  node .other true "" (children.map fun child => (none, child))

/-! ## The module that a node names -/

/-- The text of a string without its quotation marks. -/
def stringValue? (n : Node) : Option String :=
  if n.kind = .string then some (String.ofList (n.text.toList.drop 1).dropLast) else none

/-- The source of a statement that can name a module. -/
def source? (n : Node) : Option Node :=
  match n.child? .source with
  | some source => some source
  | none =>
    if n.kind = .importRequire then n.children.find? fun child => child.named && child.kind == .string
    else none

/-- Whether a node, as the function of a call, imports a module. -/
def importsWhenCalled (n : Node) : Bool :=
  n.kind == .importWord || (n.kind == .identifier && n.text == "require")

/-- The module that a node names by itself. -/
def specifier? (n : Node) : Option String :=
  match n.kind with
  | .importStatement | .exportStatement | .importRequire => n.source? >>= stringValue?
  | .call =>
    match n.child? .function, n.child? .arguments with
    | some function, some arguments =>
      if function.importsWhenCalled then arguments.firstNamed? >>= stringValue? else none
    | _, _ => none
  | _ => none

/-! ## Visiting a tree -/

mutual

/-- The number of nodes of a tree. -/
def size : Node → Nat
  | node _ _ _ children => sizeAll children + 1

/-- The number of nodes of several trees. -/
def sizeAll : List (Option Role × Node) → Nat
  | [] => 0
  | (_, child) :: children => size child + sizeAll children

end

mutual

/-- The nodes of a tree, each before its children and these from left to right. -/
def preorder : Node → List Node
  | node kind named text children => node kind named text children :: preorderAll children

/-- The nodes of several trees, one tree after the other. -/
def preorderAll : List (Option Role × Node) → List Node
  | [] => []
  | (_, child) :: children => preorder child ++ preorderAll children

end

/-- The number of nodes that are still to be visited. -/
def pendingSize : List Node → Nat
  | [] => 0
  | n :: pending => n.size + pendingSize pending

theorem pendingSize_map (children : List (Option Role × Node)) :
    pendingSize (children.map (·.2)) = sizeAll children := by
  induction children with
  | nil => rfl
  | cons child children ih =>
    rw [List.map_cons, pendingSize, sizeAll, ih]

theorem pendingSize_append (first second : List Node) :
    pendingSize (first ++ second) = pendingSize first + pendingSize second := by
  induction first with
  | nil => exact (Nat.zero_add _).symm
  | cons n first ih => rw [List.cons_append, pendingSize, pendingSize, ih, Nat.add_assoc]

/-- The modules that the pending nodes and the nodes below them name.  The next node is taken from
the front, and its children are put in its place. -/
def collect : List Node → List String
  | [] => []
  | n :: pending => n.specifier?.toList ++ collect (n.children ++ pending)
termination_by pending => pendingSize pending
decreasing_by
  cases n with
  | node kind isNamed text parts =>
    rw [pendingSize_append, children, roles, pendingSize_map]
    simp only [pendingSize, size]
    omega

/-- The modules that a script names, in the order of their places. -/
def specifiers (tree : Node) : List String :=
  collect [tree]

end Node
end ChangeImpact.Script
