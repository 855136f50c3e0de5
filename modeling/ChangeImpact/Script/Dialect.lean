import ChangeImpact.Path.Basic
import ChangeImpact.Text.Lowercase

/-!
# Script languages

The files whose imports are read off their syntax are written in one of three languages: JavaScript
with markup, TypeScript, and TypeScript with markup.  The language is known by the extension.
-/

namespace ChangeImpact.Script

/-- A script language. -/
inductive Dialect where
  | javascript | typescript | tsx
deriving DecidableEq, Repr, Inhabited

namespace Dialect

/-- All languages. -/
def all : List Dialect := [javascript, typescript, tsx]

/-- The name of a language. -/
def name : Dialect → String
  | javascript => "javascript"
  | typescript => "typescript"
  | tsx => "tsx"

/-- The language with a given name. -/
def ofName? (name : String) : Option Dialect :=
  all.find? fun dialect => dialect.name == name

/-- The language of an extension in lower case. -/
def ofExtension? (extension : String) : Option Dialect :=
  if [".js", ".jsx", ".mjs", ".cjs"].contains extension then some javascript
  else if [".ts", ".mts", ".cts"].contains extension then some typescript
  else if extension = ".tsx" then some tsx
  else none

/-- The language of the file at a path. -/
def ofPath? (path : String) : Option Dialect :=
  ofExtension? (String.ofList (Text.lower (Path.extension path.toList)))

/-- Whether the language has types. -/
def hasTypes : Dialect → Bool
  | javascript => false
  | typescript | tsx => true

/-- Whether the language has markup. -/
def hasMarkup : Dialect → Bool
  | typescript => false
  | javascript | tsx => true

end Dialect
end ChangeImpact.Script
