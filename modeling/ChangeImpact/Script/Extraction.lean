import ChangeImpact.Script.Grammar.Statement
import ChangeImpact.Script.TextScan

/-!
# The modules that a file names

A file in a script language is read by its grammar.  Any other file, and any script with a fault in
its syntax, is scanned as text.  Either way the result tells how it was found.

Parsing is left to others: an `Extractor` carries the parser that it was given.  Where nothing else is
said, this is `parse?`, which knows the ordinary language and not, for example, comments that are
written as in markup.
-/

namespace ChangeImpact.Script

/-- How the modules named by a file were found. -/
inductive Strategy where
  | structured | fallback | failed
deriving DecidableEq, Repr, Inhabited

/-- The name of a strategy. -/
def Strategy.name : Strategy → String
  | structured => "structured"
  | fallback => "fallback"
  | failed => "failed"

/-- Why a script was not read by its grammar. -/
inductive ParseFault where
  | faultySyntax (path : String)
  | noGrammar (language : String)
deriving DecidableEq, Repr

/-- What a fault is called. -/
def ParseFault.message : ParseFault → String
  | faultySyntax path => "Syntax errors in " ++ path
  | noGrammar language => "No Tree-sitter parser initialized for " ++ language

/-- A parser gives the tree of a script in a language, or nothing if its syntax has a fault. -/
abbrev Parser := Dialect → List Char → Option Node

/-- The modules that a script names, by the grammar of its language. -/
def structuredSpecifiers (dialect : Dialect) (content path : String) (parse : Parser := parse?) :
    Except ParseFault (List String) :=
  match parse dialect content.toList with
  | some tree => .ok tree.specifiers
  | none => .error (.faultySyntax path)

/-- The modules that a file names, and how they were found.  `reason` tells why the grammar was given
up, or why nothing was found at all. -/
structure Extraction where
  specifiers : List String
  strategy : Strategy := .structured
  reason : Option String := none
deriving DecidableEq, Repr, Inhabited

/-- Finds the modules that files name, with a parser for scripts.  Some languages may lack their
grammar, and scanning a text may fail with a message. -/
structure Extractor where
  parse : Parser := parse?
  missing : List Dialect := []
  scan : String → Except String (List String) := fun content => .ok (TextScan.specifiers content)

namespace Extractor

/-- The language by whose grammar a file is read. -/
def dialect? (extractor : Extractor) (path : String) : Option Dialect :=
  (Dialect.ofPath? path).filter fun dialect => !extractor.missing.contains dialect

/-- Scans a text, after the grammar has been given up for a reason or was not tried. -/
def scanned (extractor : Extractor) (content : String) (reason : Option String) : Extraction :=
  match extractor.scan content with
  | .ok specifiers => ⟨specifiers, .fallback, reason⟩
  | .error message => ⟨[], .failed, some message⟩

/-- The modules that a file names. -/
def extract (extractor : Extractor) (content path : String) : Extraction :=
  match extractor.dialect? path with
  | none => extractor.scanned content none
  | some dialect =>
    match structuredSpecifiers dialect content path extractor.parse with
    | .ok specifiers => ⟨specifiers, .structured, none⟩
    | .error fault => extractor.scanned content (some fault.message)

end Extractor
end ChangeImpact.Script
