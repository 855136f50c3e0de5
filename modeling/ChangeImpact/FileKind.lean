import ChangeImpact.Path.Basic
import ChangeImpact.Text.Lowercase

/-!
# Kinds of files

Every file of a project is a test, a configuration file, an asset or a source file.  The kind is read
off the path alone: tests by the end of the file name or by a directory for tests, configuration by
the start of the file name, assets by the extension, and everything else is a source file.

File names are compared without regard to case.
-/

namespace ChangeImpact

/-- What a file is to the project. -/
inductive FileKind where
  | source | test | config | asset
deriving DecidableEq, Repr, Inhabited

namespace FileKind

/-- All kinds, in the order in which they are listed. -/
def all : List FileKind := [source, test, config, asset]

/-- The name by which documents refer to a kind. -/
def name : FileKind → String
  | source => "source"
  | test => "test"
  | config => "config"
  | asset => "asset"

/-- The kind with a given name. -/
def ofName? (name : String) : Option FileKind :=
  all.find? fun kind => kind.name == name

/-! ## Comparison without regard to case -/

/-- Whether a character is a spelling of a small letter or other ASCII character.  Besides the
capital, `i` is also spelled with a dot above the capital or without a dot, and `s` as a long s. -/
def spells (pattern c : Char) : Bool :=
  Text.lowerChar c == pattern ||
    (pattern == 'i' && (c.toNat == 0x130 || c.toNat == 0x131)) ||
    (pattern == 's' && c.toNat == 0x17f)

/-- The text after a start that spells `pattern`. -/
def afterSpelling? : (pattern text : List Char) → Option (List Char)
  | [], text => some text
  | _ :: _, [] => none
  | p :: pattern, c :: text => if spells p c then afterSpelling? pattern text else none

/-- Whether the text starts with a spelling of `pattern`. -/
def startsWith (pattern : String) (text : List Char) : Bool :=
  (afterSpelling? pattern.toList text).isSome

/-- Whether the text is a single line that ends with a spelling of `pattern`. -/
def lineEndsWith (pattern : String) (text : List Char) : Bool :=
  pattern.length ≤ text.length &&
    !(text.take (text.length - pattern.length)).contains '\n' &&
    afterSpelling? pattern.toList (text.drop (text.length - pattern.length)) == some []

/-- A file name, and also the name without a line feed at its end. -/
def lineForms (name : List Char) : List (List Char) :=
  if name.getLast? == some '\n' then [name, name.dropLast] else [name]

/-! ## Tests -/

/-- The extensions of test files. -/
def testExtensions : List String :=
  [".ts", ".tsx", ".js", ".jsx", ".mts", ".cts", ".mjs", ".cjs"]

/-- The directories whose files are all tests. -/
def testDirectories : List String := ["__tests__", "test", "tests"]

/-- The ends of file names that mark a test: `.test` or `.spec`, then the extension of a script. -/
def testEndings : List String :=
  [".test", ".spec"].flatMap fun mark =>
    [".", ".c", ".m"].flatMap fun lead =>
      ["js", "ts", "jsx", "tsx"].map fun rest => mark ++ lead ++ rest

/-- Whether a file name alone marks a test. -/
def isTestName (name : List Char) : Bool :=
  (lineForms name).any fun form => testEndings.any fun ending => lineEndsWith ending form

/-- Whether one of the directories on a path holds tests. -/
def isBelowTests (path : List Char) : Bool :=
  (path.splitOn '/').dropLast.any fun directory =>
    testDirectories.any fun name => name.toList == directory

/-- Whether a path with slashes is that of a test. -/
def isTestChars (path : List Char) : Bool :=
  isTestName (Path.fileName path) || isBelowTests path

/-! ## Configuration and assets -/

/-- Tools whose configuration is called `<tool>.config.<extension>`. -/
def configuredTools : List String :=
  ["jest", "vitest", "webpack", "rollup", "vite", "next", "tailwind", "babel", "postcss",
   "eslint", "prettier", "playwright"]

/-- The starts of file names that mark configuration. -/
def configStarts : List String :=
  configuredTools.map (· ++ ".config.") ++ [".env", ".eslintrc", ".prettierrc", ".babelrc"]

/-- Whether a file name marks configuration. -/
def isConfigName (name : List Char) : Bool :=
  configStarts.any (startsWith · name) ||
    (lineForms name).any fun form =>
      ["tsconfig", "jsconfig"].any (fun start =>
        match afterSpelling? start.toList form with
        | some rest => lineEndsWith ".json" rest
        | none => false) ||
      afterSpelling? "package.json".toList form == some []

/-- The extensions of assets. -/
def assetExtensions : List String :=
  [".css", ".scss", ".sass", ".less",
   ".png", ".jpg", ".jpeg", ".gif", ".svg", ".ico", ".webp", ".bmp",
   ".woff", ".woff2", ".ttf", ".otf", ".eot",
   ".mp3", ".mp4", ".webm", ".wav"]

/-- Whether a file name has the extension of an asset. -/
def isAssetName (name : List Char) : Bool :=
  let extension := String.ofList (Text.lower (Path.extension name))
  assetExtensions.contains extension

/-! ## The kind of a path -/

/-- Whether a path is that of a test. -/
def isTest (path : String) : Bool :=
  isTestChars (Path.withSlashes path.toList)

/-- The kind of the file at a path. -/
def ofPath (path : String) : FileKind :=
  let text := Path.withSlashes path.toList
  let name := Path.fileName text
  if isTestChars text then test
  else if isConfigName name then config
  else if isAssetName name then asset
  else source

end FileKind
end ChangeImpact
