import ChangeImpact.Script.Dialect
import ChangeImpact.Text.Hex

/-!
# Lexemes of the script languages

How the smallest parts of a script are recognised at the start of a text: blanks and comments,
words, operators, numbers, strings, regular expressions.  A recogniser gives back the rest of the
text after the lexeme.

The last section says where a statement ends without a semicolon.
-/

namespace ChangeImpact.Script.Lexeme

/-! ## Blanks and comments -/

/-- The separators that start a new line. -/
def isLineBreak (c : Char) : Bool :=
  c == '\n' || c == '\r' || c.toNat == 0x2028 || c.toNat == 0x2029

/-- The characters that may stand between two lexemes. -/
def isGap (c : Char) : Bool :=
  let n := c.toNat
  (9 ≤ n && n ≤ 13) || n == 0x20 || n == 0x85 || n == 0xa0 || n == 0x1680 ||
    (0x2000 ≤ n && n ≤ 0x200b) || n == 0x2028 || n == 0x2029 || n == 0x202f || n == 0x205f ||
    n == 0x2060 || n == 0x3000 || n == 0xfeff

/-- The characters that are passed over when the end of a statement is looked for: those blanks at
which a line may be broken. -/
def isLooseGap (c : Char) : Bool :=
  let n := c.toNat
  (9 ≤ n && n ≤ 13) || n == 0x20 || n == 0x1680 || (0x2000 ≤ n && n ≤ 0x2006) ||
    (0x2008 ≤ n && n ≤ 0x200a) || n == 0x2028 || n == 0x2029 || n == 0x205f || n == 0x3000

/-- What follows the end of a block comment, if it ends. -/
def afterBlockComment? : List Char → Option (List Char)
  | [] => none
  | '*' :: '/' :: rest => some rest
  | _ :: rest => afterBlockComment? rest

/-- What follows a comment at the start of the text. -/
def afterComment? : List Char → Option (List Char)
  | '/' :: '/' :: rest => some (rest.dropWhile fun c => !isLineBreak c)
  | '/' :: '*' :: rest => afterBlockComment? rest
  | _ => none

theorem afterBlockComment?_shorter {text rest : List Char}
    (h : afterBlockComment? text = some rest) : rest.length < text.length := by
  fun_induction afterBlockComment? text with
  | case1 => simp at h
  | case2 rest' =>
    injection h with h
    subst h
    simp only [List.length_cons]
    omega
  | case3 c rest' _ ih =>
    have := ih h
    simp only [List.length_cons]
    omega

theorem afterComment?_shorter {text rest : List Char}
    (h : afterComment? text = some rest) : rest.length < text.length := by
  unfold afterComment? at h
  split at h
  · rename_i tail
    injection h with h
    subst h
    have : (tail.dropWhile fun c => !isLineBreak c).length ≤ tail.length :=
      (List.dropWhile_suffix _).length_le
    simp only [List.length_cons]
    omega
  · have := afterBlockComment?_shorter h
    simp only [List.length_cons]
    omega
  · contradiction

theorem length_skipGap_le (text : List Char) : (text.dropWhile isGap).length ≤ text.length :=
  (List.dropWhile_suffix _).length_le

/-- The text after all blanks and comments at its start. -/
def skip (text : List Char) : List Char :=
  match _h : afterComment? (text.dropWhile isGap) with
  | some rest => skip rest
  | none => text.dropWhile isGap
termination_by text.length
decreasing_by
  exact Nat.lt_of_lt_of_le (afterComment?_shorter (by assumption)) (length_skipGap_le text)

/-- The comments among the blanks and comments at the start of the text. -/
def comments (text : List Char) : List String :=
  match _h : afterComment? (text.dropWhile isGap) with
  | some rest =>
    let body := text.dropWhile isGap
    String.ofList (body.take (body.length - rest.length)) :: comments rest
  | none => []
termination_by text.length
decreasing_by
  exact Nat.lt_of_lt_of_le (afterComment?_shorter (by assumption)) (length_skipGap_le text)

/-! ## Words -/

/-- The ASCII characters that end a word. -/
def isPunctuation (c : Char) : Bool :=
  ":;`\"'@#.,|^&<=>+-*/\\%?!~()[]\x7b\x7d".toList.contains c

/-- Whether a character may stand in a word. -/
def isWordChar (c : Char) : Bool :=
  if c.toNat < 0x80 then 0x1f < c.toNat && c != ' ' && !isPunctuation c else !isGap c

/-- Whether a character may start a word. -/
def isWordStart (c : Char) : Bool :=
  isWordChar c && !c.isDigit

/-- What follows an escaped character of a word, after its backslash. -/
def afterWordEscape? : List Char → Option (List Char)
  | 'u' :: '\x7b' :: rest =>
    let digits := rest.takeWhile fun c => (Text.hexValue? c).isSome
    match digits, rest.dropWhile fun c => (Text.hexValue? c).isSome with
    | _ :: _, '\x7d' :: rest => some rest
    | _, _ => none
  | 'u' :: a :: b :: c :: d :: rest =>
    if [a, b, c, d].all fun c => (Text.hexValue? c).isSome then some rest else none
  | _ => none

/-- Cuts off the longest start of the text that can go on a word; the fuel bounds its length. -/
def spanWord : Nat → List Char → List Char × List Char
  | 0, text => ([], text)
  | _, [] => ([], [])
  | fuel + 1, c :: rest =>
    if isWordChar c then
      let (word, rest) := spanWord fuel rest
      (c :: word, rest)
    else if c = '\\' then
      match afterWordEscape? rest with
      | some after =>
        let (word, rest') := spanWord fuel after
        (c :: rest.take (rest.length - after.length) ++ word, rest')
      | none => ([], c :: rest)
    else ([], c :: rest)

/-- A word at the start of the text, and the rest. -/
def word? (text : List Char) : Option (String × List Char) :=
  match text with
  | [] => none
  | c :: _ =>
    if isWordStart c || c == '\\' then
      let (word, rest) := spanWord text.length text
      if word.isEmpty then none else some (String.ofList word, rest)
    else none

/-! ## Operators -/

/-- The operators and brackets, longer ones before their beginnings. -/
def operators : List String :=
  [">>>=", "...", "===", "!==", "**=", "<<=", ">>=", ">>>", "&&=", "||=", "??=", "=>", "==", "!=",
   "<=", ">=", "&&", "||", "??", "?.", "++", "--", "+=", "-=", "*=", "/=", "%=", "&=", "|=", "^=",
   "<<", ">>", "**", "+", "-", "*", "/", "%", "&", "|", "^", "!", "~", "=", "<", ">", "?", ":",
   ",", ";", ".", "(", ")", "[", "]", "\x7b", "\x7d", "@", "#"]

/-- The longest operator at the start of the text, and the rest. -/
def operator? (text : List Char) : Option (String × List Char) :=
  operators.findSome? fun operator =>
    if operator.toList.isPrefixOf text then some (operator, text.drop operator.length) else none

/-- The operators between two operands. -/
def binaryOperators : List String :=
  ["&&", "||", ">>", ">>>", "<<", "&", "^", "|", "+", "-", "*", "/", "%", "**", "<", "<=", "==",
   "===", "!=", "!==", ">=", ">", "??"]

/-- The operators that change the value on their left. -/
def updatingOperators : List String :=
  ["+=", "-=", "*=", "/=", "%=", "^=", "&=", "|=", ">>=", ">>>=", "<<=", "**=", "&&=", "||=", "??="]

/-! ## Numbers -/

/-- Cuts off digits between which single underscores may stand. -/
def spanDigits (isDigit : Char → Bool) : List Char → List Char × List Char
  | [] => ([], [])
  | '_' :: c :: rest =>
    if isDigit c then
      let (digits, rest) := spanDigits isDigit rest
      ('_' :: c :: digits, rest)
    else ([], '_' :: c :: rest)
  | c :: rest =>
    if isDigit c then
      let (digits, rest) := spanDigits isDigit rest
      (c :: digits, rest)
    else ([], c :: rest)

/-- What follows digits in a base given by a letter. -/
def afterBased? (isDigit : Char → Bool) (text : List Char) : Option (List Char) :=
  match text with
  | c :: _ =>
    if isDigit c then
      match (spanDigits isDigit text).2 with
      | 'n' :: rest => some rest
      | rest => some rest
    else none
  | [] => none

/-- What follows an exponent, or the text itself if it does not start with one. -/
def afterExponent (text : List Char) : List Char :=
  match text with
  | c :: rest =>
    if c = 'e' ∨ c = 'E' then
      let unsigned :=
        match rest with
        | '+' :: rest => rest
        | '-' :: rest => rest
        | rest => rest
      match spanDigits Char.isDigit unsigned with
      | ([], _) => text
      | (_, rest) => rest
    else text
  | [] => text

/-- What follows a number at the start of the text. -/
def afterNumber? (text : List Char) : Option (List Char) :=
  match text with
  | '0' :: c :: rest =>
    if c = 'x' ∨ c = 'X' then afterBased? (fun c => (Text.hexValue? c).isSome) rest
    else if c = 'o' ∨ c = 'O' then afterBased? (fun c => '0' ≤ c && c ≤ '7') rest
    else if c = 'b' ∨ c = 'B' then afterBased? (fun c => c == '0' || c == '1') rest
    else afterDecimal? text
  | _ => afterDecimal? text
where
  /-- What follows a decimal number. -/
  afterDecimal? (text : List Char) : Option (List Char) :=
    match text with
    | '.' :: c :: _ =>
      if c.isDigit then some (afterExponent (spanDigits Char.isDigit (text.drop 1)).2) else none
    | c :: rest =>
      if c.isDigit then
        let rest :=
          if c = '0' ∧ !(rest.head?.any fun c => '1' ≤ c && c ≤ '9') then rest
          else (spanDigits Char.isDigit text).2
        match rest with
        | 'n' :: rest => some rest
        | '.' :: rest => some (afterExponent (spanDigits Char.isDigit rest).2)
        | rest => some (afterExponent rest)
      else none
    | [] => none

/-! ## Strings -/

/-- What follows an escape in a string or a template, after its backslash. -/
def afterEscape? : List Char → Option (List Char)
  | [] => none
  | 'x' :: rest =>
    match rest with
    | a :: b :: rest =>
      if [a, b].all fun c => (Text.hexValue? c).isSome then some rest else none
    | _ => none
  | 'u' :: rest => afterWordEscape? ('u' :: rest)
  | '\r' :: '\n' :: rest => some rest
  | _ :: rest => some rest

theorem afterWordEscape?_shorter {text rest : List Char}
    (h : afterWordEscape? text = some rest) : rest.length < text.length := by
  unfold afterWordEscape? at h
  split at h
  · rename_i tail
    dsimp only at h
    split at h
    · rename_i heq
      injection h with h
      subst h
      have := congrArg List.length heq
      have hle := (List.dropWhile_suffix (l := tail)
        fun c => (Text.hexValue? c).isSome).length_le
      simp only [List.length_cons] at *
      omega
    · contradiction
  · split at h
    · injection h with h
      subst h
      simp only [List.length_cons]
      omega
    · contradiction
  · contradiction

theorem afterEscape?_shorter {text rest : List Char}
    (h : afterEscape? text = some rest) : rest.length < text.length := by
  unfold afterEscape? at h
  split at h
  · contradiction
  · split at h
    · split at h
      · injection h with h
        subst h
        simp only [List.length_cons]
        omega
      · contradiction
    · contradiction
  · exact afterWordEscape?_shorter h
  · injection h with h
    subst h
    simp only [List.length_cons]
    omega
  · injection h with h
    subst h
    simp

/-- What follows the closing quotation mark of a string that has been opened with `quote`. -/
def afterString? (quote : Char) (text : List Char) : Option (List Char) :=
  match text with
  | [] => none
  | '\\' :: rest =>
    match _h : afterEscape? rest with
    | some after => afterString? quote after
    | none => none
  | c :: rest =>
    if c = quote then some rest
    else if c = '\n' ∨ c = '\r' then none
    else afterString? quote rest
termination_by text.length
decreasing_by
  · have := afterEscape?_shorter (by assumption)
    simp only [List.length_cons]
    omega
  · simp

/-- A string at the start of the text with its quotation marks, and the rest. -/
def string? (text : List Char) : Option (String × List Char) :=
  match text with
  | c :: rest =>
    if c = '"' ∨ c = '\'' then
      (afterString? c rest).map fun after =>
        (String.ofList (text.take (text.length - after.length)), after)
    else none
  | [] => none

/-- The text between two substitutions of a template: cuts off what stands before the next backquote
or substitution, or nothing if there is neither. -/
def afterTemplateText? (text : List Char) : Option (List Char) :=
  match text with
  | [] => none
  | '`' :: _ => some text
  | '$' :: '\x7b' :: _ => some text
  | '\\' :: rest =>
    match _h : afterEscape? rest with
    | some after => afterTemplateText? after
    | none => none
  | c :: rest => if c.toNat = 0 then none else afterTemplateText? rest
termination_by text.length
decreasing_by
  · have := afterEscape?_shorter (by assumption)
    simp only [List.length_cons]
    omega
  · simp

/-! ## Regular expressions -/

/-- What follows the slash that closes a regular expression; `inClass` tells whether the text starts
inside brackets. -/
def afterPattern? (inClass : Bool) : List Char → Option (List Char)
  | [] => none
  | '\\' :: c :: rest => if c = '\n' then none else afterPattern? inClass rest
  | c :: rest =>
    if c = '\n' then none
    else if inClass then afterPattern? (c != ']') rest
    else if c = '/' then some rest
    else afterPattern? (c == '[') rest

/-- What follows a regular expression with its flags. -/
def afterRegex? (text : List Char) : Option (List Char) :=
  match text with
  | '/' :: '/' :: _ => none
  | '/' :: rest =>
    (afterPattern? false rest).map fun after => after.dropWhile fun c => 'a' ≤ c && c ≤ 'z'
  | _ => none

/-! ## The end of a statement -/

/-- Whether a line that starts with this text goes on with the statement of the line before.
`operand` tells that an operand has just ended, so that an operator may follow. -/
def continues (dialect : Dialect) (operand : Bool) (text : List Char) : Bool :=
  match text with
  | [] => false
  | c :: rest =>
    if "`,;*%><=?^|&/:".toList.contains c then true
    else if c = '(' ∨ c = '[' then !dialect.hasTypes || operand
    else if c = '.' then dialect.hasTypes || !rest.head?.any Char.isDigit
    else if c = '+' then rest.head? != some '+'
    else if c = '-' then rest.head? != some '-'
    else if c = '!' then rest.head? == some '='
    else if c = 'i' then
      match rest with
      | 'n' :: after =>
        !after.head?.any Char.isAlpha ||
          ("stanceof".toList.isPrefixOf after && !(after.drop 8).head?.any Char.isAlpha)
      | _ => false
    else false

/-- The text after blanks that may be passed over and after comments. -/
def skipLoose (text : List Char) : List Char :=
  match _h : afterComment? (text.dropWhile isLooseGap) with
  | some rest => skipLoose rest
  | none => text.dropWhile isLooseGap
termination_by text.length
decreasing_by
  have hle := (List.dropWhile_suffix (l := text) isLooseGap).length_le
  exact Nat.lt_of_lt_of_le (afterComment?_shorter (by assumption)) hle

/-- Whether the comment between `text` and `after` reaches into the next line, where neither a comma
nor an equals sign follows. -/
def breaksLine (text after : List Char) : Bool :=
  ("//".toList.isPrefixOf text || (text.take (text.length - after.length)).any isLineBreak) &&
    !(skipLoose after).head?.any fun c => c == ',' || c == '='

/-- Whether the statement before this text ends here although no semicolon follows: at the end of
the text, before a closing brace, or at a line break after which the statement does not go on. -/
def endsStatement (dialect : Dialect) (operand : Bool) (text : List Char) : Bool :=
  match text with
  | [] => true
  | c :: rest =>
    if c.toNat = 0 then true
    else if c = '\x7d' then
      !dialect.hasTypes || operand || (rest.dropWhile isLooseGap).head? != some ':'
    else if c = '\n' ∨ c.toNat = 0x2028 ∨ c.toNat = 0x2029 then
      !continues dialect operand (skipLoose rest)
    else if isGap c then endsStatement dialect operand rest
    else
      match _h : afterComment? (c :: rest) with
      | some after =>
        if !operand && !dialect.hasTypes && breaksLine (c :: rest) after then true
        else endsStatement dialect operand after
      | none => false
termination_by text.length
decreasing_by
  · simp
  · exact afterComment?_shorter (by assumption)

end ChangeImpact.Script.Lexeme
