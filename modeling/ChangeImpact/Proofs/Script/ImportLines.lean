import ChangeImpact.Proofs.Script.SilentText
import Mathlib.Data.List.Nodup
import Mathlib.Data.List.Perm.Basic

/-!
# Lines of imports are read back

A script is written line by line, where a line is one statement that imports a module or something without the words
`import`, `export` and `require`.  Each form goes through the text on its own.  Still every name is found once, and
the names come out in the order of the lines (`specifiers_of_lines`).

A statement is read by the form of its kind, from its word to the last character before the semicolon
(`Statement.form?_core`).  No text is read by two forms (`Kind.eq_of_form?`), hence the others find nothing where the
statement starts.  They find nothing further on either (`Statement.silent_core`).  Then each form finds the
statements of its kind, by induction on the lines (`hits_textOf`), and sorting by places merges the four lists.
-/

namespace ChangeImpact.Script.TextScan

open Text (isBlank isWordChar forall_mem_head?_cons span_append)

variable {rest : List Char} {place : Nat}

/-! ## Kinds of forms -/

/-- The forms by name. -/
inductive Kind where
  | importStatement | exportStatement | importCall | requireCall
deriving DecidableEq, Repr

namespace Kind

/-- All kinds, in the order of the forms. -/
def all : List Kind := [importStatement, exportStatement, importCall, requireCall]

/-- The form of a kind. -/
def form? : Kind → List Char → Option Hit
  | importStatement => statementForm? "import" importAccepts
  | exportStatement => statementForm? "export" exportAccepts
  | importCall => callForm? "import"
  | requireCall => callForm? "require"

/-- The word with which it starts. -/
def word : Kind → String
  | importStatement | importCall => "import"
  | exportStatement => "export"
  | requireCall => "require"

theorem forms_eq : forms = all.map form? := rfl

theorem mem_all (kind : Kind) : kind ∈ all := by cases kind <;> decide

theorem form?_mem (kind : Kind) : kind.form? ∈ forms := List.mem_map_of_mem (mem_all kind)

theorem word_mem (kind : Kind) : kind.word ∈ keywords := by cases kind <;> decide

theorem starts_with_word {kind : Kind} {text : List Char} {hit : Hit} (h : kind.form? text = some hit) :
    kind.word.toList <+: text := by
  have hstatement : ∀ {word accepts}, statementForm? word accepts text = some hit → word.toList <+: text := by
    intro word accepts h
    obtain ⟨clause, atQuote, name, after, rfl, -⟩ := statementForm?_eq_some_iff.mp h
    exact List.prefix_append _ _
  have hcall : ∀ {word}, callForm? word text = some hit → word.toList <+: text := by
    intro word h
    obtain ⟨first, second, atQuote, name, third, after, -, rfl, -⟩ := callForm?_eq_some_iff.mp h
    exact List.prefix_append _ _
  cases kind with
  | importStatement | exportStatement => exact hstatement h
  | importCall | requireCall => exact hcall h

/-- Where a statement has its clause, a call has a parenthesis, which no clause has. -/
theorem callForm?_eq_none {word : String} {accepts : List Char → Bool} {text : List Char} {hit : Hit}
    (h : statementForm? word accepts text = some hit) : callForm? word text = none := by
  rw [Option.eq_none_iff_forall_ne_some]
  intro other hother
  obtain ⟨clause, atQuote, name, after, rfl, hclause, -, hquoted, -⟩ := statementForm?_eq_some_iff.mp h
  obtain ⟨first, second, inside, _, third, _, hblank, heq, -⟩ := callForm?_eq_some_iff.mp hother
  obtain ⟨quote, others, hquote, rfl⟩ := hquoted.exists_head
  have hfirst : ∀ c ∈ first, isClauseChar c = true := fun c hc =>
    isClauseChar_of_isBlank (hblank c (by simp [hc]))
  have hspans : (clause, quote :: others) = (first, '(' :: (second ++ inside)) := by
    rw [← span_append hclause (forall_mem_head?_cons (isClauseChar_of_isQuote hquote)), List.append_cancel_left heq]
    exact span_append hfirst (forall_mem_head?_cons (by decide))
  cases hspans
  exact absurd hquote (by decide)

/-- A text is read by one form at most. -/
theorem eq_of_form? {first second : Kind} {text : List Char} {hit other : Hit} (hfirst : first.form? text = some hit)
    (hsecond : second.form? text = some other) : first = second := by
  have hwords : ∀ first second : Kind, first.word.toList <+: second.word.toList → first.word = second.word := by
    intro first second
    cases first <;> cases second <;> decide
  -- two forms start with `import`
  have hshared : ∀ first second : Kind, first.word = second.word →
      first = second ∨ first = .importStatement ∧ second = .importCall ∨
        first = .importCall ∧ second = .importStatement := by
    intro first second
    cases first <;> cases second <;> decide
  have hword : first.word = second.word :=
    (List.prefix_or_prefix_of_prefix (starts_with_word hfirst) (starts_with_word hsecond)).elim (hwords _ _)
      fun h => (hwords _ _ h).symm
  rcases hshared first second hword with heq | ⟨rfl, rfl⟩ | ⟨rfl, rfl⟩
  · exact heq
  · exact nomatch (callForm?_eq_none hfirst).symm.trans hsecond
  · exact nomatch (callForm?_eq_none hsecond).symm.trans hfirst

end Kind

/-! ## Statements -/

/-- What an import or an export names before `from`: characters of clauses, which may be blank, and none of the
words. -/
structure Clause where
  text : List Char
  ne_nil : text ≠ []
  clauseChars : ∀ c ∈ text, isClauseChar c = true
  wordless : Wordless text

/-- The shapes of a statement.  A call may have its value kept, in `const x = …`. -/
inductive Shape where
  | importBare
  | importFrom (clause : Clause)
  | exportFrom (clause : Clause)
  | importCall (assigned : Bool)
  | requireCall (assigned : Bool)

namespace Shape

/-- The form that reads it. -/
def kind : Shape → Kind
  | importBare | importFrom _ => .importStatement
  | exportFrom _ => .exportStatement
  | importCall _ => .importCall
  | requireCall _ => .requireCall

/-- What stands before its word. -/
def lead : Shape → List Char
  | importCall true | requireCall true => "const x = ".toList
  | _ => []

/-- What stands between its word and the name. -/
def middle : Shape → List Char
  | importBare => " ".toList
  | importFrom clause | exportFrom clause => " ".toList ++ (clause.text ++ " from ".toList)
  | importCall _ | requireCall _ => "(".toList

/-- What stands between the name and the semicolon. -/
def closing : Shape → List Char
  | importCall _ | requireCall _ => ")".toList
  | _ => []

theorem lead_cases (shape : Shape) : shape.lead = [] ∨ shape.lead = "const x = ".toList := by
  cases shape with
  | importBare | importFrom | exportFrom => exact .inl rfl
  | importCall assigned | requireCall assigned =>
      cases assigned with
      | false => exact .inl rfl
      | true => exact .inr rfl

end Shape

/-- A statement that imports a module by its name, which stands between two quotation marks of one sort and has no
quotation mark, blank or opening parenthesis. -/
structure Statement where
  shape : Shape
  quote : Char
  name : List Char
  isQuote_quote : isQuote quote = true
  name_ne_nil : name ≠ []
  name_plain : ∀ c ∈ name, isQuote c = false ∧ isBlank c = false ∧ c ≠ '('

namespace Statement

variable (s : Statement)

/-- The part of a statement that a form reads. -/
def core : List Char :=
  s.shape.kind.word.toList ++ (s.shape.middle ++ s.quote :: (s.name ++ s.quote :: s.shape.closing))

/-- The text of a statement. -/
def text : List Char := s.shape.lead ++ (s.core ++ ";".toList)

/-- How far its name stands after its start. -/
def nameOffset : Nat :=
  s.shape.lead.length + (s.shape.kind.word.length + s.shape.middle.length + 1)

theorem quoted (rest : List Char) :
    Quoted (s.quote :: (s.name ++ s.quote :: rest)) s.name rest :=
  ⟨s.quote, s.quote, s.isQuote_quote, s.isQuote_quote, s.name_ne_nil, fun c hc => (s.name_plain c hc).1, rfl⟩

theorem fromClause (clause : Clause) : FromClause (" ".toList ++ (clause.text ++ " from ".toList)) := by
  have hblank : Gap " ".toList := gap_singleton (by decide)
  refine ⟨" ".toList, clause.text, " ".toList, " ".toList, hblank, clause.ne_nil, hblank, hblank, ?_⟩
  simp

theorem isClauseChar_fromClause (clause : Clause) :
    ∀ c ∈ " ".toList ++ (clause.text ++ " from ".toList), isClauseChar c = true := by
  have hstart : ∀ c ∈ " ".toList, isClauseChar c = true := List.all_eq_true.mp (by decide)
  have hend : ∀ c ∈ " from ".toList, isClauseChar c = true := List.all_eq_true.mp (by decide)
  intro c hc
  rcases List.mem_append.mp hc with hc | hc
  · exact hstart c hc
  · exact (List.mem_append.mp hc).elim (clause.clauseChars c) (hend c)

/-- What a form with a clause makes of a name behind a clause that it accepts. -/
theorem statementForm?_core {accepts : List Char → Bool} {middle : List Char} (word : String)
    (hmiddle : ∀ c ∈ middle, isClauseChar c = true) (haccepts : accepts middle = true) (rest : List Char) :
    statementForm? word accepts (word.toList ++ (middle ++ s.quote :: (s.name ++ s.quote :: rest))) =
      some ⟨s.name, word.length + middle.length + 1, word.length + middle.length + s.name.length + 2⟩ := by
  refine statementForm?_eq_some_iff.mpr ⟨middle, _, s.name, rest, rfl, hmiddle, haccepts, s.quoted rest, ?_⟩
  simp only [Hit.between, List.length_append, List.length_cons, String.length_toList, Hit.mk.injEq, true_and]
  omega

/-- What a form with parentheses makes of a name right between them. -/
theorem callForm?_core (word : String) (rest : List Char) :
    callForm? word (word.toList ++ '(' :: s.quote :: (s.name ++ s.quote :: ')' :: rest)) =
      some ⟨s.name, word.length + 1 + 1, word.length + 1 + s.name.length + 2 + 1⟩ := by
  refine callForm?_eq_some_iff.mpr ⟨[], [], _, s.name, [], rest, by simp, rfl, s.quoted _, ?_⟩
  simp only [Hit.between, List.length_append, List.length_cons, String.length_toList, Hit.mk.injEq, true_and]
  omega

/-- A statement is read by the form of its kind. -/
theorem form?_core (rest : List Char) : s.shape.kind.form? (s.core ++ rest) =
    some ⟨s.name, s.shape.kind.word.length + s.shape.middle.length + 1, s.core.length⟩ := by
  have hlength : s.core.length = s.shape.kind.word.length + s.shape.middle.length + s.name.length + 2 +
      s.shape.closing.length := by
    simp only [core, List.length_append, List.length_cons, String.length_toList]
    omega
  have hcore : s.core ++ rest = s.shape.kind.word.toList ++
      (s.shape.middle ++ s.quote :: (s.name ++ s.quote :: (s.shape.closing ++ rest))) := by
    simp only [core, List.append_assoc, List.cons_append]
  rw [hlength, hcore]
  cases s.shape with
  | importBare =>
      exact s.statementForm?_core "import" (List.all_eq_true.mp (by decide)) (importAccepts_iff.mpr (.inl (gap_singleton (by decide)))) rest
  | importFrom clause =>
      exact s.statementForm?_core "import" (isClauseChar_fromClause clause)
        (importAccepts_iff.mpr (.inr (fromClause clause))) rest
  | exportFrom clause =>
      exact s.statementForm?_core "export" (isClauseChar_fromClause clause)
        (exportAccepts_iff.mpr (.inr (fromClause clause))) rest
  | importCall assigned => exact s.callForm?_core "import" rest
  | requireCall assigned => exact s.callForm?_core "require" rest

theorem silent_clause {kind : Kind} (clause : Clause) (before : Bool) (rest : List Char) :
    Silent kind.form? before (s.quote :: rest) (" ".toList ++ (clause.text ++ " from ".toList)) := by
  refine silent_append.mpr ⟨silent_of_initials kind.form?_mem (Text.forall_mem_of_all (by decide)), silent_append.mpr ⟨?_, ?_⟩⟩
  · exact silent_of_wordless kind.form?_mem clause.wordless (forall_mem_head?_cons (by decide))
  · exact silent_of_wordless kind.form?_mem (wordless_of_letters (by decide))
      (forall_mem_head?_cons (isWordChar_of_isQuote s.isQuote_quote))

theorem silent_middle {kind : Kind} (before : Bool) (rest : List Char) :
    Silent kind.form? before (s.quote :: rest) s.shape.middle := by
  cases s.shape with
  | importFrom clause | exportFrom clause => exact s.silent_clause clause before rest
  | importBare =>
      show Silent kind.form? before _ " ".toList
      exact silent_of_initials kind.form?_mem (Text.forall_mem_of_all (by decide))
  | importCall | requireCall =>
      show Silent kind.form? before _ "(".toList
      exact silent_of_initials kind.form?_mem (Text.forall_mem_of_all (by decide))

theorem silent_closing {kind : Kind} (before : Bool) (rest : List Char) :
    Silent kind.form? before rest s.shape.closing := by
  cases s.shape with
  | importBare | importFrom | exportFrom => trivial
  | importCall | requireCall =>
      show Silent kind.form? before rest ")".toList
      exact silent_of_initials kind.form?_mem (Text.forall_mem_of_all (by decide))

/-- A statement is silent for every form but its own. -/
theorem silent_core {kind : Kind} (hkind : kind ≠ s.shape.kind) (before : Bool) (rest : List Char) :
    Silent kind.form? before rest s.core := by
  have hform := kind.form?_mem
  have hnone : kind.form? (s.core ++ rest) = none := by
    rw [Option.eq_none_iff_forall_ne_some]
    exact fun hit hhit => hkind (Kind.eq_of_form? hhit (s.form?_core rest))
  have hquote : ∀ before rest, Silent kind.form? before rest [s.quote] := fun before rest =>
    silent_singleton_of_isQuote hform s.isQuote_quote
  have hname : ∀ before rest, Silent kind.form? before (s.quote :: rest) s.name := fun before rest =>
    silent_of_name hform s.isQuote_quote (fun c hc => (s.name_plain c hc).2) rest
  have hquoted : ∀ before, Silent kind.form? before rest ([s.quote] ++ (s.name ++ ([s.quote] ++ s.shape.closing))) :=
    fun before => silent_append.mpr ⟨hquote _ _, silent_append.mpr ⟨hname _ _,
      silent_append.mpr ⟨hquote _ _, s.silent_closing _ _⟩⟩⟩
  rw [core, List.append_assoc] at hnone
  exact silent_append.mpr ⟨silent_of_wordChars (isWordChar_of_keyword (Kind.word_mem _)) hnone,
    silent_append.mpr ⟨s.silent_middle _ _, hquoted _⟩⟩

/-- What is found in a statement: its name by the form of its kind, nothing by another. -/
theorem hits_text (kind : Kind) (place : Nat) (rest : List Char) : hits kind.form? 0 place false (s.text ++ rest) =
    (if kind = s.shape.kind then [(place + s.nameOffset, s.name)] else []) ++
      hits kind.form? 0 (place + s.text.length) false rest := by
  have hlead : (∀ c ∈ s.shape.lead, c ∉ initials) ∧ endsInWord false s.shape.lead = false := by
    rcases s.shape.lead_cases with hlead | hlead
    · rw [hlead]
      exact ⟨nofun, rfl⟩
    · rw [hlead]
      exact ⟨Text.forall_mem_of_all (by decide), by decide⟩
  have hend : ∀ before rest, Silent kind.form? before rest ";".toList := fun before rest =>
    silent_of_initials kind.form?_mem (Text.forall_mem_of_all (by decide))
  have hsemicolon : ∀ before, endsInWord before ";".toList = false := by decide
  have hsome : s.core ≠ [] := by simp [core]
  have hoffset : place + s.shape.lead.length + (s.shape.kind.word.length + s.shape.middle.length + 1) =
      place + s.nameOffset := Nat.add_assoc _ _ _
  have hlength : place + s.shape.lead.length + s.core.length + ";".toList.length = place + s.text.length := by
    simp only [text, List.length_append]
    omega
  rw [text, List.append_assoc, hits_of_silent (silent_of_initials kind.form?_mem hlead.1), hlead.2, List.append_assoc]
  by_cases hkind : kind = s.shape.kind
  · subst hkind
    rw [hits_of_form (s.form?_core _) rfl hsome, hits_of_silent (hend _ _), hsemicolon, hlength, hoffset, if_pos rfl]
    rfl
  · rw [hits_of_silent (s.silent_core hkind _ _), hits_of_silent (hend _ _), hsemicolon, hlength, if_neg hkind]
    rfl

theorem nameOffset_le : s.nameOffset ≤ s.text.length := by
  simp only [nameOffset, text, core, List.length_append, List.length_cons, String.length_toList]
  omega

end Statement

/-! ## Lines -/

/-- A line of a script: a statement, or something else that has none of the words. -/
inductive Line where
  | statement (s : Statement)
  | other (text : List Char) (wordless : Wordless text)

namespace Line

def text : Line → List Char
  | statement s => s.text
  | other text _ => text

/-- The name of the module that a line imports. -/
def name? : Line → Option String
  | statement s => some (String.ofList s.name)
  | other _ _ => none

/-- The names in a line that starts at a place, each with the kind of its statement and its own place. -/
def found (place : Nat) : Line → List (Kind × Nat × List Char)
  | statement s => [(s.shape.kind, place + s.nameOffset, s.name)]
  | other _ _ => []

theorem hits_text (line : Line) (kind : Kind) (place : Nat) (hrest : ∀ c ∈ rest.head?, c = '\n') :
    hits kind.form? 0 place false (line.text ++ rest) =
      ((line.found place).filter (·.1 = kind)).map Prod.snd ++
        hits kind.form? 0 (place + line.text.length) (endsInWord false line.text) rest := by
  cases line with
  | statement s =>
      have hends : endsInWord false s.text = false := by
        rw [Statement.text, endsInWord_append, endsInWord_append]
        rfl
      have hfound : (((Line.statement s).found place).filter (·.1 = kind)).map Prod.snd =
          if kind = s.shape.kind then [(place + s.nameOffset, s.name)] else [] := by
        by_cases hkind : kind = s.shape.kind
        · simp [found, hkind]
        · simp [found, hkind, Ne.symm hkind]
      rw [hfound, text, hends]
      exact s.hits_text kind place rest
  | other text wordless =>
      refine hits_of_silent (silent_of_wordless kind.form?_mem wordless fun c hc => ?_) place
      rw [hrest c hc]
      decide

theorem place_of_mem_found {line : Line} {hit : Kind × Nat × List Char} (h : hit ∈ line.found place) :
    place ≤ hit.2.1 ∧ hit.2.1 ≤ place + line.text.length := by
  cases line with
  | statement s =>
      obtain rfl := List.mem_singleton.mp h
      exact ⟨Nat.le_add_right _ _, Nat.add_le_add_left s.nameOffset_le place⟩
  | other => cases h

end Line

/-- The text of a script. -/
def textOf (lines : List Line) : List Char := ['\n'].intercalate (lines.map Line.text)

/-- The names in a script that starts at a place. -/
def foundIn (place : Nat) : List Line → List (Kind × Nat × List Char)
  | [] => []
  | line :: lines => line.found place ++ foundIn (place + line.text.length + 1) lines

/-- What follows a line is the end of the script or the next line. -/
theorem exists_textOf_cons (line : Line) (lines : List Line) : ∃ rest, textOf (line :: lines) = line.text ++ rest ∧
    (lines = [] ∧ rest = [] ∨ rest = '\n' :: textOf lines) := by
  cases lines with
  | nil => exact ⟨[], by simp [textOf], .inl ⟨rfl, rfl⟩⟩
  | cons next lines => exact ⟨_, by simp [textOf, List.intercalate_cons_cons], .inr rfl⟩

/-- Each form finds the names in the statements of its kind. -/
theorem hits_textOf (kind : Kind) (lines : List Line) (place : Nat) :
    hits kind.form? 0 place false (textOf lines) = ((foundIn place lines).filter (·.1 = kind)).map Prod.snd := by
  induction lines generalizing place with
  | nil => rfl
  | cons line lines ih =>
      obtain ⟨rest, htext, hrest⟩ := exists_textOf_cons line lines
      rw [htext, foundIn, List.filter_append, List.map_append]
      rcases hrest with ⟨rfl, rfl⟩ | rfl
      · rw [line.hits_text kind place (by simp)]
        rfl
      · have hnewline : ∀ before rest, Silent kind.form? before rest ['\n'] := fun before rest =>
          silent_of_initials kind.form?_mem (Text.forall_mem_of_all (by decide))
        have hpassed := hits_of_silent (hnewline (endsInWord false line.text) (textOf lines)) (place + line.text.length)
        rw [line.hits_text kind place (by simp), ← ih (place + line.text.length + 1)]
        exact congrArg _ hpassed

theorem place_le_of_mem_foundIn {lines : List Line} {hit : Kind × Nat × List Char} (h : hit ∈ foundIn place lines) :
    place ≤ hit.2.1 := by
  induction lines generalizing place with
  | nil => cases h
  | cons line lines ih =>
      rcases List.mem_append.mp h with hline | hlines
      · exact (Line.place_of_mem_found hline).1
      · have := ih hlines
        omega

/-- The places of the names go up. -/
theorem pairwise_foundIn (place : Nat) (lines : List Line) :
    (foundIn place lines).Pairwise fun first second => first.2.1 < second.2.1 := by
  induction lines generalizing place with
  | nil => exact List.Pairwise.nil
  | cons line lines ih =>
      refine List.pairwise_append.mpr ⟨?_, ih _, fun first hfirst second hsecond => ?_⟩
      · cases line with
        | statement s => exact List.pairwise_singleton _ _
        | other => exact List.Pairwise.nil
      · have hend := (Line.place_of_mem_found hfirst).2
        have hstart := place_le_of_mem_foundIn hsecond
        omega

/-- What is sorted by kinds is all there. -/
theorem flatMap_filter_perm {kinds : List Kind} (hnodup : kinds.Nodup) (found : List (Kind × Nat × List Char)) :
    (kinds.flatMap fun kind => found.filter (·.1 = kind)).Perm (found.filter (·.1 ∈ kinds)) := by
  induction kinds with
  | nil => simp
  | cons kind kinds ih =>
      obtain ⟨hfresh, hnodup⟩ := List.nodup_cons.mp hnodup
      -- the hits of all kinds are those of this kind and those of the others
      have hfirst : (found.filter (·.1 ∈ kind :: kinds)).filter (·.1 = kind) = found.filter (·.1 = kind) := by
        rw [List.filter_filter]
        refine List.filter_congr fun hit _ => ?_
        by_cases hkind : hit.1 = kind
        · simp [hkind]
        · simp [hkind]
      have hothers : (found.filter (·.1 ∈ kind :: kinds)).filter (fun hit => !decide (hit.1 = kind)) =
          found.filter (·.1 ∈ kinds) := by
        rw [List.filter_filter]
        refine List.filter_congr fun hit _ => ?_
        by_cases hkind : hit.1 = kind
        · simp [hkind, hfresh]
        · simp [hkind]
      have hsplit := List.filter_append_perm (fun hit => decide (hit.1 = kind)) (found.filter (·.1 ∈ kind :: kinds))
      rw [hfirst, hothers] at hsplit
      exact ((ih hnodup).append_left _).trans hsplit

theorem map_foundIn (place : Nat) (lines : List Line) :
    (foundIn place lines).map (fun hit => String.ofList hit.2.2) = lines.filterMap Line.name? := by
  induction lines generalizing place with
  | nil => rfl
  | cons line lines ih =>
      rw [foundIn, List.map_append, ih]
      cases line with
      | statement s => rfl
      | other => rfl

/-- Sorting brings hits at increasing places back in their order. -/
theorem mergeSort_eq_of_increasing {shuffled found : List (Nat × List Char)} (hperm : shuffled.Perm found)
    (hincreasing : found.Pairwise fun first second => first.1 < second.1) :
    shuffled.mergeSort (fun first second => first.1 ≤ second.1) = found := by
  have hsorted : (shuffled.mergeSort fun first second => first.1 ≤ second.1).Pairwise
      fun first second => first.1 ≤ second.1 := by
    refine (List.pairwise_mergeSort (fun first second third hfirst hsecond => ?_) (fun first second => ?_) _).imp
      of_decide_eq_true
    · exact decide_eq_true ((of_decide_eq_true hfirst).trans (of_decide_eq_true hsecond))
    · simpa using Nat.le_total first.1 second.1
  have hplaces : (found.map Prod.fst).Nodup := List.pairwise_map.mpr (hincreasing.imp Nat.ne_of_lt)
  have hsame := (List.mergeSort_perm shuffled fun first second => first.1 ≤ second.1).trans hperm
  refine hsame.eq_of_pairwise (fun first second hfirst hsecond hle hge => ?_) hsorted (hincreasing.imp Nat.le_of_lt)
  exact List.inj_on_of_nodup_map hplaces (hsame.mem_iff.mp hfirst) hsecond (Nat.le_antisymm hle hge)

/-- The modules that a script of such lines seems to import are those that its statements name, in the order of the
lines. -/
theorem specifiers_of_lines (lines : List Line) :
    specifiers (String.ofList (textOf lines)) = lines.filterMap Line.name? := by
  have hperm : (forms.flatMap fun form? => hits form? 0 0 false (textOf lines)).Perm
      ((foundIn 0 lines).map Prod.snd) := by
    have hall : (foundIn 0 lines).filter (·.1 ∈ Kind.all) = foundIn 0 lines :=
      List.filter_eq_self.mpr fun hit _ => decide_eq_true (Kind.mem_all hit.1)
    have hkinds := flatMap_filter_perm (show Kind.all.Nodup by decide) (foundIn 0 lines)
    rw [hall] at hkinds
    rw [Kind.forms_eq, List.flatMap_map]
    simp only [hits_textOf]
    rw [← List.map_flatMap]
    exact hkinds.map _
  have hincreasing : ((foundIn 0 lines).map Prod.snd).Pairwise fun first second => first.1 < second.1 :=
    List.pairwise_map.mpr (pairwise_foundIn 0 lines)
  rw [specifiers, String.toList_ofList, mergeSort_eq_of_increasing hperm hincreasing, List.map_map]
  exact map_foundIn 0 lines

/-- Names that are imported, a line that is no statement, and a call whose value is kept. -/
theorem specifiers_of_lines_of_names_and_call :
    specifiers "import \x7b a, b as c \x7d from \"./x\";\nf(a, b)\nconst x = require('react');" = ["./x", "react"] := by
  let names : Clause :=
    ⟨"\x7b a, b as c \x7d".toList, by simp, List.all_eq_true.mp (by decide), wordless_of_letters (by decide)⟩
  let first : Statement := ⟨.importFrom names, '"', "./x".toList, by decide, by simp, Text.forall_mem_of_all (by decide)⟩
  let second : Statement := ⟨.requireCall true, '\'', "react".toList, by decide, by simp,
    Text.forall_mem_of_all (by decide)⟩
  let lines := [Line.statement first, .other "f(a, b)".toList (wordless_of_letters (by decide)), .statement second]
  have htext : textOf lines =
      "import \x7b a, b as c \x7d from \"./x\";\nf(a, b)\nconst x = require('react');".toList := by
    decide +kernel +zetaReduce
  have hnames : lines.filterMap Line.name? = ["./x", "react"] := by
    decide +kernel +zetaReduce
  rw [← hnames, ← specifiers_of_lines, htext, String.ofList_toList]

end ChangeImpact.Script.TextScan
