import ChangeImpact.Proofs.Text.Blank
import ChangeImpact.Script.TextScan
import Mathlib.Data.List.Basic
import Mathlib.Data.List.TakeDrop
import Mathlib.Data.List.TakeWhile
import Mathlib.Data.Option.Basic

/-!
# What the forms of an import read

A form reads a word, then what may stand between the word and a name, then the name between quotation marks.  For a
call there are parentheses around the name (`callForm?_eq_some_iff`), and blanks wherever they may be.  For a
statement there are blanks between the word and the name, or a clause that ends with `from`
(`statementForm?_eq_some_iff`, `importAccepts_iff`, `exportAccepts_iff`).

Clauses have no quotation marks and names have none, so there is only one way to read a text in a form.
-/

namespace ChangeImpact.Script.TextScan

open Text (isBlank isWordChar stripLeft stripRight exists_stripLeft exists_stripRight stripLeft_append stripRight_append
  forall_mem_head?_cons span_append span_eq_iff)

variable {text rest front back clause before gap name after atQuote : List Char} {c : Char} {word : String} {hit : Hit}
  {accepts : List Char → Bool}

/-! ## The parts of a form -/

/-- One blank or more. -/
def Gap (text : List Char) : Prop := text ≠ [] ∧ ∀ c ∈ text, isBlank c = true

/-- A name in quotation marks, and what follows. -/
def Quoted (text name after : List Char) : Prop :=
  ∃ first last, isQuote first = true ∧ isQuote last = true ∧ name ≠ [] ∧ (∀ c ∈ name, isQuote c = false) ∧
    text = first :: (name ++ last :: after)

theorem after?_eq_some_iff : after? word text = some rest ↔ text = word.toList ++ rest := by
  rw [after?]
  split
  · rename_i hprefix
    obtain ⟨others, rfl⟩ := List.isPrefixOf_iff_prefix.mp hprefix
    rw [← String.length_toList, List.drop_left, Option.some.injEq, List.append_cancel_left_eq]
  · rename_i hnot
    refine iff_of_false nofun ?_
    rintro rfl
    exact hnot (List.isPrefixOf_iff_prefix.mpr (List.prefix_append _ _))

theorem quoted?_eq_some_iff : quoted? text = some (name, after) ↔ Quoted text name after := by
  constructor
  · intro h
    cases text with
    | nil => cases h
    | cons first rest =>
        rw [quoted?] at h
        split at h
        · rename_i hfirst
          cases hspan : rest.span (!isQuote ·) with
          | mk held others =>
              obtain ⟨rfl, hheld, hothers⟩ := span_eq_iff.mp hspan
              rw [hspan] at h
              cases held with
              | nil => cases h
              | cons c held =>
                  cases others with
                  | nil => cases h
                  | cons last others =>
                      cases h
                      exact ⟨first, last, hfirst, by simpa using hothers last rfl, List.cons_ne_nil _ _,
                        by simpa using hheld, rfl⟩
        · cases h
  · rintro ⟨first, last, hfirst, hlast, hsome, hname, rfl⟩
    have hspan : (name ++ last :: after).span (!isQuote ·) = (name, last :: after) :=
      span_append (by simpa using hname) (by simpa using hlast)
    obtain ⟨c, held, rfl⟩ := List.exists_cons_of_ne_nil hsome
    rw [quoted?, if_pos hfirst, hspan]

theorem beforeFrom?_eq_some_iff : beforeFrom? clause = some before ↔
    ∃ gap, Gap gap ∧ clause = before ++ "from".toList ++ gap := by
  constructor
  · intro h
    obtain ⟨gap, hblank, hclause⟩ := exists_stripRight clause
    rw [beforeFrom?] at h
    generalize stripRight clause = trimmed at h hclause
    split at h
    · rename_i hends
      rw [Bool.and_eq_true, decide_eq_true_eq, List.isSuffixOf_iff_suffix] at hends
      obtain ⟨hlength, others, rfl⟩ := hends
      cases h
      refine ⟨gap, ⟨?_, hblank⟩, ?_⟩
      · rintro rfl
        rw [hclause, List.append_nil] at hlength
        exact absurd hlength (Nat.lt_irrefl _)
      · rw [hclause, List.take_left' (by simp)]
    · cases h
  · rintro ⟨gap, ⟨hsome, hblank⟩, rfl⟩
    have htrimmed : stripRight (before ++ "from".toList ++ gap) = before ++ "from".toList := by
      refine stripRight_append (fun c hc => ?_) hblank
      obtain rfl : 'm' = c := by simpa using hc
      decide
    have hlength : gap.length ≠ 0 := fun h => hsome (List.length_eq_zero_iff.mp h)
    rw [beforeFrom?, htrimmed, if_pos, List.take_left' (by simp)]
    rw [Bool.and_eq_true, decide_eq_true_eq, List.isSuffixOf_iff_suffix]
    refine ⟨?_, List.suffix_append _ _⟩
    simp only [List.length_append]
    omega

theorem gap_singleton (hc : isBlank c = true) : Gap [c] := ⟨List.cons_ne_nil _ _, by simpa using hc⟩

theorem Gap.betweenBlanks (h : Gap text) : betweenBlanks text = true := by
  obtain ⟨hsome, hblank⟩ := h
  rw [TextScan.betweenBlanks, List.head?_eq_some_head hsome, List.getLast?_eq_some_getLast hsome]
  simp [hblank _ (List.head_mem hsome), hblank _ (List.getLast_mem hsome)]

theorem betweenBlanks_append (hfront : Gap front) (hback : Gap back) (middle : List Char) :
    betweenBlanks (front ++ middle ++ back) = true := by
  have hstart := hfront.betweenBlanks
  have hend := hback.betweenBlanks
  rw [betweenBlanks, Bool.and_eq_true] at hstart hend ⊢
  rw [List.append_assoc, List.head?_append_of_ne_nil _ hfront.1, ← List.append_assoc,
    List.getLast?_append_of_ne_nil _ hback.1]
  exact ⟨hstart.1, hend.2⟩

/-- A text that starts and ends with a blank is short, or has something in the middle. -/
theorem betweenBlanks_cases (h : betweenBlanks text = true) : (Gap text ∧ text.length < 3) ∨
    ∃ first middle last, Gap first ∧ middle ≠ [] ∧ Gap last ∧ text = first ++ middle ++ last := by
  cases text with
  | nil => cases h
  | cons c rest =>
      rcases List.eq_nil_or_concat' rest with rfl | ⟨middle, d, rfl⟩
      · exact .inl ⟨gap_singleton (by simpa [betweenBlanks] using h), by simp⟩
      · have hboth : isBlank c = true ∧ isBlank d = true := by
          rw [betweenBlanks, ← List.cons_append, List.getLast?_concat] at h
          simpa using h
        by_cases hmiddle : middle = []
        · subst hmiddle
          exact .inl ⟨⟨List.cons_ne_nil _ _, by simpa using hboth⟩, by simp⟩
        · exact .inr ⟨[c], middle, [d], gap_singleton hboth.1, hmiddle, gap_singleton hboth.2, rfl⟩

/-- What may stand between a word and the name if there is a clause. -/
def FromClause (clause : List Char) : Prop :=
  ∃ first names second third, Gap first ∧ names ≠ [] ∧ Gap second ∧ Gap third ∧
    clause = first ++ names ++ second ++ "from".toList ++ third

/-- Between `import` and the name there are blanks alone, or a clause. -/
theorem importAccepts_iff : importAccepts clause = true ↔ Gap clause ∨ FromClause clause := by
  rw [importAccepts, Bool.or_eq_true]
  refine or_congr (by simp [Gap]) ?_
  constructor
  · intro h
    cases hfrom : beforeFrom? clause with
    | none => simp [hfrom] at h
    | some before =>
        obtain ⟨third, hthird, rfl⟩ := beforeFrom?_eq_some_iff.mp hfrom
        simp only [hfrom, Bool.and_eq_true, decide_eq_true_eq] at h
        rcases betweenBlanks_cases h.1 with ⟨-, hshort⟩ | ⟨first, names, second, hfirst, hnames, hsecond, rfl⟩
        · exact absurd h.2 (Nat.not_le.mpr hshort)
        · exact ⟨first, names, second, third, hfirst, hnames, hsecond, hthird, rfl⟩
  · rintro ⟨first, names, second, third, hfirst, hnames, hsecond, hthird, rfl⟩
    rw [beforeFrom?_eq_some_iff.mpr ⟨third, hthird, rfl⟩]
    have hlength : 3 ≤ (first ++ names ++ second).length := by
      have hone := List.length_pos_of_ne_nil hfirst.1
      have htwo := List.length_pos_of_ne_nil hnames
      have hthree := List.length_pos_of_ne_nil hsecond.1
      simp only [List.length_append]
      omega
    simp only [betweenBlanks_append hfirst hsecond, Bool.true_and, decide_eq_true_eq]
    exact hlength

/-- Between `export` and the name there is `from` between blanks, before it perhaps a clause. -/
theorem exportAccepts_iff : exportAccepts clause = true ↔
    (∃ first third, Gap first ∧ Gap third ∧ clause = first ++ "from".toList ++ third) ∨ FromClause clause := by
  have hbefore : exportAccepts clause = true ↔
      ∃ before, beforeFrom? clause = some before ∧ betweenBlanks before = true := by
    rw [exportAccepts]
    cases beforeFrom? clause with
    | none => simp
    | some before => simp
  rw [hbefore]
  constructor
  · rintro ⟨before, hfrom, hblanks⟩
    obtain ⟨third, hthird, rfl⟩ := beforeFrom?_eq_some_iff.mp hfrom
    rcases betweenBlanks_cases hblanks with ⟨hgap, -⟩ | ⟨first, names, second, hfirst, hnames, hsecond, rfl⟩
    · exact .inl ⟨before, third, hgap, hthird, rfl⟩
    · exact .inr ⟨first, names, second, third, hfirst, hnames, hsecond, hthird, rfl⟩
  · rintro (⟨first, third, hfirst, hthird, rfl⟩ | ⟨first, names, second, third, hfirst, hnames, hsecond, hthird, rfl⟩)
    · exact ⟨first, beforeFrom?_eq_some_iff.mpr ⟨third, hthird, rfl⟩, hfirst.betweenBlanks⟩
    · exact ⟨_, beforeFrom?_eq_some_iff.mpr ⟨third, hthird, rfl⟩, betweenBlanks_append hfirst hsecond names⟩

/-! ## The forms -/

theorem Quoted.exists_head (h : Quoted text name after) :
    ∃ first rest, isQuote first = true ∧ text = first :: rest := by
  obtain ⟨first, last, hfirst, -, -, -, rfl⟩ := h
  exact ⟨first, _, hfirst, rfl⟩

theorem isQuote_cases (h : isQuote c = true) : c = '"' ∨ c = '\'' := by
  rwa [isQuote, Bool.or_eq_true, beq_iff_eq, beq_iff_eq] at h

theorem isClauseChar_of_isQuote (h : isQuote c = true) : isClauseChar c = false := by
  rcases isQuote_cases h with rfl | rfl
  · decide
  · decide

theorem isClauseChar_of_isBlank (h : isBlank c = true) : isClauseChar c = true := by simp [isClauseChar, h]

theorem isClauseChar_of_isWordChar (h : isWordChar c = true) : isClauseChar c = true := by simp [isClauseChar, h]

theorem isBlank_of_isQuote (h : isQuote c = true) : isBlank c = false :=
  Bool.eq_false_iff.mpr fun hblank => Bool.eq_false_iff.mp (isClauseChar_of_isQuote h) (isClauseChar_of_isBlank hblank)

theorem isWordChar_of_isQuote (h : isQuote c = true) : isWordChar c = false :=
  Bool.eq_false_iff.mpr fun hword => Bool.eq_false_iff.mp (isClauseChar_of_isQuote h) (isClauseChar_of_isWordChar hword)

/-- A form with a clause reads its word, the clause, and the name. -/
theorem statementForm?_eq_some_iff : statementForm? word accepts text = some hit ↔
    ∃ clause atQuote name after, text = word.toList ++ (clause ++ atQuote) ∧ (∀ c ∈ clause, isClauseChar c = true) ∧
      accepts clause = true ∧ Quoted atQuote name after ∧ hit = .between text name atQuote after := by
  constructor
  · intro h
    simp only [statementForm?, bind, Option.bind_eq_some_iff] at h
    obtain ⟨rest, hrest, _, hguard, ⟨name, after⟩, hquoted, hhit⟩ := h
    obtain rfl := after?_eq_some_iff.mp hrest
    cases hspan : rest.span isClauseChar with
    | mk clause atQuote =>
        rw [hspan] at hguard hquoted hhit
        obtain ⟨rfl, hclause, -⟩ := span_eq_iff.mp hspan
        cases hhit
        exact ⟨clause, atQuote, name, after, rfl, hclause, (Option.guard_eq_some' _).mp hguard,
          quoted?_eq_some_iff.mp hquoted, rfl⟩
  · rintro ⟨clause, atQuote, name, after, rfl, hclause, haccepts, hquoted, rfl⟩
    obtain ⟨first, rest, hfirst, rfl⟩ := hquoted.exists_head
    have hspan : (clause ++ first :: rest).span isClauseChar = (clause, first :: rest) :=
      span_append hclause (forall_mem_head?_cons (isClauseChar_of_isQuote hfirst))
    simp only [statementForm?, bind, Option.bind_eq_some_iff]
    refine ⟨_, after?_eq_some_iff.mpr rfl, ?_⟩
    rw [hspan]
    exact ⟨(), if_pos haccepts, (name, after), quoted?_eq_some_iff.mpr hquoted, rfl⟩

/-- A form with parentheses reads its word and the name between parentheses, with blanks anywhere. -/
theorem callForm?_eq_some_iff : callForm? word text = some hit ↔
    ∃ first second atQuote name third after, (∀ c ∈ first ++ second ++ third, isBlank c = true) ∧
      text = word.toList ++ (first ++ '(' :: (second ++ atQuote)) ∧ Quoted atQuote name (third ++ ')' :: after) ∧
      hit = .between text name atQuote after := by
  have hopen : isBlank '(' = false := by decide
  have hclose : isBlank ')' = false := by decide
  simp only [callForm?, bind, Option.bind_eq_some_iff]
  constructor
  · rintro ⟨rest, hrest, inside, hinside, ⟨name, tail⟩, hquoted, after, hafter, hhit⟩
    obtain ⟨first, hfirst, hrests⟩ := exists_stripLeft rest
    obtain ⟨second, hsecond, hinsides⟩ := exists_stripLeft inside
    obtain ⟨third, hthird, htail⟩ := exists_stripLeft tail
    rw [after?_eq_some_iff] at hrest hinside hafter
    cases hhit
    refine ⟨first, second, stripLeft inside, name, third, after, ?_, ?_, ?_, rfl⟩
    · simp only [List.mem_append]
      rintro c ((hc | hc) | hc)
      · exact hfirst c hc
      · exact hsecond c hc
      · exact hthird c hc
    · rw [hrest, ← hinsides]
      conv_lhs => rw [hrests, hinside]
      rfl
    · rw [hafter] at htail
      exact htail ▸ quoted?_eq_some_iff.mp hquoted
  · rintro ⟨first, second, atQuote, name, third, after, hblank, rfl, hquoted, rfl⟩
    simp only [List.mem_append] at hblank
    have hfirst : ∀ c ∈ first, isBlank c = true := fun c hc => hblank c (.inl (.inl hc))
    have hsecond : ∀ c ∈ second, isBlank c = true := fun c hc => hblank c (.inl (.inr hc))
    have hthird : ∀ c ∈ third, isBlank c = true := fun c hc => hblank c (.inr hc)
    obtain ⟨quote, rest, hquote, rfl⟩ := hquoted.exists_head
    have hstrip := stripLeft_append hsecond (isBlank_of_isQuote hquote) rest
    refine ⟨_, after?_eq_some_iff.mpr rfl, second ++ quote :: rest, ?_, (name, third ++ ')' :: after), ?_, after, ?_,
      ?_⟩
    · rw [stripLeft_append hfirst hopen]
      exact after?_eq_some_iff.mpr rfl
    · rw [hstrip]
      exact quoted?_eq_some_iff.mpr hquoted
    · rw [stripLeft_append hthird hclose]
      exact after?_eq_some_iff.mpr rfl
    · rw [hstrip]
      rfl

end ChangeImpact.Script.TextScan
