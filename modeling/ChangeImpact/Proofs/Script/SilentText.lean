import ChangeImpact.Proofs.Script.Patterns

/-!
# Texts in which no import is found

A form is tried at every boundary of a word, so that nothing is found in a region has to be known for each of its
places, and with all that follows the region.  This is `Silent`.  Regions are put together by `silent_append`, and
`hits_of_silent` passes over one.

A form starts with its word and a blank or a parenthesis right after it (`opens_of_form`).  So regions are silent for
one of three reasons.

* The letters with which the words start are missing: `silent_of_initials`.
* The words are missing: `silent_of_wordless`.  What follows has to end the last word of the region, else this could
  go on as one of them.
* There are neither blanks nor parentheses, and a quotation mark follows: `silent_of_name`.  The name of a module may
  well be `import`.
-/

namespace ChangeImpact.Script.TextScan

open Text (isBlank isWordChar forall_mem_head?_cons)

variable {form? : List Char → Option Hit} {text rest front back region : List Char} {c : Char} {hit : Hit}
  {before : Bool}

/-! ## Where a form can start -/

/-- The words with which the forms start. -/
def keywords : List String := ["import", "export", "require"]

/-- A text starts with one of these words and, right after it, a blank or a parenthesis. -/
def Opens (text : List Char) : Prop :=
  ∃ word ∈ keywords, ∃ c rest, (isBlank c = true ∨ c = '(') ∧ text = word.toList ++ c :: rest

theorem Gap.exists_head (h : Gap text) : ∃ c rest, isBlank c = true ∧ text = c :: rest := by
  obtain ⟨c, rest, rfl⟩ := List.exists_cons_of_ne_nil h.1
  exact ⟨c, rest, h.2 c List.mem_cons_self, rfl⟩

theorem FromClause.exists_head (h : FromClause text) : ∃ c rest, isBlank c = true ∧ text = c :: rest := by
  obtain ⟨first, names, second, third, hfirst, -, -, -, rfl⟩ := h
  obtain ⟨c, others, hc, rfl⟩ := hfirst.exists_head
  exact ⟨c, _, hc, rfl⟩

/-- No form starts anywhere else. -/
theorem opens_of_form (hform : form? ∈ forms) (h : form? text = some hit) : Opens text := by
  have hstatement : ∀ {word accepts}, word ∈ keywords →
      (∀ clause, accepts clause = true → ∃ c rest, isBlank c = true ∧ clause = c :: rest) →
      statementForm? word accepts text = some hit → Opens text := by
    intro word accepts hword hblank h
    obtain ⟨clause, atQuote, name, after, rfl, -, haccepts, -, -⟩ := statementForm?_eq_some_iff.mp h
    obtain ⟨c, others, hc, rfl⟩ := hblank clause haccepts
    exact ⟨word, hword, c, _, .inl hc, rfl⟩
  have hcall : ∀ {word}, word ∈ keywords → callForm? word text = some hit → Opens text := by
    intro word hword h
    obtain ⟨first, second, atQuote, name, third, after, hblank, rfl, -, -⟩ := callForm?_eq_some_iff.mp h
    cases first with
    | nil => exact ⟨word, hword, '(', _, .inr rfl, rfl⟩
    | cons c first => exact ⟨word, hword, c, _, .inl (hblank c (by simp)), rfl⟩
  simp only [forms, List.mem_cons, List.not_mem_nil, or_false] at hform
  rcases hform with rfl | rfl | rfl | rfl
  · refine hstatement (by simp [keywords]) (fun clause haccepts => ?_) h
    exact (importAccepts_iff.mp haccepts).elim Gap.exists_head FromClause.exists_head
  · refine hstatement (by simp [keywords]) (fun clause haccepts => ?_) h
    rcases exportAccepts_iff.mp haccepts with ⟨first, third, hfirst, -, rfl⟩ | hclause
    · obtain ⟨c, others, hc, rfl⟩ := hfirst.exists_head
      exact ⟨c, _, hc, rfl⟩
    · exact hclause.exists_head
  · exact hcall (by simp [keywords]) h
  · exact hcall (by simp [keywords]) h

/-! ## Going through a text -/

/-- Whether a text ends in a word, if the text before it does so or does not. -/
def endsInWord (before : Bool) (text : List Char) : Bool := (text.getLast?.map isWordChar).getD before

/-- At no boundary of a word in a region can a text be read in a form, whatever follows the region being `rest`. -/
def Silent (form? : List Char → Option Hit) (before : Bool) (rest : List Char) : List Char → Prop
  | [] => True
  | c :: region => (before = false → form? (c :: region ++ rest) = none) ∧ Silent form? (isWordChar c) rest region

theorem endsInWord_cons (before : Bool) (c : Char) (text : List Char) :
    endsInWord before (c :: text) = endsInWord (isWordChar c) text := by
  cases text with
  | nil => rfl
  | cons d text => rw [endsInWord, endsInWord, List.getLast?_cons_cons, List.getLast?_eq_some_getLast (by simp)]; rfl

theorem endsInWord_append (before : Bool) (front back : List Char) :
    endsInWord before (front ++ back) = endsInWord (endsInWord before front) back := by
  induction front generalizing before with
  | nil => rfl
  | cons c front ih => rw [List.cons_append, endsInWord_cons, endsInWord_cons, ih]

/-- Nothing is found in a silent region. -/
theorem hits_of_silent (h : Silent form? before rest region) (place : Nat) :
    hits form? 0 place before (region ++ rest) =
      hits form? 0 (place + region.length) (endsInWord before region) rest := by
  induction region generalizing before place with
  | nil => rfl
  | cons c region ih =>
      obtain ⟨hnone, hrest⟩ := h
      have hfirst : (if before then none else form? (c :: (region ++ rest))) = none := by
        cases before with
        | true => rfl
        | false => exact hnone rfl
      rw [List.cons_append, hits, hfirst, endsInWord_cons, List.length_cons, Nat.add_comm region.length 1,
        ← Nat.add_assoc]
      exact ih hrest (place + 1)

/-- Characters that belong to a hit are passed. -/
theorem hits_skipped (place : Nat) (before : Bool) (region rest : List Char) :
    hits form? region.length place before (region ++ rest) =
      hits form? 0 (place + region.length) (endsInWord before region) rest := by
  induction region generalizing before place with
  | nil => rfl
  | cons c region ih =>
      rw [List.cons_append, List.length_cons, hits, ih, endsInWord_cons, Nat.add_assoc, Nat.add_comm 1]

theorem silent_append : Silent form? before rest (front ++ back) ↔
    Silent form? before (back ++ rest) front ∧ Silent form? (endsInWord before front) rest back := by
  induction front generalizing before with
  | nil => simp [Silent, endsInWord]
  | cons c front ih =>
      rw [List.cons_append, Silent, Silent, ih, endsInWord_cons, and_assoc, List.cons_append, List.cons_append,
        List.append_assoc]

/-- A form that reads a region finds its name there, and nothing else. -/
theorem hits_of_form (hread : form? (region ++ rest) = some hit) (hlength : hit.length = region.length)
    (hsome : region ≠ []) (place : Nat) : hits form? 0 place false (region ++ rest) =
      (place + hit.offset, hit.name) :: hits form? 0 (place + region.length) (endsInWord false region) rest := by
  obtain ⟨c, others, rfl⟩ := List.exists_cons_of_ne_nil hsome
  have hskip : hit.length - 1 = others.length := by rw [hlength, List.length_cons, Nat.add_sub_cancel]
  rw [List.cons_append] at hread ⊢
  rw [hits]
  simp only [Bool.false_eq_true, if_false, hread, hskip]
  rw [hits_skipped, endsInWord_cons, List.length_cons, Nat.add_assoc, Nat.add_comm 1]

/-! ## Silent texts -/

/-- A region is silent if no form can start in it. -/
theorem silent_of_not_opens (hform : form? ∈ forms)
    (h : ∀ front back, region = front ++ back → back ≠ [] → endsInWord before front = false → ¬ Opens (back ++ rest)) :
    Silent form? before rest region := by
  induction region generalizing before with
  | nil => trivial
  | cons c region ih =>
      refine ⟨fun hbefore => ?_, ih fun front back hregion hback hends => ?_⟩
      · cases hfound : form? (c :: region ++ rest) with
        | none => rfl
        | some hit => exact absurd (opens_of_form hform hfound) (h [] (c :: region) rfl (List.cons_ne_nil _ _) hbefore)
      · exact h (c :: front) back (congrArg _ hregion) hback (by rw [endsInWord_cons, hends])

/-- A word is silent if it cannot be read at its start. -/
theorem silent_of_wordChars (hword : ∀ c ∈ region, isWordChar c = true) (hnone : form? (region ++ rest) = none) :
    Silent form? before rest region := by
  suffices hinside : ∀ {region}, (∀ c ∈ region, isWordChar c = true) → Silent form? true rest region by
    cases region with
    | nil => trivial
    | cons c region =>
        rw [List.forall_mem_cons] at hword
        exact ⟨fun _ => hnone, hword.1.symm ▸ hinside hword.2⟩
  intro region hregion
  induction region with
  | nil => trivial
  | cons c region ih =>
      rw [List.forall_mem_cons] at hregion
      exact ⟨nofun, hregion.1.symm ▸ ih hregion.2⟩

/-- The characters with which the words of the forms start. -/
def initials : List Char := ['i', 'e', 'r']

theorem Opens.initial (h : Opens (c :: text)) : c ∈ initials := by
  obtain ⟨word, hword, d, rest, -, heq⟩ := h
  have hstart : ∀ word ∈ keywords, word.toList.headD ' ' ∈ initials := by decide
  have hinitial := hstart word hword
  cases hletters : word.toList with
  | nil =>
      rw [hletters] at hinitial
      exact absurd hinitial (by decide)
  | cons e others =>
      rw [hletters] at hinitial heq
      cases heq
      exact hinitial

/-- A text without these characters is silent. -/
theorem silent_of_initials (hform : form? ∈ forms) (h : ∀ c ∈ region, c ∉ initials) :
    Silent form? before rest region := by
  refine silent_of_not_opens hform fun front back hregion hback _ hopens => ?_
  obtain ⟨c, others, rfl⟩ := List.exists_cons_of_ne_nil hback
  exact h c (hregion ▸ List.mem_append_right _ List.mem_cons_self) hopens.initial

/-- The words are made of word characters, and what has to follow them is none. -/
theorem isWordChar_of_keyword {word : String} (hword : word ∈ keywords) : ∀ c ∈ word.toList, isWordChar c = true := by
  have hall : ∀ word ∈ keywords, word.toList.all isWordChar = true := by decide
  exact List.all_eq_true.mp (hall word hword)

theorem isWordChar_of_isBlank (h : isBlank c = true) : isWordChar c = false := by
  have hascii : ∀ n < 0x80, isBlank (Char.ofNat n) = true → isWordChar (Char.ofNat n) = false := by decide +kernel
  have hdisjoint : ∀ blanks ∈ Text.blankRanges, ∀ letters ∈ Text.wordRanges,
      blanks.2 < letters.1 ∨ letters.2 < blanks.1 := by decide +kernel
  by_cases hlow : c.toNat < 0x80
  · have hc := hascii c.toNat hlow
    rw [Char.ofNat_toNat] at hc
    exact hc h
  · rw [isWordChar, if_neg hlow, Text.CharRanges.holds, List.any_eq_false]
    intro letters hletters hholds
    obtain ⟨blanks, hblanks, hheld⟩ := List.any_eq_true.mp h
    simp only [Bool.and_eq_true, decide_eq_true_eq] at hheld hholds
    rcases hdisjoint blanks hblanks letters hletters with hbelow | habove
    · omega
    · omega

/-- A text has a word, with no word character next to it. -/
def HasWord (text word : List Char) : Prop :=
  ∃ front back, text = front ++ word ++ back ∧ endsInWord false front = false ∧ ∀ c ∈ back.head?, isWordChar c = false

/-- A text has none of the words with which the forms start. -/
def Wordless (text : List Char) : Prop := ∀ word ∈ keywords, ¬ HasWord text word.toList

/-- A text that lacks a letter of each word has none of them. -/
theorem wordless_of_letters (h : ∀ word ∈ keywords, ¬ word.toList ⊆ text) : Wordless text := by
  rintro word hword ⟨front, back, rfl, -, -⟩
  exact h word hword fun c hc => by simp [hc]

/-- Where a form can start its word lies in a region or reaches its end, unless a word goes on there. -/
theorem Opens.exists_tail (h : Opens (back ++ rest)) (hrest : ∀ c ∈ rest.head?, isWordChar c = false) :
    ∃ word ∈ keywords, ∃ tail c more, (isBlank c = true ∨ c = '(') ∧ back = word.toList ++ tail ∧
      tail ++ rest = c :: more := by
  obtain ⟨word, hword, c, more, hc, heq⟩ := h
  rcases List.append_eq_append_iff.mp heq with ⟨beyond, hbeyond, hrests⟩ | ⟨tail, htail, hmore⟩
  · cases beyond with
    | nil => exact ⟨word, hword, [], c, more, hc, by rw [hbeyond, List.append_nil, List.append_nil], hrests⟩
    | cons d beyond =>
        -- the word would go on after the region
        have hd : isWordChar d = true := isWordChar_of_keyword hword d (by simp [hbeyond])
        rw [hrest d (by rw [hrests]; rfl)] at hd
        cases hd
  · exact ⟨word, hword, tail, c, more, hc, htail, hmore.symm⟩

/-- A text without the words is silent, if nothing that follows makes its end the start of a word. -/
theorem silent_of_wordless (hform : form? ∈ forms) (h : Wordless region)
    (hrest : ∀ c ∈ rest.head?, isWordChar c = false) : Silent form? before rest region := by
  refine silent_of_not_opens hform fun front back hregion hback hends hopens => ?_
  obtain ⟨word, hword, tail, c, more, hc, rfl, hmore⟩ := hopens.exists_tail hrest
  have hnot : isWordChar c = false := hc.elim isWordChar_of_isBlank fun hparen => hparen ▸ by decide
  refine h word hword ⟨front, tail, by rw [hregion, List.append_assoc], ?_, fun d hd => ?_⟩
  · cases front with
    | nil => rfl
    | cons d front => rwa [endsInWord_cons] at hends ⊢
  · cases tail with
    | nil => cases hd
    | cons e tail =>
        cases hmore
        obtain rfl : c = d := Option.some.inj hd
        exact hnot

theorem silent_singleton_of_isQuote (hform : form? ∈ forms) (hc : isQuote c = true) : Silent form? before rest [c] := by
  refine silent_of_initials hform fun d hd => ?_
  obtain rfl := List.mem_singleton.mp hd
  rcases isQuote_cases hc with rfl | rfl
  · decide
  · decide

/-- A name is silent between quotation marks. -/
theorem silent_of_name {quote : Char} (hform : form? ∈ forms) (hquote : isQuote quote = true)
    (h : ∀ c ∈ region, isBlank c = false ∧ c ≠ '(') (after : List Char) :
    Silent form? before (quote :: after) region := by
  have hparen : quote ≠ '(' := by
    rcases isQuote_cases hquote with rfl | rfl
    · decide
    · decide
  refine silent_of_not_opens hform fun front back hregion hback hends hopens => ?_
  obtain ⟨word, hword, tail, c, more, hc, rfl, hmore⟩ :=
    hopens.exists_tail (forall_mem_head?_cons (isWordChar_of_isQuote hquote))
  have hc' : isBlank c = false ∧ c ≠ '(' := by
    cases tail with
    | nil =>
        cases hmore
        exact ⟨isBlank_of_isQuote hquote, hparen⟩
    | cons d tail =>
        cases hmore
        exact h c (by simp [hregion])
  rcases hc with hblank | hparen
  · rw [hc'.1] at hblank
    cases hblank
  · exact hc'.2 hparen

end ChangeImpact.Script.TextScan
