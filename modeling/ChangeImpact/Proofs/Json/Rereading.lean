import ChangeImpact.Proofs.Json.Numbers

/-!
# Reading what has been printed

A document that has been printed is read back (`readChars_print`).  Nothing of it is lost but what the
numbers lose: each of them is read as the number that its own text is read as (`reread`).  It has to be
readable at all, the names of every object have to be distinct, since of a field that is given twice only
the last value is read, and no half of a pair may stand in a text (`Legible`).

The proof follows the printer.  What has been printed for a value is read as the value, whatever comes
after it (`Legible.readsBack`); the rest of a list is read by the loop that has read the items before it.  The
fuel of the reader is bounded by the length of the text: every item is led by a bracket or a comma of its own.
-/

namespace ChangeImpact.Json

variable {depth fuel outer : Nat} {text tail rest : List Char} {value item : Json}
  {items : List Json} {fields : List (String × Json)} {name : String}

/-! ## Values and their members -/

/-- What holds of an array or an object whenever it holds of all its members holds of every value. -/
@[induction_eliminator]
theorem inductionOnMembers {motive : Json → Prop} (null : motive null) (bool : ∀ value, motive (bool value))
    (int : ∀ value, motive (int value)) (float : ∀ value, motive (float value))
    (string : ∀ value, motive (string value)) (halved : ∀ value, motive (halved value))
    (array : ∀ items, (∀ item ∈ items, motive item) → motive (array items))
    (object : ∀ fields, (∀ field ∈ fields, motive field.2) → motive (object fields))
    (halvedObject : ∀ fields, (∀ field ∈ fields, motive field.2) → motive (halvedObject fields)) :
    ∀ value, motive value
  | .null => null
  | .bool value => bool value
  | .int value => int value
  | .float value => float value
  | .string value => string value
  | .halved value => halved value
  | .array items => array items fun item _ =>
      inductionOnMembers null bool int float string halved array object halvedObject item
  | .object fields => object fields fun field _ =>
      inductionOnMembers null bool int float string halved array object halvedObject field.2
  | .halvedObject fields => halvedObject fields fun field _ =>
      inductionOnMembers null bool int float string halved array object halvedObject field.2
termination_by value => sizeOf value
decreasing_by
  · have hsize := List.sizeOf_lt_of_mem ‹item ∈ items›
    simp only [Json.array.sizeOf_spec]
    omega
  · have hsize := List.sizeOf_lt_of_mem ‹field ∈ fields›
    obtain ⟨name, value⟩ := field
    simp only [Json.object.sizeOf_spec, Prod.mk.sizeOf_spec] at hsize ⊢
    omega
  · have hsize := List.sizeOf_lt_of_mem ‹field ∈ fields›
    obtain ⟨name, value⟩ := field
    simp only [Json.halvedObject.sizeOf_spec, Prod.mk.sizeOf_spec] at hsize ⊢
    omega

/-! ## What is read back -/

/-- The number that is read where a number has been printed. -/
def rereadNumber (number : Json) : Json :=
  match read (print number) with
  | .ok again => again
  | .error _ => number

mutual

/-- The value that is read where a value has been printed. -/
def reread : Json → Json
  | int value => rereadNumber (int value)
  | float value => rereadNumber (float value)
  | array items => array (rereadItems items)
  | object fields => object (rereadFields fields)
  | value => value

/-- What is read where the items of a list have been printed. -/
def rereadItems : List Json → List Json
  | [] => []
  | item :: items => reread item :: rereadItems items

/-- What is read where the fields of an object have been printed. -/
def rereadFields : List (String × Json) → List (String × Json)
  | [] => []
  | (name, value) :: fields => (name, reread value) :: rereadFields fields

end

mutual

/-- The numbers of a value are read back as something, the names of each of its objects are distinct, and
its texts are strings. -/
def Legible : Json → Prop
  | int value => ∃ again, read (print (int value)) = .ok again
  | float value => ∃ again, read (print (float value)) = .ok again
  | array items => LegibleItems items
  | object fields => (fields.map (·.1)).Nodup ∧ LegibleFields fields
  | halved _ | halvedObject _ => False
  | _ => True

/-- All items of a list are legible. -/
def LegibleItems : List Json → Prop
  | [] => True
  | item :: items => Legible item ∧ LegibleItems items

/-- The values of all fields of an object are legible. -/
def LegibleFields : List (String × Json) → Prop
  | [] => True
  | (_, value) :: fields => Legible value ∧ LegibleFields fields

end

theorem rereadItems_eq_map (items : List Json) : rereadItems items = items.map reread := by
  induction items with
  | nil => rfl
  | cons item items ih => rw [rereadItems, ih, List.map_cons]

theorem rereadFields_eq_map (fields : List (String × Json)) :
    rereadFields fields = fields.map fun field => (field.1, reread field.2) := by
  induction fields with
  | nil => rfl
  | cons field fields ih => rw [rereadFields, ih, List.map_cons]

theorem legibleItems_iff : LegibleItems items ↔ ∀ item ∈ items, Legible item := by
  induction items with
  | nil => simp [LegibleItems]
  | cons item items ih => simp [LegibleItems, ih]

theorem legibleFields_iff : LegibleFields fields ↔ ∀ field ∈ fields, Legible field.2 := by
  induction fields with
  | nil => simp [LegibleFields]
  | cons field fields ih =>
      obtain ⟨name, value⟩ := field
      rw [LegibleFields, ih, List.forall_mem_cons]

/-! ## Where a value starts -/

theorem skipGap_newline (text : List Char) : skipGap (newline depth ++ text) = skipGap text := by
  have hblanks : ∀ n, (List.replicate n ' ' ++ text).dropWhile isGap = text.dropWhile isGap := by
    intro n
    induction n with
    | zero => rfl
    | succ n ih => simpa [List.replicate_succ, List.dropWhile_cons, isGap] using ih
  simpa [skipGap, newline, List.dropWhile_cons, isGap] using hblanks (2 * depth)

/-- What closes a list or an object stands on a line of its own. -/
theorem skipGap_closing {c : Char} (hc : isGap c = false) (tail : List Char) :
    skipGap (newline depth ++ c :: tail) = c :: tail := by
  rw [skipGap_newline, skipGap_of_not_isGap hc]

theorem skipGap_printItems_cons (item : Json) (items : List Json) (tail : List Char) :
    skipGap (printItems depth (item :: items) ++ tail) =
      ',' :: (newline depth ++ (printAt depth item ++ (printItems depth items ++ tail))) := by
  simp [printItems, skipGap, isGap]

theorem skipGap_printFields_cons (name : String) (value : Json) (fields : List (String × Json)) (tail : List Char) :
    skipGap (printFields depth ((name, value) :: fields) ++ tail) =
      ',' :: (newline depth ++ (printString name ++ ':' :: ' ' ::
        (printAt depth value ++ (printFields depth fields ++ tail)))) := by
  simp [printFields, skipGap, isGap]

theorem delimited_newline (text : List Char) : Delimited (newline depth ++ text) := by
  intro c hc
  cases hc
  exact .inr rfl

theorem delimited_items (h : Delimited tail) (items : List Json) :
    Delimited (printItems depth items ++ tail) := by
  cases items with
  | nil => exact h
  | cons item items =>
      intro c hc
      cases hc
      exact .inl rfl

theorem delimited_fields (h : Delimited tail) (fields : List (String × Json)) :
    Delimited (printFields depth fields ++ tail) := by
  cases fields with
  | nil => exact h
  | cons field fields =>
      intro c hc
      cases hc
      exact .inl rfl

/-- A printed number consists of numeral characters, and it is not empty if it is legible. -/
theorem exists_numeral_of_legible (hnumeral : ∀ c ∈ text, isNumeral c = true)
    (h : ∃ again, read (String.ofList text) = .ok again) :
    ∃ c rest, text = c :: rest ∧ isNumeral c = true := by
  rcases text with _ | ⟨c, rest⟩
  · obtain ⟨again, h⟩ := h
    cases h
  · exact ⟨c, rest, rfl, hnumeral c List.mem_cons_self⟩

/-- A printed value starts with a character of its own. -/
theorem exists_printAt_eq_cons (hvalue : Legible value) :
    ∃ c rest, printAt depth value = c :: rest ∧ isGap c = false ∧ c ≠ ']' ∧ c ≠ Char.ofNat 0xfeff := by
  have hnumber : (∃ c rest, printAt depth value = c :: rest ∧ isNumeral c = true) →
      ∃ c rest, printAt depth value = c :: rest ∧ isGap c = false ∧ c ≠ ']' ∧
        c ≠ Char.ofNat 0xfeff := by
    rintro ⟨c, rest, hprint, hc⟩
    exact ⟨c, rest, hprint, isGap_of_isNumeral hc, ne_of_isNumeral hc (by decide),
      ne_of_isNumeral hc (by decide)⟩
  cases value with
  | null => exact ⟨_, _, rfl, by decide⟩
  | bool value =>
      cases value with
      | true => exact ⟨_, _, rfl, by decide⟩
      | false => exact ⟨_, _, rfl, by decide⟩
  | int value =>
      exact hnumber (exists_numeral_of_legible (fun _ => isNumeral_of_mem_integer) hvalue)
  | float value =>
      exact hnumber (exists_numeral_of_legible (fun _ => isNumeral_of_mem_printFloat) hvalue)
  | string value => exact ⟨_, _, rfl, by decide⟩
  | array items =>
      cases items with
      | nil => exact ⟨_, _, rfl, by decide⟩
      | cons item items => exact ⟨_, _, rfl, by decide⟩
  | object fields =>
      cases fields with
      | nil => exact ⟨_, _, rfl, by decide⟩
      | cons field fields => exact ⟨_, _, rfl, by decide⟩
  | halved value => cases hvalue
  | halvedObject fields => cases hvalue

theorem skipGap_printAt (hvalue : Legible value) (tail : List Char) :
    skipGap (printAt depth value ++ tail) = printAt depth value ++ tail := by
  obtain ⟨c, rest, hprint, hgap, -⟩ : ∃ c rest, printAt depth value = c :: rest ∧
      isGap c = false ∧ c ≠ ']' ∧ c ≠ Char.ofNat 0xfeff := exists_printAt_eq_cons hvalue
  rw [hprint]
  exact skipGap_of_not_isGap hgap

/-! ## Steps of the reader -/

theorem readValue_string (s : String) (tail : List Char) :
    readValue (fuel + 1) (printString s ++ tail) = .ok (string s, tail) := by
  rw [printString_append, readValue.eq_def]
  simp only [readString_printed]
  rfl

theorem readValue_array {c : Char} (hgap : skipGap text = c :: rest) (hc : c ≠ ']')
    (hitems : readItems fuel [] (c :: rest) = .ok (items, tail)) :
    readValue (fuel + 1) ('[' :: text) = .ok (array items, tail) := by
  rw [readValue.eq_def]
  simp only [hgap]
  split
  · rename_i heq
    exact absurd (List.cons.inj heq).1 hc
  · rw [hitems]
    rfl

/-- A field whose name is a string. -/
def wholeField (field : String × Json) : Wording × Json := (.whole field.1, field.2)

theorem ofFields_map_wholeField (fields : List (String × Json)) :
    ofFields (fields.map wholeField) = object fields := by
  have hstrings : (fields.map wholeField).mapM stringField? = some fields := by
    induction fields with
    | nil => rfl
    | cons field fields ih => rw [List.map_cons, List.mapM_cons, ih]; rfl
  rw [ofFields, hstrings]

theorem readValue_object {c : Char} (hgap : skipGap text = c :: rest) (hc : c ≠ '\x7d')
    (hfields : readFields fuel [] (c :: rest) = .ok (fields.map wholeField, tail)) :
    readValue (fuel + 1) ('\x7b' :: text) = .ok (object fields, tail) := by
  rw [readValue.eq_def]
  simp only [hgap]
  split
  · rename_i heq
    exact absurd (List.cons.inj heq).1 hc
  · rw [hfields]
    show Except.ok (ofFields (fields.map wholeField), tail) = _
    rw [ofFields_map_wholeField]

theorem readItems_last {sofar : List Json} (hitem : readValue fuel text = .ok (item, rest))
    (hrest : skipGap rest = ']' :: tail) :
    readItems (fuel + 1) sofar text = .ok ((item :: sofar).reverse, tail) := by
  rw [readItems, hitem]
  simp only [bind, Except.bind, hrest]
  rfl

theorem readItems_more {sofar : List Json} (hitem : readValue fuel text = .ok (item, rest))
    (hrest : skipGap rest = ',' :: tail) :
    readItems (fuel + 1) sofar text = readItems fuel (item :: sofar) (skipGap tail) := by
  rw [readItems, hitem]
  simp only [bind, Except.bind, hrest]

theorem readFields_last {sofar : List (Wording × Json)}
    (hvalue : readValue fuel (skipGap text) = .ok (value, rest)) (hrest : skipGap rest = '\x7d' :: tail) :
    readFields (fuel + 1) sofar (printString name ++ ':' :: text) =
      .ok (setField sofar (.whole name) value, tail) := by
  have hcolon : skipGap (':' :: text) = ':' :: text := rfl
  rw [printString_append, readFields]
  simp only [readString_printed, bind, Except.bind, hcolon, hvalue, hrest]
  rfl

theorem readFields_more {sofar : List (Wording × Json)}
    (hvalue : readValue fuel (skipGap text) = .ok (value, rest)) (hrest : skipGap rest = ',' :: tail) :
    readFields (fuel + 1) sofar (printString name ++ ':' :: text) =
      readFields fuel (setField sofar (.whole name) value) (skipGap tail) := by
  have hcolon : skipGap (':' :: text) = ':' :: text := rfl
  rw [printString_append, readFields]
  simp only [readString_printed, bind, Except.bind, hcolon, hvalue, hrest]

theorem setField_of_not_mem {name : Wording} {fields : List (Wording × Json)} (h : name ∉ fields.map (·.1)) :
    setField fields name value = fields ++ [(name, value)] := by
  have hnone : fields.any (fun field => field.1 == name) = false := by
    rw [List.any_eq_false]
    intro field hfield heq
    exact h (List.mem_map.mpr ⟨field, hfield, beq_iff_eq.mp heq⟩)
  rw [setField, hnone]
  rfl

/-- A number is read wherever it stands as it is read alone. -/
theorem readValue_number {number : Json} (hprint : ∀ depth, printAt depth number = text)
    (hnumeral : ∀ c ∈ text, isNumeral c = true) (hread : ∃ again, read (print number) = .ok again)
    (htail : Delimited tail) :
    readValue (fuel + 1) (printAt depth number ++ tail) = .ok (rereadNumber number, tail) := by
  obtain ⟨again, hagain⟩ := hread
  have hchars : readChars text = .ok again := by
    rw [read, print, String.toList_ofList, hprint] at hagain
    exact hagain
  rw [hprint, rereadNumber, hagain]
  exact readValue_of_readChars hnumeral htail hchars

/-! ## Reading what has been printed -/

/-- A printed value is read as it is read alone, whatever comes after it. -/
def ReadsBack (value : Json) : Prop :=
  ∀ ⦃depth fuel : Nat⦄ ⦃tail : List Char⦄, Delimited tail → (printAt depth value).length < fuel →
    readValue fuel (printAt depth value ++ tail) = .ok (reread value, tail)

/-- The loop over the items of a list reads what is left of them up to the end of the list. -/
theorem readItems_printed (hlegible : ∀ other ∈ item :: items, Legible other)
    (hitems : ∀ other ∈ item :: items, ReadsBack other) (sofar : List Json)
    (hfuel : (printAt depth item ++ printItems depth items).length + 1 < fuel) :
    readItems fuel sofar
        (printAt depth item ++ (printItems depth items ++ (newline outer ++ ']' :: tail))) =
      .ok (sofar.reverse ++ (item :: items).map reread, tail) := by
  induction items generalizing item fuel sofar with
  | nil =>
      obtain ⟨fuel, rfl⟩ : ∃ n, fuel = n + 1 := ⟨fuel - 1, by omega⟩
      rw [List.length_append] at hfuel
      have hitem : readValue fuel (printAt depth item ++ (newline outer ++ ']' :: tail)) =
          .ok (reread item, newline outer ++ ']' :: tail) :=
        hitems item List.mem_cons_self (delimited_newline _) (by omega)
      rw [printItems, List.nil_append, readItems_last hitem (skipGap_closing (by decide) tail)]
      simp
  | cons next items ih =>
      obtain ⟨fuel, rfl⟩ : ∃ n, fuel = n + 1 := ⟨fuel - 1, by omega⟩
      have hroom : (printAt depth next ++ printItems depth items).length + 1 < fuel := by
        simp only [printItems, List.length_append, List.length_cons] at hfuel ⊢
        omega
      rw [List.length_append] at hfuel
      have hrest : Delimited (printItems depth (next :: items) ++ (newline outer ++ ']' :: tail)) :=
        delimited_items (delimited_newline _) _
      have hitem : readValue fuel (printAt depth item ++
          (printItems depth (next :: items) ++ (newline outer ++ ']' :: tail))) =
          .ok (reread item, printItems depth (next :: items) ++ (newline outer ++ ']' :: tail)) :=
        hitems item List.mem_cons_self hrest (by omega)
      have hlegible' : ∀ other ∈ next :: items, Legible other := fun other hother =>
        hlegible other (List.mem_cons_of_mem _ hother)
      have hitems' : ∀ other ∈ next :: items, ReadsBack other := fun other hother =>
        hitems other (List.mem_cons_of_mem _ hother)
      rw [readItems_more hitem (skipGap_printItems_cons next items _), skipGap_newline,
        skipGap_printAt (hlegible' next List.mem_cons_self), ih hlegible' hitems' _ hroom]
      simp

/-- A value is read after the blank that follows its colon. -/
theorem readValue_after_blank (hlegible : Legible value) (hvalue : ReadsBack value)
    (htail : Delimited tail) (hfuel : (printAt depth value).length < fuel) :
    readValue fuel (skipGap (' ' :: (printAt depth value ++ tail))) = .ok (reread value, tail) := by
  have hstart : skipGap (' ' :: (printAt depth value ++ tail)) = printAt depth value ++ tail :=
    skipGap_printAt hlegible tail
  rw [hstart]
  exact hvalue htail hfuel

/-- Of fields with different names the next one is put behind those that have been read. -/
theorem setField_of_nodup {sofar : List (String × Json)} {read : Json}
    (hnames : ((sofar ++ (name, value) :: fields).map (·.1)).Nodup) :
    setField (sofar.map wholeField) (.whole name) read = (sofar ++ [(name, read)]).map wholeField := by
  have hnew : .whole name ∉ (sofar.map wholeField).map (·.1) := by
    intro hname
    rw [List.map_map, List.mem_map] at hname
    obtain ⟨field, hfield, heq⟩ := hname
    rw [List.map_append, List.nodup_append] at hnames
    exact hnames.2.2 field.1 (List.mem_map_of_mem hfield) name (by simp) (Wording.whole.inj heq)
  rw [setField_of_not_mem hnew, List.map_append]
  rfl

/-- The loop over the fields of an object reads what is left of them up to the end of the object. -/
theorem readFields_printed {sofar : List (String × Json)}
    (hnames : ((sofar ++ (name, value) :: fields).map (·.1)).Nodup)
    (hlegible : ∀ field ∈ (name, value) :: fields, Legible field.2)
    (hfields : ∀ field ∈ (name, value) :: fields, ReadsBack field.2)
    (hfuel : (printString name ++ (printAt depth value ++ printFields depth fields)).length + 1 < fuel) :
    readFields fuel (sofar.map wholeField) (printString name ++ ':' :: ' ' :: (printAt depth value ++
        (printFields depth fields ++ (newline outer ++ '\x7d' :: tail)))) =
      .ok ((sofar ++ ((name, value) :: fields).map fun field => (field.1, reread field.2)).map wholeField,
        tail) := by
  induction fields generalizing name value fuel sofar with
  | nil =>
      obtain ⟨fuel, rfl⟩ : ∃ n, fuel = n + 1 := ⟨fuel - 1, by omega⟩
      simp only [List.length_append] at hfuel
      have hlength : (printAt depth value).length < fuel := by omega
      have hend : Delimited (newline outer ++ '\x7d' :: tail) := delimited_newline _
      have hvalue := readValue_after_blank (hlegible _ List.mem_cons_self)
        (hfields _ List.mem_cons_self) hend hlength
      rw [printFields, List.nil_append, readFields_last hvalue (skipGap_closing (by decide) tail),
        setField_of_nodup hnames]
      simp
  | cons next fields ih =>
      obtain ⟨nextName, nextValue⟩ := next
      obtain ⟨fuel, rfl⟩ : ∃ n, fuel = n + 1 := ⟨fuel - 1, by omega⟩
      have hroom : (printString nextName ++ (printAt depth nextValue ++
          printFields depth fields)).length + 1 < fuel := by
        simp only [printFields, List.length_append, List.length_cons] at hfuel ⊢
        omega
      simp only [List.length_append] at hfuel
      have hrest : Delimited (printFields depth ((nextName, nextValue) :: fields) ++
          (newline outer ++ '\x7d' :: tail)) := delimited_fields (delimited_newline _) _
      have hlength : (printAt depth value).length < fuel := by omega
      have hvalue := readValue_after_blank (hlegible _ List.mem_cons_self)
        (hfields _ List.mem_cons_self) hrest hlength
      have hquote : ∀ text, skipGap (printString nextName ++ text) = printString nextName ++ text :=
        fun text => rfl
      have hnames' : (((sofar ++ [(name, reread value)]) ++ (nextName, nextValue) :: fields).map
          (·.1)).Nodup := by simpa using hnames
      have hlegible' : ∀ field ∈ (nextName, nextValue) :: fields, Legible field.2 := fun field hfield =>
        hlegible field (List.mem_cons_of_mem _ hfield)
      have hfields' : ∀ field ∈ (nextName, nextValue) :: fields, ReadsBack field.2 := fun field hfield =>
        hfields field (List.mem_cons_of_mem _ hfield)
      rw [readFields_more hvalue (skipGap_printFields_cons nextName nextValue fields _),
        setField_of_nodup hnames, skipGap_newline, hquote, ih hnames' hlegible' hfields' hroom]
      simp

theorem readsBack_array (hlegible : ∀ item ∈ items, Legible item)
    (hitems : ∀ item ∈ items, ReadsBack item) : ReadsBack (array items) := by
  intro depth fuel tail _ hfuel
  obtain ⟨fuel, rfl⟩ : ∃ n, fuel = n + 1 := ⟨fuel - 1, by omega⟩
  rcases items with _ | ⟨item, items⟩
  · rfl
  · have hitem : Legible item := hlegible item List.mem_cons_self
    obtain ⟨c, text, hstart, -, hc, -⟩ : ∃ c rest, printAt (depth + 1) item = c :: rest ∧
        isGap c = false ∧ c ≠ ']' ∧ c ≠ Char.ofNat 0xfeff := exists_printAt_eq_cons hitem
    have hroom : (printAt (depth + 1) item ++ printItems (depth + 1) items).length + 1 < fuel := by
      simp only [printAt, newline, List.length_append, List.length_cons] at hfuel ⊢
      omega
    have hread : readItems fuel [] (printAt (depth + 1) item ++
        (printItems (depth + 1) items ++ (newline depth ++ ']' :: tail))) =
        .ok ([].reverse ++ (item :: items).map reread, tail) :=
      readItems_printed hlegible hitems [] hroom
    have hprint : printAt depth (array (item :: items)) ++ tail =
        '[' :: (newline (depth + 1) ++ (printAt (depth + 1) item ++
          (printItems (depth + 1) items ++ (newline depth ++ ']' :: tail)))) := by
      simp [printAt]
    rw [hstart] at hread
    rw [hprint, reread, rereadItems_eq_map]
    refine readValue_array ?_ hc hread
    rw [skipGap_newline, skipGap_printAt hitem, hstart]
    rfl

theorem readsBack_object (hnames : (fields.map (·.1)).Nodup)
    (hlegible : ∀ field ∈ fields, Legible field.2)
    (hfields : ∀ field ∈ fields, ReadsBack field.2) : ReadsBack (object fields) := by
  intro depth fuel tail _ hfuel
  obtain ⟨fuel, rfl⟩ : ∃ n, fuel = n + 1 := ⟨fuel - 1, by omega⟩
  rcases fields with _ | ⟨⟨name, value⟩, fields⟩
  · rfl
  · have hroom : (printString name ++ (printAt (depth + 1) value ++
        printFields (depth + 1) fields)).length + 1 < fuel := by
      simp only [printAt, newline, List.length_append, List.length_cons] at hfuel ⊢
      omega
    have hdistinct : ((([] : List (String × Json)) ++ (name, value) :: fields).map (·.1)).Nodup := hnames
    have hread : readFields fuel [] (printString name ++ ':' :: ' ' :: (printAt (depth + 1) value ++
        (printFields (depth + 1) fields ++ (newline depth ++ '\x7d' :: tail)))) =
        .ok ((((name, value) :: fields).map fun field => (field.1, reread field.2)).map wholeField, tail) :=
      readFields_printed hdistinct hlegible hfields hroom
    have hprint : printAt depth (object ((name, value) :: fields)) ++ tail =
        '\x7b' :: (newline (depth + 1) ++ (printString name ++ ':' :: ' ' ::
          (printAt (depth + 1) value ++
            (printFields (depth + 1) fields ++ (newline depth ++ '\x7d' :: tail))))) := by
      simp [printAt]
    have hquote : ∀ text, printString name ++ text =
        '"' :: (name.toList.flatMap escapeChar ++ '"' :: text) := printString_append name
    rw [hquote] at hread
    rw [hprint, reread, rereadFields_eq_map]
    refine readValue_object ?_ (by decide) hread
    rw [skipGap_newline, hquote]
    rfl

/-- A value without parts needs no more than a single round. -/
theorem readsBack_leaf (h : ∀ depth fuel tail, Delimited tail →
    readValue (fuel + 1) (printAt depth value ++ tail) = .ok (reread value, tail)) :
    ReadsBack value := by
  intro depth fuel tail htail hfuel
  obtain ⟨fuel, rfl⟩ : ∃ n, fuel = n + 1 := ⟨fuel - 1, by omega⟩
  exact h depth fuel tail htail

/-- Every legible value is read back. -/
theorem Legible.readsBack (value : Json) (hvalue : Legible value) : ReadsBack value := by
  induction value with
  | null => exact readsBack_leaf fun _ _ _ _ => rfl
  | bool value =>
      cases value with
      | true => exact readsBack_leaf fun _ _ _ _ => rfl
      | false => exact readsBack_leaf fun _ _ _ _ => rfl
  | int value =>
      exact readsBack_leaf fun _ _ _ htail =>
        readValue_number (fun _ => rfl) (fun _ => isNumeral_of_mem_integer) hvalue htail
  | float value =>
      exact readsBack_leaf fun _ _ _ htail =>
        readValue_number (fun _ => rfl) (fun _ => isNumeral_of_mem_printFloat) hvalue htail
  | string value => exact readsBack_leaf fun _ _ tail _ => readValue_string value tail
  | halved value => cases hvalue
  | array items ih =>
      have hlegible : ∀ item ∈ items, Legible item := legibleItems_iff.mp hvalue
      exact readsBack_array hlegible fun item hitem => ih item hitem (hlegible item hitem)
  | object fields ih =>
      have hlegible : ∀ field ∈ fields, Legible field.2 := legibleFields_iff.mp hvalue.2
      exact readsBack_object hvalue.1 hlegible fun field hfield => ih field hfield (hlegible field hfield)
  | halvedObject fields _ => cases hvalue

/-- The text of a legible value is read back as the value. -/
theorem readChars_print (hvalue : Legible value) : readChars (printAt 0 value) = .ok (reread value) := by
  obtain ⟨c, rest, hprint, hgap, -, hmark⟩ : ∃ c rest, printAt 0 value = c :: rest ∧
      isGap c = false ∧ c ≠ ']' ∧ c ≠ Char.ofNat 0xfeff := exists_printAt_eq_cons hvalue
  have hend : Delimited [] := fun c hc => by cases hc
  have hfuel : (printAt 0 value).length < 2 * (printAt 0 value).length + 2 := by omega
  have hread := hvalue.readsBack value hend hfuel
  rw [List.append_nil, hprint] at hread
  have hhead : (c == Char.ofNat 0xfeff) = false := beq_false_of_ne hmark
  rw [hprint, readChars, skipGap_of_not_isGap hgap, hread]
  simp only [List.head?_cons, Option.some_beq_some, hhead]
  rfl

/-! ## The characters of a document -/

/-- A character that is printed: a line feed, or a visible one. -/
def Printed (c : Char) : Prop :=
  c = '\n' ∨ Visible c

theorem printed_of_mem_newline {c : Char} (h : c ∈ newline depth) : Printed c := by
  rcases List.mem_cons.mp h with rfl | hblank
  · exact .inl rfl
  · rw [List.eq_of_mem_replicate hblank]
    exact .inr (by decide)

/-- What is printed for a list, apart from the brackets around it, is printed for its items. -/
theorem printed_or_mem_of_mem_printItems {c : Char} (h : c ∈ printItems depth items) :
    Printed c ∨ ∃ item ∈ items, c ∈ printAt depth item := by
  induction items with
  | nil => cases h
  | cons item items ih =>
      simp only [printItems, List.cons_append, List.mem_cons, List.mem_append] at h
      rcases h with rfl | (hnewline | hitem) | hitems
      · exact .inl (.inr (by decide))
      · exact .inl (printed_of_mem_newline hnewline)
      · exact .inr ⟨item, List.mem_cons_self, hitem⟩
      · rcases ih hitems with hprinted | ⟨other, hother, hmem⟩
        · exact .inl hprinted
        · exact .inr ⟨other, List.mem_cons_of_mem _ hother, hmem⟩

theorem visible_of_mem_printName {c : Char} {name : Wording} (h : c ∈ printName name) : Visible c := by
  cases name with
  | whole name => exact visible_of_mem_printString h
  | halved name => exact visible_of_mem_printHalved h

theorem printed_or_mem_of_mem_printHalvedFields {c : Char} {fields : List (Wording × Json)}
    (h : c ∈ printHalvedFields depth fields) : Printed c ∨ ∃ field ∈ fields, c ∈ printAt depth field.2 := by
  induction fields with
  | nil => cases h
  | cons field fields ih =>
      obtain ⟨name, value⟩ := field
      simp only [printHalvedFields, List.cons_append, List.mem_cons, List.mem_append] at h
      rcases h with rfl | ((hnewline | hname) | rfl | rfl | hvalue) | hfields
      · exact .inl (.inr (by decide))
      · exact .inl (printed_of_mem_newline hnewline)
      · exact .inl (.inr (visible_of_mem_printName hname))
      · exact .inl (.inr (by decide))
      · exact .inl (.inr (by decide))
      · exact .inr ⟨(name, value), List.mem_cons_self, hvalue⟩
      · rcases ih hfields with hprinted | ⟨other, hother, hmem⟩
        · exact .inl hprinted
        · exact .inr ⟨other, List.mem_cons_of_mem _ hother, hmem⟩

/-- An object is printed in the same way whichever of its forms it has. -/
theorem printAt_halvedObject_map (depth : Nat) (fields : List (String × Json)) :
    printAt depth (halvedObject (fields.map wholeField)) = printAt depth (object fields) := by
  have hfields : ∀ fields, printHalvedFields (depth + 1) (fields.map wholeField) =
      printFields (depth + 1) fields := by
    intro fields
    induction fields with
    | nil => rfl
    | cons field fields ih =>
        rw [List.map_cons, wholeField, printHalvedFields, ih, printName, printFields]
  cases fields with
  | nil => rfl
  | cons field fields =>
      obtain ⟨name, value⟩ := field
      rw [List.map_cons, printAt, ← hfields]
      rfl

theorem printed_or_mem_of_mem_array {c : Char} (h : c ∈ printAt depth (array items)) :
    Printed c ∨ ∃ item ∈ items, c ∈ printAt (depth + 1) item := by
  rcases items with _ | ⟨item, items⟩
  · have hbrackets : ∀ c ∈ ['[', ']'], Visible c := Text.forall_mem_of_all (by decide)
    exact .inl (.inr (hbrackets c h))
  · -- the first item is printed like those after it, but without a comma
    have hitems : printAt depth (array (item :: items)) =
        '[' :: ((printItems (depth + 1) (item :: items)).tail ++ newline depth ++ [']']) := by
      simp [printAt, printItems]
    rw [hitems] at h
    simp only [List.mem_cons, List.mem_append, List.not_mem_nil, or_false] at h
    rcases h with rfl | (hmem | hnewline) | rfl
    · exact .inl (.inr (by decide))
    · exact printed_or_mem_of_mem_printItems (List.mem_of_mem_tail hmem)
    · exact .inl (printed_of_mem_newline hnewline)
    · exact .inl (.inr (by decide))

theorem printed_or_mem_of_mem_halvedObject {c : Char} {fields : List (Wording × Json)}
    (h : c ∈ printAt depth (halvedObject fields)) :
    Printed c ∨ ∃ field ∈ fields, c ∈ printAt (depth + 1) field.2 := by
  rcases fields with _ | ⟨⟨name, value⟩, fields⟩
  · have hbraces : ∀ c ∈ ['\x7b', '\x7d'], Visible c := Text.forall_mem_of_all (by decide)
    exact .inl (.inr (hbraces c h))
  · -- the first field is printed like those after it, but without a comma
    have hfields : printAt depth (halvedObject ((name, value) :: fields)) =
        '\x7b' :: ((printHalvedFields (depth + 1) ((name, value) :: fields)).tail ++ newline depth ++
          ['\x7d']) := by simp [printAt, printHalvedFields]
    rw [hfields] at h
    simp only [List.mem_cons, List.mem_append, List.not_mem_nil, or_false] at h
    rcases h with rfl | (hmem | hnewline) | rfl
    · exact .inl (.inr (by decide))
    · exact printed_or_mem_of_mem_printHalvedFields (List.mem_of_mem_tail hmem)
    · exact .inl (printed_of_mem_newline hnewline)
    · exact .inl (.inr (by decide))

/-- Everything that is printed is ASCII, and the only line ends are line feeds. -/
theorem printed_of_mem_printAt {c : Char} (value : Json) (depth : Nat) (h : c ∈ printAt depth value) :
    Printed c := by
  induction value generalizing depth with
  | null =>
      exact .inr (Text.forall_mem_of_all (by decide : ("null".toList.all fun c => decide (Visible c)) = true) c h)
  | bool value =>
      cases value with
      | true =>
          exact .inr (Text.forall_mem_of_all (by decide : ("true".toList.all fun c => decide (Visible c)) = true) c h)
      | false =>
          exact .inr (Text.forall_mem_of_all (by decide : ("false".toList.all fun c => decide (Visible c)) = true) c h)
  | int value => exact .inr (visible_of_isNumeral (isNumeral_of_mem_integer h))
  | float value => exact .inr (visible_of_isNumeral (isNumeral_of_mem_printFloat h))
  | string value => exact .inr (visible_of_mem_printString h)
  | halved value => exact .inr (visible_of_mem_printHalved h)
  | array items ih =>
      rcases printed_or_mem_of_mem_array h with hprinted | ⟨item, hitem, hmem⟩
      · exact hprinted
      · exact ih item hitem (depth + 1) hmem
  | object fields ih =>
      rw [← printAt_halvedObject_map] at h
      rcases printed_or_mem_of_mem_halvedObject h with hprinted | ⟨field, hfield, hmem⟩
      · exact hprinted
      · obtain ⟨original, horiginal, rfl⟩ := List.mem_map.mp hfield
        exact ih original horiginal (depth + 1) hmem
  | halvedObject fields ih =>
      rcases printed_or_mem_of_mem_halvedObject h with hprinted | ⟨field, hfield, hmem⟩
      · exact hprinted
      · exact ih field hfield (depth + 1) hmem

end ChangeImpact.Json
