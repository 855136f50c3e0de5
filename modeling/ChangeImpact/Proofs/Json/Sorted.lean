import ChangeImpact.Proofs.Json.Rereading

/-!
# Documents with sorted fields

A document is written with the fields of every object sorted by their names, so it is not the document
itself that is read back.  Whoever looks up fields by their names does not notice (`restored_object`):
sorting moves the fields of an object about, and where their names are distinct a look-up does not depend
on their order.
-/

namespace ChangeImpact.Json

variable {fields first second : List (String × Json)} {items : List Json} {name : String} {value : Json}

/-- The value that is read where a value has been written, its fields sorted. -/
def restored (value : Json) : Json :=
  reread (sorted value)

/-! ## Looking up fields -/

theorem field?_eq_some_iff (hnames : (fields.map (·.1)).Nodup) :
    field? fields name = some value ↔ (name, value) ∈ fields := by
  induction fields with
  | nil => simp [field?]
  | cons field fields ih =>
      obtain ⟨other, held⟩ := field
      rw [List.map_cons, List.nodup_cons] at hnames
      by_cases heq : other = name
      · subst heq
        have hnot : ∀ value, (other, value) ∉ fields := fun value hmem =>
          hnames.1 (List.mem_map.mpr ⟨_, hmem, rfl⟩)
        simp [field?, hnot, eq_comm]
      · have hfind : field? ((other, held) :: fields) name = field? fields name := by
          simp [field?, heq]
        rw [hfind, ih hnames.2, List.mem_cons, Prod.mk.injEq]
        simp [Ne.symm heq]

theorem field?_of_perm (hnames : (first.map (·.1)).Nodup) (hperm : first.Perm second) (name : String) :
    field? first name = field? second name := by
  have hnames' : (second.map (·.1)).Nodup := (hperm.map _).nodup_iff.mp hnames
  refine Option.ext fun value => ?_
  rw [field?_eq_some_iff hnames, field?_eq_some_iff hnames', hperm.mem_iff]

theorem field?_map (change : Json → Json) (fields : List (String × Json)) (name : String) :
    field? (fields.map fun field => (field.1, change field.2)) name =
      (field? fields name).map change := by
  induction fields with
  | nil => rfl
  | cons field fields ih =>
      by_cases heq : field.1 = name
      · simp [field?, heq]
      · simpa [field?, heq] using ih

/-! ## Sorting -/

theorem sortedItems_eq_map (items : List Json) : sortedItems items = items.map sorted := by
  induction items with
  | nil => rfl
  | cons item items ih => rw [sortedItems, ih, List.map_cons]

theorem sortedFields_eq_map (fields : List (String × Json)) :
    sortedFields fields = fields.map fun field => (field.1, sorted field.2) := by
  induction fields with
  | nil => rfl
  | cons field fields ih => rw [sortedFields, ih, List.map_cons]

theorem map_fst_sortedFields (fields : List (String × Json)) :
    (sortedFields fields).map (·.1) = fields.map (·.1) := by
  rw [sortedFields_eq_map, List.map_map]
  rfl

/-- A legible value is legible with its fields sorted. -/
theorem Legible.sorted (value : Json) (h : Legible value) : Legible (sorted value) := by
  induction value with
  | null => exact h
  | bool value => exact h
  | int value => exact h
  | float value => exact h
  | string value => exact h
  | halved value => cases h
  | array items ih =>
      have hitems : ∀ item ∈ items, Legible item := legibleItems_iff.mp h
      rw [Json.sorted, Legible, legibleItems_iff, sortedItems_eq_map]
      intro item hitem
      obtain ⟨original, horiginal, rfl⟩ := List.mem_map.mp hitem
      exact ih original horiginal (hitems original horiginal)
  | object fields ih =>
      have hfields : ∀ field ∈ fields, Legible field.2 := legibleFields_iff.mp h.2
      have hperm := List.mergeSort_perm (sortedFields fields) fun first second => first.1 ≤ second.1
      rw [Json.sorted, Legible, legibleFields_iff]
      constructor
      · rw [(hperm.map _).nodup_iff, map_fst_sortedFields]
        exact h.1
      · intro field hfield
        rw [hperm.mem_iff, sortedFields_eq_map] at hfield
        obtain ⟨original, horiginal, rfl⟩ := List.mem_map.mp hfield
        exact ih original horiginal (hfields original horiginal)
  | halvedObject fields _ => cases h

/-! ## What is restored -/

@[simp] theorem restored_null : restored null = null := rfl

@[simp] theorem restored_string (s : String) : restored (string s) = string s := rfl

theorem restored_int (n : Int) : restored (int n) = rereadNumber (int n) := rfl

theorem restored_float (x : Binary64) : restored (float x) = rereadNumber (float x) := rfl

theorem restored_array (items : List Json) : restored (array items) = array (items.map restored) := by
  rw [restored, sorted, reread, rereadItems_eq_map, sortedItems_eq_map, List.map_map]
  rfl

/-- The fields of a restored object are found by their names. -/
theorem restored_object (hnames : (fields.map (·.1)).Nodup) :
    ∃ found, restored (object fields) = object found ∧
      ∀ name, field? found name = (field? fields name).map restored := by
  refine ⟨_, rfl, fun name => ?_⟩
  have hperm := List.mergeSort_perm (sortedFields fields) fun first second => first.1 ≤ second.1
  rw [← map_fst_sortedFields] at hnames
  rw [rereadFields_eq_map, field?_map, field?_of_perm ((hperm.map _).nodup_iff.mpr hnames) hperm,
    sortedFields_eq_map, field?_map, Option.map_map]
  rfl

/-- A legible value that has been written with its fields sorted is restored. -/
theorem readChars_printSorted (h : Legible value) :
    readChars (printSorted value).toList = .ok (restored value) := by
  rw [printSorted, print, String.toList_ofList]
  exact readChars_print (Legible.sorted value h)

end ChangeImpact.Json
