import ChangeImpact.Proofs.Collections.Table
import ChangeImpact.Proofs.Text.Blank
import ChangeImpact.Settings.Basic

/-!
# Aliases written as a text

A text of aliases is cut at its commas, each piece is stripped and cut at its first equals sign, and pieces without
such a sign are passed over.  So however aliases are written down, with blanks around them and around their equals
signs and with anything that is no alias between them, they are read as a table of their starts and their directories:
a start stands where it came first, and has the directory with which it came last (`parseAliases_of_pieces`).
-/

namespace ChangeImpact

/-- Giving a variable a value is inserting it into a table. -/
theorem EnvironmentFile.assign_entries {ν : Type} (table : Table ν) (name : String) (value : ν) :
    assign table.entries name value = (table.insert name value).entries := by
  have hany : table.entries.any (·.1 == name) = table.contains name := rfl
  unfold assign Table.insert
  rw [hany]
  by_cases hname : name ∈ table
  · rw [dif_pos hname, if_pos (Table.contains_iff.mpr hname)]
    refine List.map_congr_left fun entry _ => ?_
    by_cases hentry : entry.1 = name
    · simp [hentry]
    · simp [hentry]
  · rw [dif_neg hname, if_neg (fun hcontains => hname (Table.contains_iff.mp hcontains))]

namespace Settings

variable {piece front : List Char}

/-! ## Pieces between commas -/

/-- The alias that stands between two commas, if there is an equals sign. -/
def aliasIn? (piece : List Char) : Option (String × String) :=
  match (Text.strip piece).span (· != '=') with
  | (start, _ :: target) => some (String.ofList (Text.strip start), String.ofList (Text.strip target))
  | (_, []) => none

theorem aliasIn?_of_not_mem (h : '=' ∉ piece) : aliasIn? piece = none := by
  have hspan : (Text.strip piece).span (· != '=') = (Text.strip piece, []) := by
    refine Text.span_eq_iff.mpr ⟨(List.append_nil _).symm, fun c hc => ?_, by simp⟩
    rw [bne_iff_ne]
    rintro rfl
    exact h ((Text.strip_sublist piece).mem hc)
  rw [aliasIn?, hspan]

/-- The first equals sign parts a piece, and blanks around its parts make no difference. -/
theorem aliasIn?_append (h : '=' ∉ front) (back : List Char) : aliasIn? (front ++ '=' :: back) =
    some (String.ofList (Text.strip front), String.ofList (Text.strip back)) := by
  have hfront : ∀ c ∈ Text.stripLeft front, (c != '=') = true := by
    intro c hc
    rw [bne_iff_ne]
    rintro rfl
    exact h ((List.dropWhile_sublist _).mem hc)
  rw [aliasIn?, Text.strip_append_cons (by decide), Text.span_append hfront (Text.forall_mem_head?_cons (by decide))]
  simp only [Text.strip_stripLeft, Text.strip_stripRight]

/-- The aliases of a text are those of its pieces, put into a table. -/
theorem parseAliases_eq (value : String) :
    parseAliases value = (Table.ofList ((value.toList.splitOn ',').filterMap aliasIn?)).entries := by
  rw [parseAliases, entries, List.foldl_filter, List.foldl_map, Table.ofList, List.foldl_filterMap]
  show List.foldl _ (Table.entries (∅ : Table String)) _ = _
  refine List.foldl_hom Table.entries fun table piece => ?_
  rw [aliasIn?]
  rcases hspan : (Text.strip piece).span (· != '=') with ⟨start, _ | ⟨sign, target⟩⟩
  · simp
  · have hfull : (Text.strip piece).isEmpty = false := by
      rw [List.isEmpty_eq_false_iff]
      intro hempty
      rw [hempty] at hspan
      cases hspan
    simp [hfull, EnvironmentFile.assign_entries]

/-! ## Written aliases -/

/-- An alias as it may be written, with blanks around it and around its first equals sign. -/
structure WrittenAlias where
  start : String
  target : String
  before : List Char
  beforeSign : List Char
  afterSign : List Char
  after : List Char
  blank : ∀ c ∈ before ++ beforeSign ++ (afterSign ++ after), Text.isBlank c = true
  start_plain : ',' ∉ start.toList ∧ '=' ∉ start.toList
  target_plain : ',' ∉ target.toList
  start_stripped : Text.stripString start = start
  target_stripped : Text.stripString target = target

namespace WrittenAlias

variable (written : WrittenAlias)

/-- What stands before the first equals sign. -/
def left : List Char := written.before ++ (written.start.toList ++ written.beforeSign)

/-- What stands after it. -/
def right : List Char := written.afterSign ++ (written.target.toList ++ written.after)

/-- The alias with its blanks. -/
def text : List Char := written.left ++ '=' :: written.right

variable {written} {c : Char}

theorem mem_left (h : c ∈ written.left) : Text.isBlank c = true ∨ c ∈ written.start.toList := by
  simp only [left, List.mem_append] at h
  rcases h with hbefore | hstart | hsign
  · exact .inl (written.blank c (by simp [hbefore]))
  · exact .inr hstart
  · exact .inl (written.blank c (by simp [hsign]))

theorem mem_right (h : c ∈ written.right) : Text.isBlank c = true ∨ c ∈ written.target.toList := by
  simp only [right, List.mem_append] at h
  rcases h with hsign | htarget | hafter
  · exact .inl (written.blank c (by simp [hsign]))
  · exact .inr htarget
  · exact .inl (written.blank c (by simp [hafter]))

theorem comma_not_mem_text : ',' ∉ written.text := by
  have hblank : ¬ Text.isBlank ',' = true := by decide
  rw [text, List.mem_append, List.mem_cons, not_or, not_or]
  refine ⟨fun hleft => ?_, by decide, fun hright => ?_⟩
  · exact (mem_left hleft).elim hblank written.start_plain.1
  · exact (mem_right hright).elim hblank written.target_plain

/-- Blanks do not make another alias of it. -/
theorem aliasIn?_text : aliasIn? written.text = some (written.start, written.target) := by
  have hsign : '=' ∉ written.left := fun hleft => (mem_left hleft).elim (by decide) written.start_plain.2
  have hstart : Text.strip written.left = Text.strip written.start.toList := by
    rw [left, Text.strip_blanks_append fun c hc => written.blank c (by simp [hc]),
      Text.strip_append_blanks fun c hc => written.blank c (by simp [hc])]
  have htarget : Text.strip written.right = Text.strip written.target.toList := by
    rw [right, Text.strip_blanks_append fun c hc => written.blank c (by simp [hc]),
      Text.strip_append_blanks fun c hc => written.blank c (by simp [hc])]
  have hkept : ∀ name : String, Text.stripString name = name → String.ofList (Text.strip name.toList) = name :=
    fun _ h => h
  rw [text, aliasIn?_append hsign, hstart, htarget, hkept _ written.start_stripped, hkept _ written.target_stripped]

end WrittenAlias

/-- What may stand between two commas. -/
inductive Piece where
  | entry (written : WrittenAlias)
  /-- Something without an equals sign, which may be empty or consist of blanks. -/
  | other (text : List Char) (plain : ',' ∉ text ∧ '=' ∉ text)

namespace Piece

/-- The piece as it is written. -/
def text : Piece → List Char
  | entry written => written.text
  | other text _ => text

/-- The start and the directory, if the piece is an alias. -/
def alias? : Piece → Option (String × String)
  | entry written => some (written.start, written.target)
  | other .. => none

theorem comma_not_mem (piece : Piece) : ',' ∉ piece.text := by
  cases piece with
  | entry written => exact written.comma_not_mem_text
  | other text plain => exact plain.1

theorem aliasIn?_eq (piece : Piece) : aliasIn? piece.text = piece.alias? := by
  cases piece with
  | entry written => exact written.aliasIn?_text
  | other text plain => exact aliasIn?_of_not_mem plain.2

end Piece

/-- Between the commas of a text of pieces there are the aliases of the pieces. -/
theorem filterMap_aliasIn?_splitOn (pieces : List Piece) :
    (([','].intercalate (pieces.map Piece.text)).splitOn ',').filterMap aliasIn? = pieces.filterMap Piece.alias? := by
  cases pieces with
  | nil => rfl
  | cons piece rest =>
      rw [List.splitOn_intercalate ',' ?_ (by simp), List.filterMap_map]
      · exact congrArg (List.filterMap · (piece :: rest)) (funext Piece.aliasIn?_eq)
      · intro text htext
        obtain ⟨other, -, rfl⟩ := List.mem_map.mp htext
        exact other.comma_not_mem

/-- Aliases are read back however they are written: the starts in the order in which they first come, each with the
directory with which it comes last. -/
theorem parseAliases_of_pieces (pieces : List Piece) :
    let written := pieces.filterMap Piece.alias?
    let aliases := parseAliases (",".intercalate (pieces.map fun piece => String.ofList piece.text))
    aliases.map (·.1) = (written.map (·.1)).eraseDups ∧
      ∀ start target, (start, target) ∈ aliases ↔
        ∃ earlier later, written = earlier ++ (start, target) :: later ∧ start ∉ later.map (·.1) := by
  intro written aliases
  have htext : (",".intercalate (pieces.map fun piece => String.ofList piece.text)).toList =
      [','].intercalate (pieces.map Piece.text) := by
    simp [String.toList_intercalate, Function.comp_def]
  have haliases : aliases = (Table.ofList written).entries := by
    rw [show aliases = _ from parseAliases_eq _, htext, filterMap_aliasIn?_splitOn]
  rw [haliases]
  exact ⟨Table.keys_ofList written, fun start target =>
    Table.mem_entries_iff.trans Table.get?_ofList_eq_some_iff⟩

/-- A start that comes twice keeps its place and has the later directory, in which there is an equals sign.  A start
may be empty, and what is no alias is passed over. -/
theorem parseAliases_of_pieces_with_repeated_start :
    let aliases := parseAliases " @/ = src/,broken,,=lib, @/=a=b"
    aliases.map (·.1) = ["@/", ""] ∧ ("@/", "a=b") ∈ aliases ∧ ("", "lib") ∈ aliases := by
  let first : WrittenAlias := ⟨"@/", "src/", [' '], [' '], [' '], [], Text.forall_mem_of_all (by decide), by decide,
    by decide, by decide, by decide⟩
  let empty : WrittenAlias := ⟨"", "lib", [], [], [], [], by simp, by decide, by decide, by decide, by decide⟩
  let again : WrittenAlias := ⟨"@/", "a=b", [' '], [], [], [], Text.forall_mem_of_all (by decide), by decide,
    by decide, by decide, by decide⟩
  let pieces := [Piece.entry first, .other "broken".toList (by decide), .other [] (by decide), .entry empty,
    .entry again]
  have htext : ",".intercalate (pieces.map fun piece => String.ofList piece.text) =
      " @/ = src/,broken,,=lib, @/=a=b" := by
    decide +kernel +zetaReduce
  have hwritten : pieces.filterMap Piece.alias? = [("@/", "src/"), ("", "lib"), ("@/", "a=b")] := rfl
  obtain ⟨hkeys, hmem⟩ := parseAliases_of_pieces pieces
  rw [htext, hwritten] at hkeys hmem
  exact ⟨hkeys, (hmem _ _).mpr ⟨[_, _], [], rfl, by simp⟩, (hmem _ _).mpr ⟨[_], [_], rfl, by simp⟩⟩

end Settings
end ChangeImpact
