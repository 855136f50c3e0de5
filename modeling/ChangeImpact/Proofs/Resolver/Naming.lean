import ChangeImpact.Proofs.Path.Canonical
import ChangeImpact.Proofs.Resolver.Outcomes

/-!
# Naming a file as it is spelled

Every known file can be named from every other one without an alias and without leaving anything to be guessed:
by the way that leads by the root, or by its path from the root after a slash.  Either name means the path of the
file itself, so the file is the first candidate for it and is found before any extension or index file is tried
(`resolve_of_key`).

What follows a mark of a query or a fragment is dropped, so there must be no such mark in the path of the file.
Those in the path of the importing file do no harm, as that file is not named.
-/

namespace ChangeImpact.Resolver

variable {files extensions : List String} {aliases : Aliases} {specifier importer file : String}
  {path base : List Char}

/-! ## Names that mean a path as it is spelled -/

theorem withoutQuery_eq_self {text : List Char} (hquery : '?' ∉ text) (hfragment : '#' ∉ text) :
    withoutQuery text = text := by
  have hkept : text <+: withoutQuery text := prefix_withoutQuery_iff.mpr ⟨List.prefix_rfl, hquery, hfragment⟩
  have hcut : withoutQuery text <+: text := List.takeWhile_prefix _
  exact hcut.eq_of_length_le hkept.length_le

theorem leadsOut_eq_false (h : Path.Canonical base) : leadsOut base = false := by
  have hne : base ≠ Path.above := by
    rintro rfl
    exact (h.plain Path.above (by decide)).2.2 rfl
  rw [leadsOut, Path.not_isPrefixOf_above h.plain, Bool.or_false, beq_eq_false_iff_ne]
  exact hne

/-- A known file whose path is the key that a name means is the first candidate. -/
theorem resolve_of_key (hpath : ¬ Bare specifier.toList)
    (hjoined : (ofFiles files extensions aliases).joined (withoutQuery specifier.toList) importer = .ok path)
    (hkey : Path.keyChars none path = file.toList) (hfile : Path.Canonical file.toList) (hknown : file ∈ files) :
    (ofFiles files extensions aliases).resolve specifier importer = .ok (some file) := by
  have hne : specifier ≠ "" := by
    rintro rfl
    exact hpath ⟨nofun, nofun⟩
  have hinside : (ofFiles files extensions aliases).isExternal specifier = false := by
    rw [← Bool.not_eq_true, isExternal_iff]
    exact fun hexternal => hpath hexternal.1
  have hbase : (ofFiles files extensions aliases).base? specifier importer = .ok (some file.toList) := by
    rw [base?_of_inside hne hinside, hjoined, Except.map, hkey, leadsOut_eq_false hfile]
    rfl
  -- the file itself stands before the paths with extensions and the index files
  have hfirst : plainCandidates extensions file.toList = file :: (plainCandidates extensions file.toList).tail := by
    rw [plainCandidates, if_neg (by simpa using hfile.ne_nil), String.ofList_toList]
    rfl
  rw [resolve_ofFiles, ← base?_ofFiles files, hbase, Except.map, Option.bind_some, hfirst]
  exact congrArg Except.ok (List.find?_cons_of_pos (decide_eq_true hknown))

/-! ## Naming every file from every other one -/

/-- The name of a file in another one, by the root of both. -/
def nameByRoot (importer file : String) : String :=
  "./" ++ String.join (List.replicate (importer.toList.count '/') "../") ++ file

theorem toList_nameByRoot (importer file : String) :
    (nameByRoot importer file).toList = Path.pathByRoot importer.toList file.toList := by
  have hsteps : ∀ count, (String.join (List.replicate count "../")).toList = Path.stepsUp count := by
    intro count
    induction count with
    | zero => rfl
    | succ count ih =>
        rw [List.replicate_succ, String.join_cons, String.toList_append, ih]
        rfl
  rw [nameByRoot, String.toList_append, String.toList_append, hsteps, List.append_assoc]
  rfl

theorem resolve_nameByRoot (himporter : Path.Canonical importer.toList) (hfile : Path.Canonical file.toList)
    (hquery : '?' ∉ file.toList) (hfragment : '#' ∉ file.toList) (hknown : file ∈ files) :
    (ofFiles files extensions aliases).resolve (nameByRoot importer file) importer = .ok (some file) := by
  have htext := toList_nameByRoot importer file
  have hkept : withoutQuery (nameByRoot importer file).toList = Path.pathByRoot importer.toList file.toList := by
    rw [htext]
    apply withoutQuery_eq_self
    · intro hmem
      exact absurd (Path.mem_pathByRoot hmem) (by simp [hquery])
    · intro hmem
      exact absurd (Path.mem_pathByRoot hmem) (by simp [hfragment])
  refine resolve_of_key ?_ ?_ (Path.keyChars_join_pathByRoot himporter hfile) hfile hknown
  · rw [htext]
    exact fun hbare => hbare.1 rfl
  · have hstart : (ofFiles files extensions aliases).joined (Path.pathByRoot importer.toList file.toList) importer =
        .ok (Path.join (Path.directory (Path.keyChars none importer.toList))
          (Path.pathByRoot importer.toList file.toList)) := rfl
    rw [hkept, hstart, himporter.keyChars_eq none]

theorem resolve_slash (hfile : Path.Canonical file.toList) (hquery : '?' ∉ file.toList)
    (hfragment : '#' ∉ file.toList) (hknown : file ∈ files) :
    (ofFiles files extensions aliases).resolve ("/" ++ file) importer = .ok (some file) := by
  have htext : ("/" ++ file).toList = '/' :: file.toList := String.toList_append
  have hkept : withoutQuery ("/" ++ file).toList = '/' :: file.toList := by
    rw [htext]
    exact withoutQuery_eq_self (by simp [hquery]) (by simp [hfragment])
  refine resolve_of_key ?_ ?_ (hfile.keyChars_eq none) hfile hknown
  · rw [htext]
    exact fun hbare => hbare.2 rfl
  · have hhead : file.toList.head? ≠ some '/' := by simpa [Path.isAbsolute] using hfile.relative
    have hrest : ('/' :: file.toList).dropWhile (· == '/') = file.toList := by
      rw [List.dropWhile_cons, if_pos (beq_self_eq_true '/'), List.dropWhile_beq_eq_self_of_head?_ne hhead]
    rw [hkept]
    exact congrArg Except.ok hrest

/-- For all files, extensions and aliases, and every known file with a canonical path without query and fragment
marks, whatever else is known:

* its name by the root resolves to it in every file with a canonical path;
* and so does its path after a slash. -/
theorem resolve_literal (files extensions : List String) (aliases : Aliases) {importer file : String}
    (himporter : Path.Canonical importer.toList) (hfile : Path.Canonical file.toList)
    (hquery : '?' ∉ file.toList) (hfragment : '#' ∉ file.toList) (hknown : file ∈ files) :
    (ofFiles files extensions aliases).resolve (nameByRoot importer file) importer = .ok (some file) ∧
      (ofFiles files extensions aliases).resolve ("/" ++ file) importer = .ok (some file) :=
  ⟨resolve_nameByRoot himporter hfile hquery hfragment hknown, resolve_slash hfile hquery hfragment hknown⟩

/-- A file in another directory is named, where a file with one more extension and an index file in a directory of
its name are known too, and an alias stands for the start of each name. -/
theorem resolve_literal_beside_other_candidates :
    let resolver := ofFiles ["src/c.js/index.ts", "src/c.js.ts", "src/c.js"] defaultExtensions
      [("/", "lib/"), ("./", "lib/")]
    resolver.resolve "./../../src/c.js" "src/lib/a.ts" = .ok (some "src/c.js") ∧
      resolver.resolve "/src/c.js" "src/lib/a.ts" = .ok (some "src/c.js") := by
  have hname : nameByRoot "src/lib/a.ts" "src/c.js" = "./../../src/c.js" := by decide
  rw [← hname]
  exact resolve_literal _ _ _ (by decide) (by decide) (by decide) (by decide) (by decide)

end ChangeImpact.Resolver
