import ChangeImpact.Proofs.Resolver.Directories

/-!
# What a module name resolves to

The set of directories only spares a resolver some look-ups: an index file that is known has its
directory among them.  So a name resolves to the first known file in a list of candidates that depends
on the name and the rules alone (`resolve_ofFiles`), and two facts follow.

* `resolve_congr`: the order in which the files are known does not matter.
* `resolve_eq_of_known_in_both`: when files come and go, a name keeps its meaning unless it meant a file
  that has gone or means one that has come.
-/

namespace ChangeImpact.Resolver

variable {files extensions : List String} {aliases : Aliases} {specifier importer : String}

/-- The files that a key may mean, whether or not there is a directory of that name. -/
def plainCandidates (extensions : List String) (base : List Char) : List String :=
  (if base.isEmpty then []
    else String.ofList base :: extensions.map fun extension =>
      String.ofList (base ++ extension.toList)) ++
    extensions.map fun extension =>
      String.ofList (Path.join base ("index" ++ extension).toList)

theorem contains_known (path : String) :
    (ofFiles files extensions aliases).known.contains path = decide (path ∈ files) := by
  show (Std.TreeSet.ofList files).contains path = _
  rw [Std.TreeSet.contains_ofList, List.contains_eq_mem]

/-- The directories do not change which candidate is found. -/
theorem find?_candidates {base : List Char} (hbase : Path.Closed base) :
    ((ofFiles files extensions aliases).candidates base).find?
        (ofFiles files extensions aliases).known.contains =
      (plainCandidates extensions base).find? fun path => decide (path ∈ files) := by
  have hknown : (ofFiles files extensions aliases).known.contains =
      fun path => decide (path ∈ files) := funext contains_known
  rw [hknown, candidates, plainCandidates, List.find?_append, List.find?_append]
  congr 1
  split
  · rfl
  · rename_i hout
    rw [Bool.or_eq_true, not_or, List.isEmpty_iff, Std.TreeSet.contains_iff_mem] at hout
    -- no index file is known, or its directory would be there
    refine (List.find?_eq_none.mpr fun path hpath hmem => ?_).symm
    obtain ⟨extension, -, rfl⟩ := List.mem_map.mp hpath
    have hhead : ("index" ++ extension).toList.head? = some 'i' := by
      rw [String.toList_append]
      rfl
    exact hout.2 (mem_directories_of_join hout.1 hbase hhead (of_decide_eq_true hmem))

theorem closed_of_base? {resolver : Resolver} {base : List Char}
    (h : resolver.base? specifier importer = .ok (some base)) : Path.Closed base := by
  unfold base? at h
  split at h
  · cases h
  · cases hjoined : resolver.joined (withoutQuery specifier.toList) importer with
    | error fault =>
        rw [hjoined] at h
        cases h
    | ok path =>
        rw [hjoined] at h
        have hkey : (if leadsOut (Path.keyChars none path) then none
            else some (Path.keyChars none path)) = some base := Except.ok.inj h
        split at hkey
        · cases hkey
        · cases hkey
          exact Path.closed_keyChars path

/-- What a name means does not depend on the files that are known. -/
theorem base?_ofFiles (files extensions : List String) (aliases : Aliases) :
    (ofFiles files extensions aliases).base? specifier importer =
      (ofFiles [] extensions aliases).base? specifier importer := rfl

/-- A name resolves to the first known file among its candidates, which are the same whatever files
are known. -/
theorem resolve_ofFiles :
    (ofFiles files extensions aliases).resolve specifier importer =
      ((ofFiles [] extensions aliases).base? specifier importer).map fun base? =>
        base?.bind fun base =>
          (plainCandidates extensions base).find? fun path => decide (path ∈ files) := by
  rw [← base?_ofFiles files, resolve]
  cases hbase : (ofFiles files extensions aliases).base? specifier importer with
  | error fault => rfl
  | ok found =>
      cases found with
      | none => rfl
      | some base =>
          show Except.ok (((ofFiles files extensions aliases).candidates base).find? _) = _
          rw [find?_candidates (closed_of_base? hbase)]
          rfl

theorem mem_of_resolve {target : String}
    (h : (ofFiles files extensions aliases).resolve specifier importer = .ok (some target)) :
    target ∈ files := by
  rw [resolve_ofFiles] at h
  cases hbase : (ofFiles [] extensions aliases).base? specifier importer with
  | error fault =>
      rw [hbase] at h
      cases h
  | ok found =>
      rw [hbase] at h
      obtain ⟨base, -, hfind⟩ := Option.bind_eq_some_iff.mp (Except.ok.inj h)
      have hfound := List.find?_some hfind
      exact of_decide_eq_true hfound

/-! ## Other known files -/

/-- Resolving does not depend on the order in which the files are known. -/
theorem resolve_congr {others : List String} (h : ∀ path, path ∈ files ↔ path ∈ others) :
    (ofFiles files extensions aliases).resolve specifier importer =
      (ofFiles others extensions aliases).resolve specifier importer := by
  have hknown : (fun path => decide (path ∈ files)) = fun path => decide (path ∈ others) :=
    funext fun path => decide_eq_decide.mpr (h path)
  rw [resolve_ofFiles, resolve_ofFiles, hknown]

/-- Two searches of one list find the same if what each finds would do for the other, too. -/
private theorem find?_eq_of_both {first second : String → Bool} {paths : List String}
    (hfirst : ∀ path, paths.find? first = some path → second path = true)
    (hsecond : ∀ path, paths.find? second = some path → first path = true) :
    paths.find? first = paths.find? second := by
  induction paths with
  | nil => rfl
  | cons path rest ih =>
      rw [List.find?_cons, List.find?_cons] at *
      cases h₁ : first path with
      | true =>
          have : second path = true := hfirst path (by simp [h₁])
          simp [this]
      | false =>
          cases h₂ : second path with
          | true =>
              have := hsecond path (by simp [h₂])
              rw [h₁] at this
              cases this
          | false => exact ih (by simpa [h₁] using hfirst) (by simpa [h₂] using hsecond)

/-- A name that means a file that stays before, and one that was there already after files have come
and gone, has kept its meaning. -/
theorem resolve_eq_of_known_in_both {others : List String}
    (hgone : ∀ path, (ofFiles files extensions aliases).resolve specifier importer =
      .ok (some path) → path ∈ others)
    (hcome : ∀ path, (ofFiles others extensions aliases).resolve specifier importer =
      .ok (some path) → path ∈ files) :
    (ofFiles files extensions aliases).resolve specifier importer =
      (ofFiles others extensions aliases).resolve specifier importer := by
  rw [resolve_ofFiles] at hgone hcome
  rw [resolve_ofFiles, resolve_ofFiles]
  cases hbase : (ofFiles [] extensions aliases).base? specifier importer with
  | error fault => rfl
  | ok found =>
      rw [hbase] at hgone hcome
      cases found with
      | none => rfl
      | some base =>
          exact congrArg Except.ok (find?_eq_of_both
            (fun path hpath => decide_eq_true (hgone path (congrArg Except.ok hpath)))
            (fun path hpath => decide_eq_true (hcome path (congrArg Except.ok hpath))))

end ChangeImpact.Resolver
