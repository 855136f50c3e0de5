import ChangeImpact.Proofs.Path.Segments
import Mathlib.Data.List.TakeWhile
import Mathlib.Logic.Function.Iterate

/-!
# Going up from a file

The directory of a path is what stands before its last slash, without slashes at its end, and the file
name is what stands after it.  Joining puts something in front of a path that ends in a slash, unless it
is empty (`exists_stem`), so the file name stays what it is.  Going up from a path that is written below
another one leads to that one: whatever stands between the two is dropped piece by piece
(`exists_iterate_directory_join`).
-/

namespace ChangeImpact.Path

/-! ## Slashes at the end -/

theorem upToLastSlash_append_cons {front name : List Char} (h : '/' ∉ name) :
    upToLastSlash (front ++ '/' :: name) = front ++ ['/'] := by
  have hname : ∀ c ∈ name.reverse, (c != '/') = true := by
    intro c hc
    simpa using fun heq : c = '/' => h (heq ▸ List.mem_reverse.mp hc)
  simp [upToLastSlash, List.dropWhile_append_of_pos hname]

@[simp] theorem dropTrailingSlashes_append_slash (path : List Char) :
    dropTrailingSlashes (path ++ ['/']) = dropTrailingSlashes path := by
  simp [dropTrailingSlashes]

/-- Dropping slashes at the end stops in the second part if there is anything else in it. -/
theorem dropTrailingSlashes_append {front back : List Char} (h : ¬ back.all (· == '/')) :
    dropTrailingSlashes (front ++ back) = front ++ dropTrailingSlashes back := by
  have hback : (back.reverse.dropWhile (· == '/')).isEmpty = false := by
    rw [List.isEmpty_eq_false_iff, Ne, List.dropWhile_eq_nil_iff]
    simpa using h
  simp [dropTrailingSlashes, List.dropWhile_append, hback]

theorem dropTrailingSlashes_cons {c : Char} {rest : List Char} (h : c ≠ '/') :
    dropTrailingSlashes (c :: rest) = c :: dropTrailingSlashes rest := by
  rw [dropTrailingSlashes, dropTrailingSlashes, List.reverse_cons, List.dropWhile_append]
  split
  · rename_i hempty
    simp [List.isEmpty_iff.mp hempty, h]
  · simp

theorem dropTrailingSlashes_of_getLast?_ne {path : List Char} (h : path.getLast? ≠ some '/') :
    dropTrailingSlashes path = path := by
  rw [dropTrailingSlashes, List.dropWhile_beq_eq_self_of_head?_ne, List.reverse_reverse]
  rwa [List.head?_reverse]

/-! ## The directory of a path below another one -/

/-- The part of a path before its last slash, and the part after it. -/
private theorem exists_last_slash {path : List Char} (h : '/' ∈ path) :
    ∃ front name, path = front ++ '/' :: name ∧ '/' ∉ name := by
  obtain ⟨name, front, heq, hnot⟩ := List.eq_append_cons_of_mem (List.mem_reverse.mpr h)
  refine ⟨front.reverse, name.reverse, ?_, by simpa using hnot⟩
  rw [← List.reverse_reverse path, heq]
  simp

/-- The directory of a file that is written directly below a path with a slash at its end. -/
theorem directory_append_name {stem name : List Char} (hstem : stem.getLast? = some '/')
    (hname : '/' ∉ name) : directory (stem ++ name) = directory stem := by
  obtain ⟨front, rfl⟩ := List.getLast?_eq_some_iff.mp hstem
  have hfront : upToLastSlash (front ++ ['/']) = front ++ ['/'] :=
    upToLastSlash_append_cons List.not_mem_nil
  rw [directory, directory, List.append_assoc, List.singleton_append,
    upToLastSlash_append_cons hname, hfront]

/-- The directory of a file that is written deeper below a path. -/
theorem directory_append_deep {stem front name : List Char} (hname : '/' ∉ name)
    (hfront : ¬ front.all (· == '/')) :
    directory (stem ++ (front ++ '/' :: name)) = stem ++ dropTrailingSlashes front := by
  have hall : ¬ (stem ++ front ++ ['/']).all (· == '/') := by
    intro hall
    rw [List.all_append, List.all_append, Bool.and_eq_true, Bool.and_eq_true] at hall
    exact hfront hall.1.2
  rw [directory, ← List.append_assoc, upToLastSlash_append_cons hname, if_neg hall,
    dropTrailingSlashes_append_slash, dropTrailingSlashes_append hfront]

/-- Going up from below a path with a slash at its end leads to the directory of that path. -/
theorem exists_iterate_directory {stem below : List Char} (hstem : stem.getLast? = some '/')
    {c : Char} (hhead : below.head? = some c) (hne : c ≠ '/') :
    ∃ n, directory^[n + 1] (stem ++ below) = directory stem := by
  -- one step up leaves a shorter text below the same path, or the path itself
  induction hlength : below.length using Nat.strong_induction_on generalizing below with
  | _ length ih =>
      by_cases hslash : '/' ∈ below
      · obtain ⟨front, name, rfl, hname⟩ := exists_last_slash hslash
        obtain ⟨rest, rfl⟩ : ∃ rest, front = c :: rest := by
          cases front with
          | nil => exact absurd (Option.some.inj hhead).symm hne
          | cons first rest => exact ⟨rest, by rw [← Option.some.inj hhead]⟩
        have hshorter : (dropTrailingSlashes (c :: rest)).length < length := by
          have hle := (dropTrailingSlashes_isPrefix (c :: rest)).length_le
          simp only [List.length_append, List.length_cons] at hle hlength
          omega
        obtain ⟨n, hn⟩ := ih _ hshorter (by rw [dropTrailingSlashes_cons hne]; rfl) rfl
        refine ⟨n + 1, ?_⟩
        rw [Function.iterate_succ_apply, directory_append_deep hname (by simp [hne]), hn]
      · exact ⟨0, directory_append_name hstem hslash⟩

theorem directory_append_slash {path : List Char} (hsome : path ≠ []) (hlast : path.getLast? ≠ some '/') :
    directory (path ++ ['/']) = path := by
  have hnot : ¬ (path ++ ['/']).all (· == '/') := by
    intro hall
    obtain ⟨last, hfound⟩ := Option.ne_none_iff_exists'.mp (mt List.getLast?_eq_none_iff.mp hsome)
    have hslash := List.all_eq_true.mp hall last (List.mem_append_left _ (List.mem_of_getLast? hfound))
    exact hlast (beq_iff_eq.mp hslash ▸ hfound)
  rw [directory, upToLastSlash_append_cons List.not_mem_nil, if_neg hnot, dropTrailingSlashes_append_slash,
    dropTrailingSlashes_of_getLast?_ne hlast]

/-! ## A file in a directory -/

theorem directory_of_not_mem {path : List Char} (h : '/' ∉ path) : directory path = [] := by
  have hnone : upToLastSlash path = [] := by
    rw [upToLastSlash, List.reverse_eq_nil_iff, List.dropWhile_eq_nil_iff]
    intro c hc
    simpa using fun heq : c = '/' => h (heq ▸ List.mem_reverse.mp hc)
  rw [directory, hnone]
  rfl

/-- Going up comes to rest where there is nothing but slashes, and only there. -/
theorem directory_eq_self_iff {path : List Char} : directory path = path ↔ ∀ c ∈ path, c = '/' := by
  constructor
  · intro hfixed
    by_cases hslash : '/' ∈ path
    · obtain ⟨front, name, rfl, hname⟩ := exists_last_slash hslash
      rw [directory, upToLastSlash_append_cons hname] at hfixed
      split at hfixed
      · rename_i hall
        rw [← hfixed]
        exact fun c hc => beq_iff_eq.mp (List.all_eq_true.mp hall c hc)
      · -- what is left after the last slash has been dropped is shorter
        rw [dropTrailingSlashes_append_slash] at hfixed
        have hshorter := (dropTrailingSlashes_isPrefix front).length_le
        rw [hfixed, List.length_append, List.length_cons] at hshorter
        omega
    · rw [directory_of_not_mem hslash] at hfixed
      rw [← hfixed]
      exact List.forall_mem_nil _
  · intro hall
    have hkept : upToLastSlash path = path := by
      rw [upToLastSlash, List.dropWhile_eq_self_iff.mpr, List.reverse_reverse]
      intro hlength
      simpa using hall _ (List.mem_reverse.mp (List.getElem_mem hlength))
    rw [directory, hkept]
    exact if_pos (List.all_eq_true.mpr fun c hc => beq_iff_eq.mpr (hall c hc))

theorem not_mem_fileName (path : List Char) : '/' ∉ fileName path := by
  intro h
  have hkept := List.all_takeWhile (p := (· != '/')) (l := path.reverse)
  simpa using List.all_eq_true.mp hkept '/' (List.mem_reverse.mp h)

theorem mem_of_mem_fileName {path : List Char} {c : Char} (h : c ∈ fileName path) : c ∈ path := by
  have hreversed := (List.takeWhile_prefix (l := path.reverse) (· != '/')).subset (List.mem_reverse.mp h)
  exact List.mem_reverse.mp hreversed

theorem fileName_of_not_mem {name : List Char} (h : '/' ∉ name) : fileName name = name := by
  have hkept : name.reverse.takeWhile (· != '/') = name.reverse :=
    List.takeWhile_eq_self_iff.mpr fun c hc => by
      simpa using fun heq : c = '/' => h (heq ▸ List.mem_reverse.mp hc)
  rw [fileName, hkept, List.reverse_reverse]

/-- The file name of what is written behind a slash, or alone. -/
theorem fileName_append {stem : List Char} (hstem : stem = [] ∨ stem.getLast? = some '/') (path : List Char) :
    fileName (stem ++ path) = fileName path := by
  rcases hstem with rfl | hlast
  · rfl
  · obtain ⟨front, rfl⟩ := List.getLast?_eq_some_iff.mp hlast
    have hstop : (path.reverse ++ '/' :: front.reverse).takeWhile (· != '/') =
        path.reverse.takeWhile (· != '/') := by
      rw [List.takeWhile_append]
      split
      · rename_i hall
        rw [List.takeWhile_cons_of_neg (by simp), List.append_nil]
        exact ((List.takeWhile_prefix _).eq_of_length hall).symm
      · rfl
    rw [fileName, fileName, ← hstop]
    simp

/-- Joining puts something in front of a path, of which the joined path is the directory. -/
theorem exists_stem (outer : List Char) : ∃ stem, (stem = [] ∨ stem.getLast? = some '/') ∧
    (∀ inner, isAbsolute inner = false → join outer inner = stem ++ inner) ∧
    (Closed outer → directory stem = outer) := by
  by_cases hempty : outer = []
  · refine ⟨[], .inl rfl, fun inner hinner => ?_, fun _ => ?_⟩
    · rw [join_of_relative hinner, hempty]
      rfl
    · rw [hempty]
      rfl
  · -- a slash is put between the two unless the first one ends in one
    by_cases hlast : outer.getLast? = some '/'
    · refine ⟨outer, .inr hlast, fun inner hinner => ?_, fun hclosed => ?_⟩
      · rw [join_of_relative hinner, if_pos (by simp [hlast])]
      · obtain ⟨front, rfl⟩ := List.getLast?_eq_some_iff.mp hlast
        rw [directory, upToLastSlash_append_cons List.not_mem_nil]
        exact if_pos (hclosed.resolve_right (not_not_intro hlast))
    · refine ⟨outer ++ ['/'], .inr (by simp), fun inner hinner => ?_, fun _ => directory_append_slash hempty hlast⟩
      rw [join_of_relative hinner, if_neg (by simp [hempty, hlast]), List.append_assoc]
      rfl

theorem isAbsolute_of_not_mem {name : List Char} (h : '/' ∉ name) : isAbsolute name = false := by
  cases name with
  | nil => rfl
  | cons c rest => simpa [isAbsolute] using fun heq : c = '/' => h (heq ▸ List.mem_cons_self)

theorem fileName_join {outer name : List Char} (h : '/' ∉ name) : fileName (join outer name) = name := by
  obtain ⟨stem, hstem, hjoin, -⟩ := exists_stem outer
  rw [hjoin name (isAbsolute_of_not_mem h), fileName_append hstem, fileName_of_not_mem h]

/-- What is left of a path without its extension is put together from parts of the path. -/
theorem mem_of_mem_splitExtension {path : List Char} {c : Char} (h : c ∈ (splitExtension path).1) : c ∈ path := by
  unfold splitExtension at h
  simp only at h
  split at h
  · rcases List.mem_append.mp h with h | h
    · rcases List.mem_append.mp h with h | h
      · exact List.mem_of_mem_take h
      · exact mem_of_mem_fileName ((List.takeWhile_prefix _).subset h)
    · exact mem_of_mem_fileName ((List.dropWhile_suffix _).subset (List.mem_of_mem_take h))
  · exact h

/-! ## Written below another path -/

/-- A path that is written below a closed one has it above. -/
theorem exists_iterate_directory_join {base name : List Char} {c : Char} (hbase : base ≠ [])
    (hclosed : Closed base) (hname : name.head? = some c) (hne : c ≠ '/') :
    ∃ n, directory^[n + 1] (join base name) = base := by
  have habs : isAbsolute name = false := by simp [isAbsolute, hname, hne]
  obtain ⟨stem, hstem, hjoin, hdirectory⟩ := exists_stem base
  rcases hstem with rfl | hlast
  · exact absurd (hdirectory hclosed).symm hbase
  · obtain ⟨n, hn⟩ := exists_iterate_directory hlast hname hne
    exact ⟨n, by rw [hjoin name habs, hn, hdirectory hclosed]⟩

end ChangeImpact.Path
