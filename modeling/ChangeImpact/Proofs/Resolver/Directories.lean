import ChangeImpact.Proofs.Path.Directory
import ChangeImpact.Resolver

/-!
# The directories above files

`climb` adds the directories above a file and stops at the first one that is there already.  That is
enough because the set is closed under parents whenever a climb begins; while it goes on, the one
parent that may be missing is the directory where the climb stands (`ClosedUpTo`).

* `mem_directories`: the directories of a resolver are the non-empty texts that are reached from a
  known file by going to the parent, at least once.
* `mem_directories_of_join`: a key below which a known file is written is one of them.
-/

namespace ChangeImpact.Resolver

/-- Every member has its parent in the set, unless the parent is empty or the one that is pending. -/
def ClosedUpTo (seen : Std.TreeSet String) (pending : String) : Prop :=
  ∀ directory ∈ seen, Path.directoryOf directory = "" ∨ Path.directoryOf directory ∈ seen ∨
    Path.directoryOf directory = pending

theorem directoryOf_empty : Path.directoryOf "" = "" := by decide

theorem iterate_directoryOf_empty (n : Nat) : Path.directoryOf^[n] "" = "" :=
  Function.iterate_fixed directoryOf_empty n

/-- In a closed set everything above a member is a member, as far as it is not empty. -/
theorem ClosedUpTo.iterate_mem {seen : Std.TreeSet String} {pending directory : String}
    (h : ClosedUpTo seen pending) (hpending : pending = "" ∨ pending ∈ seen)
    (hmem : directory ∈ seen) (n : Nat) :
    Path.directoryOf^[n] directory = "" ∨ Path.directoryOf^[n] directory ∈ seen := by
  induction n with
  | zero => exact .inr hmem
  | succ n ih =>
      rw [Function.iterate_succ_apply']
      rcases ih with hempty | hseen
      · rw [hempty]
        exact .inl directoryOf_empty
      · rcases h _ hseen with hnone | hthere | heq
        · exact .inl hnone
        · exact .inr hthere
        · exact heq ▸ hpending

theorem ClosedUpTo.weaken {seen : Std.TreeSet String} {pending : String}
    (h : ClosedUpTo seen "") : ClosedUpTo seen pending := by
  intro directory hmem
  rcases h directory hmem with hnone | hthere | hnone
  · exact .inl hnone
  · exact .inr (.inl hthere)
  · exact .inl hnone

theorem ClosedUpTo.insert {seen : Std.TreeSet String} {directory : String}
    (h : ClosedUpTo seen directory) :
    ClosedUpTo (seen.insert directory) (Path.directoryOf directory) := by
  intro other hother
  rcases Std.TreeSet.mem_insert.mp hother with heq | hseen
  · rw [← Std.LawfulEqOrd.eq_of_compare heq]
    exact .inr (.inr rfl)
  · rcases h other hseen with hnone | hthere | heq
    · exact .inl hnone
    · exact .inr (.inl (Std.TreeSet.mem_insert.mpr (.inr hthere)))
    · exact .inr (.inl (heq ▸ Std.TreeSet.mem_insert_self))

/-- A climb leaves a closed set, -/
theorem closedUpTo_climb {seen : Std.TreeSet String} {directory : String}
    (h : ClosedUpTo seen directory) : ClosedUpTo (climb seen directory) "" := by
  fun_induction climb seen directory with
  | case1 seen directory hstop =>
      intro other hother
      rcases h other hother with hnone | hthere | heq
      · exact .inl hnone
      · exact .inr (.inl hthere)
      · rcases hstop with hempty | hseen
        · exact .inl (heq.trans hempty)
        · exact .inr (.inl (heq ▸ hseen))
  | case2 seen directory hgo ih => exact ih h.insert

/-- and it adds its start and everything above it. -/
theorem mem_climb {seen : Std.TreeSet String} {directory other : String}
    (h : ClosedUpTo seen directory) :
    other ∈ climb seen directory ↔
      other ∈ seen ∨ other ≠ "" ∧ ∃ n, Path.directoryOf^[n] directory = other := by
  fun_induction climb seen directory with
  | case1 seen directory hstop =>
      refine ⟨.inl, ?_⟩
      rintro (hseen | ⟨hne, n, rfl⟩)
      · exact hseen
      · rcases hstop with rfl | hseen
        · exact absurd (iterate_directoryOf_empty n) hne
        -- the climb stops at a member, above which everything is a member
        · exact (h.iterate_mem (.inr hseen) hseen n).resolve_left hne
  | case2 seen directory hgo ih =>
      rw [ih h.insert, Std.TreeSet.mem_insert, Std.compare_eq_iff_eq]
      constructor
      · rintro ((rfl | hseen) | ⟨hne, n, hn⟩)
        · exact .inr ⟨fun hempty => hgo (.inl hempty), 0, rfl⟩
        · exact .inl hseen
        · exact .inr ⟨hne, n + 1, hn⟩
      · rintro (hseen | ⟨hne, n, hn⟩)
        · exact .inl (.inr hseen)
        · cases n with
          | zero => exact .inl (.inl hn)
          | succ n => exact .inr ⟨hne, n, hn⟩

private theorem mem_foldl_climb {files : List String} {seen : Std.TreeSet String}
    (h : ClosedUpTo seen "") {other : String} :
    other ∈ files.foldl (fun seen file => climb seen (Path.directoryOf file)) seen ↔
      other ∈ seen ∨ other ≠ "" ∧ ∃ file ∈ files, ∃ n, Path.directoryOf^[n + 1] file = other := by
  induction files generalizing seen with
  | nil => simp
  | cons file rest ih =>
      -- whatever a climb has seen it has seen with all directories above, so the next climb may stop there
      have hfile : ClosedUpTo seen (Path.directoryOf file) := h.weaken
      rw [List.foldl_cons, ih (closedUpTo_climb hfile), mem_climb hfile]
      simp only [List.mem_cons, exists_eq_or_imp, Function.iterate_succ_apply]
      constructor
      · rintro ((hseen | ⟨hne, hfile⟩) | ⟨hne, hrest⟩)
        · exact .inl hseen
        · exact .inr ⟨hne, .inl hfile⟩
        · exact .inr ⟨hne, .inr hrest⟩
      · rintro (hseen | ⟨hne, hfile | hrest⟩)
        · exact .inl (.inl hseen)
        · exact .inl (.inr ⟨hne, hfile⟩)
        · exact .inr ⟨hne, hrest⟩

/-- The directories of a resolver are what one reaches from a known file by going up. -/
theorem mem_directories {files extensions : List String} {aliases : Aliases} {other : String} :
    other ∈ (ofFiles files extensions aliases).directories ↔
      other ≠ "" ∧ ∃ file ∈ files, ∃ n, Path.directoryOf^[n + 1] file = other := by
  have hempty : ClosedUpTo ∅ "" := fun directory hmem => absurd hmem Std.TreeSet.not_mem_emptyc
  show other ∈ files.foldl _ _ ↔ _
  rw [mem_foldl_climb hempty]
  exact or_iff_right Std.TreeSet.not_mem_emptyc

/-! ## Files below a key -/

private theorem iterate_directoryOf_ofList (n : Nat) (path : List Char) :
    Path.directoryOf^[n] (String.ofList path) = String.ofList (Path.directory^[n] path) := by
  induction n generalizing path with
  | zero => rfl
  | succ n ih =>
      rw [Function.iterate_succ_apply, Function.iterate_succ_apply, ← ih, Path.directoryOf,
        String.toList_ofList]

/-- A key below which a known file is written is a directory of the resolver. -/
theorem mem_directories_of_join {files extensions : List String} {aliases : Aliases}
    {base name : List Char} (hne : base ≠ []) (hclosed : Path.Closed base)
    (hname : name.head? = some 'i') (hfile : String.ofList (Path.join base name) ∈ files) :
    String.ofList base ∈ (ofFiles files extensions aliases).directories := by
  obtain ⟨n, hn⟩ := Path.exists_iterate_directory_join hne hclosed hname (by decide)
  refine mem_directories.mpr ⟨?_, _, hfile, n, ?_⟩
  · exact fun hempty => hne (String.ofList_eq_empty_iff.mp hempty)
  · rw [iterate_directoryOf_ofList, hn]

end ChangeImpact.Resolver
