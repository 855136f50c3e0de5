import ChangeImpact.Disk.Listing
import ChangeImpact.Proofs.Disk.Tree
import Mathlib.Data.Set.Insert

/-!
# What is listed of a changed tree

The files below a directory are listed by their places.  Something put into a directory, be it a file or an empty
directory, changes the list at its own place only (`FileTree.filter_places_plant`).  This is so in every directory
of the tree, and all the directories stay (`FileTree.keeps_plant`).
-/

namespace ChangeImpact.FileTree

variable {tree held before after last : FileTree} {place below : List String} {name : String} {skipped : List String}
  {changed more : Set (List String)}

/-! ## Places entry by entry -/

/-- The places of the files of an entry. -/
def placesOf (skipped : List String) : String × FileTree → List (List String)
  | (name, file ..) => [[name]]
  | (name, directory entries) =>
    if skipped.contains name then [] else (places skipped (directory entries)).map (name :: ·)

theorem places_directory (entries : List (String × FileTree)) :
    (directory entries).places skipped = entries.flatMap (placesOf skipped) := by
  rw [places]
  induction entries with
  | nil => rw [entryPlaces]; rfl
  | cons entry rest ih =>
      obtain ⟨name, held⟩ := entry
      cases held with
      | file bytes time => rw [entryPlaces, ih, List.flatMap_cons, placesOf]; rfl
      | directory entries => rw [entryPlaces, ih, List.flatMap_cons, placesOf]

/-- An entry that is put among others takes the place of the first one with its name, or stands at the end. -/
theorem exists_putEntry (name : String) (entries : List (String × FileTree)) :
    (∃ front old back, entries = front ++ (name, old) :: back ∧ entries.lookup name = some old ∧
      ∀ held, putEntry name held entries = front ++ (name, held) :: back) ∨
    (entries.lookup name = none ∧ ∀ held, putEntry name held entries = entries ++ [(name, held)]) := by
  induction entries with
  | nil => exact .inr ⟨rfl, fun held => rfl⟩
  | cons entry rest ih =>
      obtain ⟨first, kept⟩ := entry
      by_cases heq : first = name
      · subst heq
        exact .inl ⟨[], kept, rest, rfl, by simp, fun held => by simp [putEntry]⟩
      · have hlookup : ((first, kept) :: rest).lookup name = rest.lookup name := by
          rw [List.lookup_cons, beq_false_of_ne (Ne.symm heq)]
        rw [hlookup]
        rcases ih with ⟨front, old, back, hrest, hfound, hput⟩ | ⟨hnone, hput⟩
        · exact .inl ⟨(first, kept) :: front, old, back, by rw [hrest]; rfl, hfound,
            fun held => by simp [putEntry, heq, hput]⟩
        · exact .inr ⟨hnone, fun held => by simp [putEntry, heq, hput]⟩

theorem filter_placesOf_bare (hbare : held.Bare) {keep : List String → Bool}
    (hkeep : keep [name] = true → held.isDirectory = true) : (placesOf skipped (name, held)).filter keep = [] := by
  cases held with
  | file bytes time =>
      have hnot : ¬ keep [name] = true := fun h => by cases hkeep h
      simp [placesOf, hnot]
  | directory entries =>
      obtain rfl : entries = [] := hbare
      simp [placesOf, places_directory]

/-- What is put into a directory changes the list of files at its own place only, and not at all where nothing was
and a directory is put. -/
theorem filter_places_plant (hbare : held.Bare) (habove : tree.sight? place.dropLast = some .directory)
    (hplace : tree.sight? place ≠ some .directory) (keep : List String → Bool)
    (hkeep : keep place = true → tree.at? place = none ∧ held.isDirectory = true) :
    ((tree.plant place held).places skipped).filter keep = (tree.places skipped).filter keep := by
  induction place generalizing tree keep with
  | nil => exact absurd habove hplace
  | cons name names ih =>
      obtain ⟨entries, rfl⟩ := exists_eq_directory habove
      rw [plant, FileTree.entries, places_directory, places_directory]
      rw [sight?_directory_cons] at hplace
      rw [at?_cons, FileTree.entries] at hkeep
      -- only the entry with this name has changed
      rcases exists_putEntry name entries with ⟨front, old, back, hentries, hlookup, hput⟩ | ⟨hlookup, hput⟩
      · rw [hlookup, Option.bind_some] at hplace hkeep
        suffices hentry : (placesOf skipped (name, plant names old held)).filter keep =
            (placesOf skipped (name, old)).filter keep by
          rw [hlookup, Option.getD_some, hput]
          conv_rhs => rw [hentries]
          simp only [List.flatMap_append, List.flatMap_cons, List.filter_append, hentry]
        cases names with
        | nil =>
            have hdrop : ¬ keep [name] = true := fun h => by cases (hkeep h).1
            rw [plant, filter_placesOf_bare hbare fun h => absurd h hdrop, filter_placesOf_bare ?_ fun h => absurd h hdrop]
            cases old with
            | file bytes time => rfl
            | directory olds => exact absurd rfl hplace
        | cons second rest =>
            rw [List.dropLast_cons_cons, sight?_directory_cons, hlookup, Option.bind_some] at habove
            obtain ⟨olds, rfl⟩ := exists_eq_directory habove
            have hbelow := ih habove hplace (fun below => keep (name :: below)) hkeep
            rw [plant] at hbelow ⊢
            rw [placesOf, placesOf]
            split
            · rfl
            · rw [List.filter_map, List.filter_map]
              exact congrArg _ hbelow
      · rw [hlookup, Option.getD_none, hput, List.flatMap_append, List.filter_append]
        cases names with
        | nil =>
            rw [List.flatMap_singleton, plant, filter_placesOf_bare hbare fun h => (hkeep h).2, List.append_nil]
        | cons second rest => simp [sight?_directory_cons, hlookup] at habove

/-! ## Every directory of a tree -/

/-- The directories of a tree are still there, and the files below each of them are listed as before, but for those
at some places. -/
def Keeps (changed : Set (List String)) (before after : FileTree) : Prop :=
  ∀ place entries, before.at? place = some (directory entries) →
    ∃ others, after.at? place = some (directory others) ∧
      ∀ skipped (keep : List String → Bool), (∀ below, below ≠ [] → keep below = true → place ++ below ∉ changed) →
        ((directory others).places skipped).filter keep = ((directory entries).places skipped).filter keep

theorem keeps_refl (changed : Set (List String)) (tree : FileTree) : Keeps changed tree tree :=
  fun _ entries h => ⟨entries, h, fun _ _ _ => rfl⟩

theorem Keeps.trans (hfirst : Keeps changed before after) (hsecond : Keeps changed after last) :
    Keeps changed before last := by
  intro place entries hentries
  obtain ⟨others, hothers, hsame⟩ := hfirst place entries hentries
  obtain ⟨lasts, hlasts, hmore⟩ := hsecond place others hothers
  exact ⟨lasts, hlasts, fun skipped keep hkeep => (hmore skipped keep hkeep).trans (hsame skipped keep hkeep)⟩

theorem Keeps.mono (h : Keeps changed before after) (hmore : changed ⊆ more) : Keeps more before after := by
  intro place entries hentries
  obtain ⟨others, hothers, hsame⟩ := h place entries hentries
  exact ⟨others, hothers, fun skipped keep hkeep => hsame skipped keep fun below hsome hbelow hchanged =>
    hkeep below hsome hbelow (hmore hchanged)⟩

theorem Keeps.hasDirectory (h : Keeps changed before after) (hplace : before.hasDirectory place = true) :
    after.hasDirectory place = true := by
  obtain ⟨entries, hentries⟩ := hasDirectory_iff.mp hplace
  obtain ⟨others, hothers, -⟩ := h place entries hentries
  exact hasDirectory_iff.mpr ⟨others, hothers⟩

theorem exists_directory_plant {start : List String} {entries : List (String × FileTree)} (hbare : held.Bare)
    (habove : tree.sight? place.dropLast = some .directory) (hplace : tree.sight? place ≠ some .directory)
    (hstart : tree.at? start = some (directory entries)) :
    ∃ others, (tree.plant place held).at? start = some (directory others) ∧
      ∀ skipped (keep : List String → Bool),
        (∀ below, below ≠ [] → keep below = true → start ++ below = place →
          tree.at? place = none ∧ held.isDirectory = true) →
        ((directory others).places skipped).filter keep = ((directory entries).places skipped).filter keep := by
  cases place with
  | nil => exact absurd habove hplace
  | cons name names =>
      induction start generalizing tree name names with
      | nil =>
          cases hstart
          refine ⟨_, rfl, fun skipped keep hkeep => ?_⟩
          exact filter_places_plant hbare habove hplace keep fun h => hkeep _ (List.cons_ne_nil name names) h rfl
      | cons first rest ih =>
          obtain ⟨top, rfl⟩ := exists_eq_directory habove
          rw [at?_cons, FileTree.entries, Option.bind_eq_some_iff] at hstart
          obtain ⟨sub, hsub, hstart⟩ := hstart
          simp only [plant, at?_cons, FileTree.entries, lookup_putEntry]
          by_cases hname : first = name
          · subst hname
            rw [if_pos rfl, Option.bind_some, hsub, Option.getD_some]
            rw [sight?_directory_cons, hsub, Option.bind_some] at hplace
            cases names with
            | nil =>
                obtain ⟨below, rfl⟩ : ∃ below, sub = directory below :=
                  exists_eq_directory (sight?_eq_directory.mpr (hasDirectory_iff.mpr ⟨entries, hstart⟩))
                exact absurd rfl hplace
            | cons second others =>
                rw [List.dropLast_cons_cons, sight?_directory_cons, hsub, Option.bind_some] at habove
                obtain ⟨listed, hlisted, hsame⟩ := ih hstart second others habove hplace
                refine ⟨listed, hlisted, fun skipped keep hkeep => hsame skipped keep fun below hsome hbelow heq => ?_⟩
                rw [Option.bind_some] at hkeep
                exact hkeep below hsome hbelow (congrArg _ heq)
          · rw [if_neg hname, hsub]
            exact ⟨entries, hstart, fun skipped keep hkeep => rfl⟩

/-- What is put into a directory keeps the rest of the tree. -/
theorem keeps_plant (hbare : held.Bare) (habove : tree.sight? place.dropLast = some .directory)
    (hplace : tree.sight? place ≠ some .directory)
    (hchanged : place ∉ changed → tree.at? place = none ∧ held.isDirectory = true) :
    Keeps changed tree (tree.plant place held) := by
  intro start entries hentries
  obtain ⟨others, hothers, hsame⟩ := exists_directory_plant hbare habove hplace hentries
  refine ⟨others, hothers, fun skipped keep hkeep => hsame skipped keep fun below hsome hbelow heq => ?_⟩
  exact hchanged fun hmem => hkeep below hsome hbelow (heq ▸ hmem)

end ChangeImpact.FileTree
