import ChangeImpact.Proofs.Collections.PathSet
import ChangeImpact.Proofs.Collections.Table
import ChangeImpact.Proofs.Disk.Listing
import ChangeImpact.Proofs.Path.Canonical
import Mathlib.Data.List.Nodup

/-!
# The files that are listed

The files of a project are listed exactly (`Disk.listing_of_tree`): each of them once, in order, and nothing else.

* A tree as a disk can hold it has proper names, and no two entries of a directory have the same one (`Proper`).  So
  has every tree below it, and an entry is found under its name (`Proper.lookup_iff`).
* A walk comes to a file if and only if no directory on the way has one of the skipped names (`mem_places_iff`), and
  it does not come there twice (`nodup_places`).
* The key of such a file is its path, as long as that has no backslash and no blanks at its ends; so two files
  never have the same key (`placeKey_eq`).
-/

namespace ChangeImpact

open ChangeImpact.Path (Named Plain Tame Canonical)

namespace FileTree

variable {tree held : FileTree} {entries : List (String × FileTree)} {name : String} {place names : List String}
  {skipped : List String}

/-! ## Trees as a disk can hold them -/

/-- What holds of files, and of a directory if it holds of all that this holds, holds of every tree. -/
theorem induction {motive : FileTree → Prop} (file : ∀ bytes changed, motive (file bytes changed))
    (directory : ∀ entries, (∀ entry ∈ entries, motive entry.2) → motive (directory entries)) :
    ∀ tree, motive tree
  | .file bytes changed => file bytes changed
  | .directory entries => directory entries fun entry _ => induction file directory entry.2
termination_by tree => sizeOf tree
decreasing_by
  rename_i hentry
  have hless := List.sizeOf_lt_of_mem hentry
  cases entry
  simp only [Prod.mk.sizeOf_spec, FileTree.directory.sizeOf_spec] at hless ⊢
  omega

/-- There is a file at a place. -/
def HasFile (tree : FileTree) (place : List String) : Prop :=
  ∃ bytes changed, tree.at? place = some (file bytes changed)

/-- The entries of a directory have names that lead somewhere else, and no two of them the same. -/
structure ProperEntries (entries : List (String × FileTree)) : Prop where
  names : ∀ entry ∈ entries, Named entry.1.toList ∧ Plain entry.1.toList
  distinct : (entries.map (·.1)).Nodup

/-- All directories of a tree have proper entries. -/
def Proper (tree : FileTree) : Prop :=
  ∀ place entries, tree.at? place = some (directory entries) → ProperEntries entries

theorem Proper.top (h : (directory entries).Proper) : ProperEntries entries := h [] entries rfl

theorem Proper.lookup_iff (h : (directory entries).Proper) : entries.lookup name = some held ↔ (name, held) ∈ entries :=
  Table.lookup_eq_some_iff_of_nodup h.top.distinct

theorem Proper.below (h : (directory entries).Proper) (hentry : (name, held) ∈ entries) : held.Proper := by
  intro place others hothers
  refine h (name :: place) others ?_
  rw [at?_cons, FileTree.entries, h.lookup_iff.mpr hentry]
  exact hothers

theorem proper_file (bytes : List UInt8) (changed : Timestamp) : (file bytes changed).Proper := by
  intro place entries hat
  cases place with
  | nil => cases hat
  | cons name rest => cases hat

theorem proper_directory (htop : ProperEntries entries) (hbelow : ∀ entry ∈ entries, entry.2.Proper) :
    (directory entries).Proper := by
  intro place others hat
  cases place with
  | nil =>
      cases hat
      exact htop
  | cons name rest =>
      rw [at?_cons, FileTree.entries, Option.bind_eq_some_iff] at hat
      obtain ⟨held, hheld, hat⟩ := hat
      exact hbelow _ ((Table.lookup_eq_some_iff_of_nodup htop.distinct).mp hheld) rest others hat

/-- A file of a directory is a file of one of its entries. -/
theorem Proper.hasFile_cons_iff (h : (directory entries).Proper) :
    (directory entries).HasFile (name :: place) ↔ ∃ held, (name, held) ∈ entries ∧ held.HasFile place := by
  simp only [HasFile, at?_cons, FileTree.entries, Option.bind_eq_some_iff, h.lookup_iff]
  constructor
  · rintro ⟨bytes, changed, held, hentry, hfile⟩
    exact ⟨held, hentry, bytes, changed, hfile⟩
  · rintro ⟨held, hentry, bytes, changed, hfile⟩
    exact ⟨bytes, changed, held, hentry, hfile⟩

theorem not_hasFile_cons (bytes : List UInt8) (changed : Timestamp) :
    ¬ (file bytes changed).HasFile (name :: place) := by
  rintro ⟨others, time, hat⟩
  cases hat

/-- A file stands under names that lead somewhere. -/
theorem Proper.names_of_hasFile (h : tree.Proper) (hfile : tree.HasFile place) :
    ∀ name ∈ place, Named name.toList ∧ Plain name.toList := by
  induction place generalizing tree with
  | nil => simp
  | cons first rest ih =>
      cases tree with
      | file bytes changed => exact absurd hfile (not_hasFile_cons bytes changed)
      | directory entries =>
          obtain ⟨held, hentry, hrest⟩ := h.hasFile_cons_iff.mp hfile
          exact List.forall_mem_cons.mpr ⟨h.top.names _ hentry, ih (h.below hentry) hrest⟩

/-! ## The places to which a walk comes -/

theorem mem_placesOf_iff : place ∈ placesOf skipped (name, held) ↔
    (held.HasFile [] ∧ place = [name]) ∨
      (name ∉ skipped ∧ ∃ below ∈ held.places skipped, place = name :: below) := by
  cases held with
  | file bytes changed =>
      have hnone : (file bytes changed).places skipped = [] := by rw [places]
      simp [placesOf, HasFile, hnone]
  | directory entries =>
      rw [placesOf]
      by_cases hskipped : name ∈ skipped
      · simp [hskipped, HasFile]
      · simp [hskipped, HasFile, eq_comm]

theorem ne_nil_of_mem_places (h : place ∈ tree.places skipped) : place ≠ [] := by
  cases tree with
  | file bytes changed =>
      rw [places] at h
      cases h
  | directory entries =>
      rw [places_directory, List.mem_flatMap] at h
      obtain ⟨⟨name, held⟩, -, h⟩ := h
      rcases mem_placesOf_iff.mp h with ⟨-, rfl⟩ | ⟨-, below, -, rfl⟩
      · exact List.cons_ne_nil _ _
      · exact List.cons_ne_nil _ _

/-- A walk comes to the files that no directory with a skipped name is above of. -/
theorem mem_places_iff (h : tree.Proper) : place ∈ tree.places skipped ↔
    place ≠ [] ∧ tree.HasFile place ∧ ∀ name ∈ place.dropLast, name ∉ skipped := by
  induction place generalizing tree with
  | nil => exact iff_of_false (fun hmem => ne_nil_of_mem_places hmem rfl) fun hnot => hnot.1 rfl
  | cons name rest ih =>
      cases tree with
      | file bytes changed =>
          rw [places]
          exact iff_of_false List.not_mem_nil fun hfile => not_hasFile_cons bytes changed hfile.2.1
      | directory entries =>
          rw [places_directory, List.mem_flatMap, h.hasFile_cons_iff]
          constructor
          · rintro ⟨⟨other, held⟩, hentry, hmem⟩
            rcases mem_placesOf_iff.mp hmem with ⟨hfile, heq⟩ | ⟨hskipped, below, hbelow, heq⟩
            · cases heq
              exact ⟨List.cons_ne_nil _ _, ⟨held, hentry, hfile⟩, by simp⟩
            · cases heq
              obtain ⟨hsome, hfile, hrest⟩ := (ih (h.below hentry)).mp hbelow
              refine ⟨List.cons_ne_nil _ _, ⟨held, hentry, hfile⟩, ?_⟩
              rw [List.dropLast_cons_of_ne_nil hsome]
              exact List.forall_mem_cons.mpr ⟨hskipped, hrest⟩
          · rintro ⟨-, ⟨held, hentry, hfile⟩, hskipped⟩
            refine ⟨(name, held), hentry, mem_placesOf_iff.mpr ?_⟩
            -- the last name is that of a file, and only names of directories are skipped
            by_cases hnone : rest = []
            · subst hnone
              exact .inl ⟨hfile, rfl⟩
            · rw [List.dropLast_cons_of_ne_nil hnone, List.forall_mem_cons] at hskipped
              exact .inr ⟨hskipped.1, rest, (ih (h.below hentry)).mpr ⟨hnone, hfile, hskipped.2⟩, rfl⟩

theorem nodup_places (tree : FileTree) (h : tree.Proper) : (tree.places skipped).Nodup := by
  induction tree using induction with
  | file bytes changed =>
      rw [places]
      exact List.nodup_nil
  | directory entries ih =>
      rw [places_directory, List.nodup_flatMap]
      constructor
      · rintro ⟨name, held⟩ hentry
        cases held with
        | file bytes changed => exact List.nodup_singleton _
        | directory others =>
            rw [placesOf]
            split
            · exact List.nodup_nil
            · exact (ih _ hentry (h.below hentry)).map fun _ _ heq => List.tail_eq_of_cons_eq heq
      · refine (List.pairwise_map.mp h.top.distinct).imp fun {first second} hne place hfirst hsecond => hne ?_
        -- a place starts with the name of its entry
        have hhead : ∀ entry, place ∈ placesOf skipped entry → place.head? = some entry.1 := by
          rintro ⟨name, held⟩ hmem
          rcases mem_placesOf_iff.mp hmem with ⟨-, rfl⟩ | ⟨-, below, -, rfl⟩
          · rfl
          · rfl
        exact Option.some.inj ((hhead first hfirst).symm.trans (hhead second hsecond))

end FileTree

/-! ## Keys of places -/

section

variable {first second : List String} {names : List String}

/-- The path to a place. -/
def placePath (place : List String) : String := "/".intercalate place

theorem toList_placePath (place : List String) :
    (placePath place).toList = ['/'].intercalate (place.map String.toList) :=
  String.toList_intercalate

/-- Proper names can be read off the path. -/
theorem splitOn_placePath (hsome : names ≠ []) (hnames : ∀ name ∈ names, Named name.toList ∧ Plain name.toList) :
    (placePath names).toList.splitOn '/' = names.map String.toList := by
  rw [toList_placePath, List.splitOn_intercalate '/' _ (by simpa using hsome)]
  intro part hpart
  obtain ⟨name, hname, rfl⟩ := List.mem_map.mp hpart
  exact (hnames name hname).1.2

/-- So two places never have the same path. -/
theorem placePath_inj (hfirst : first ≠ []) (hsecond : second ≠ [])
    (hfirsts : ∀ name ∈ first, Named name.toList ∧ Plain name.toList)
    (hseconds : ∀ name ∈ second, Named name.toList ∧ Plain name.toList) (h : placePath first = placePath second) :
    first = second := by
  have hsplit := splitOn_placePath hfirst hfirsts
  rw [h, splitOn_placePath hsecond hseconds] at hsplit
  exact (List.map_injective_iff.mpr (fun _ _ => String.toList_inj.mp) hsplit).symm

/-- The key of a file is its path. -/
theorem placeKey_eq (hsome : names ≠ []) (hnames : ∀ name ∈ names, Named name.toList ∧ Plain name.toList)
    (htame : Tame (placePath names).toList) : placeKey names = placePath names := by
  have hcanonical : Canonical (placePath names).toList := by
    refine ⟨htame, fun part hpart => ?_⟩
    rw [splitOn_placePath hsome hnames] at hpart
    obtain ⟨name, hname, rfl⟩ := List.mem_map.mp hpart
    exact (hnames name hname).2
  show Path.key none (placePath names) = placePath names
  rw [Path.key, hcanonical.keyChars_eq, String.ofList_toList]

end

/-! ## The listing -/

namespace Disk

variable {disk : Disk} {directory : String} {entries : List (String × FileTree)} {extensions : List String}

theorem find_eq_ok_iff {path : String} {found : FileTree} :
    disk.find path = .ok found ↔ ∃ place, disk.locate path = .ok place ∧ disk.tree.at? place = some found := by
  rw [find]
  cases disk.locate path with
  | error fault => simp [bind, Except.bind]
  | ok place =>
      cases hat : disk.tree.at? place with
      | none => simp [bind, Except.bind, hat, throw, throwThe, MonadExceptOf.throw]
      | some other => simp [bind, Except.bind, hat, pure, Except.pure]

/-- The extension of a name, in whatever case, is one of those wanted; every name is wanted where none are given. -/
def Wanted (extensions : List String) (name : String) : Prop :=
  extensions = [] ∨ ∃ wanted ∈ extensions,
    Text.lowerString wanted = Text.lowerString (String.ofList (Path.extension name.toList))

theorem hasExtension_iff {name : String} : hasExtension extensions name = true ↔ Wanted extensions name := by
  simp [hasExtension, Wanted]

/-- Below a directory exactly the files are listed that have a wanted extension and stand in no skipped directory at
any depth, each of them once and by its path, in increasing order.  Nothing depends on the order in which a walk comes
to them. -/
theorem listing_of_tree (hfind : disk.find (String.ofList (Path.tidy directory.toList)) = .ok (.directory entries))
    (hproper : (FileTree.directory entries).Proper)
    (htame : ∀ place, (FileTree.directory entries).HasFile place → Tame (placePath place).toList) :
    ∃ listed, disk.listing directory extensions = .ok listed ∧ listed.Pairwise (· < ·) ∧
      (∀ path, path ∈ listed ↔ ∃ above name, (FileTree.directory entries).HasFile (above ++ [name]) ∧
        path = placePath (above ++ [name]) ∧ (∀ other ∈ above, other ∉ skippedDirectories) ∧ Wanted extensions name) ∧
      ∀ walked : List (List String), walked.Perm ((FileTree.directory entries).places skippedDirectories) →
        ((walked.filter fun place => hasExtension extensions (place.getLast?.getD "")).map placeKey).mergeSort (· ≤ ·) =
          listed := by
  generalize FileTree.directory entries = tree at hfind hproper htame
  let wanted (place : List String) : Bool := hasExtension extensions (place.getLast?.getD "")
  have hlisting : disk.listing directory extensions =
      .ok ((((tree.places skippedDirectories).filter wanted).map placeKey).mergeSort (· ≤ ·)) := by
    rw [listing, hfind]
  -- the key of a place to which the walk comes is its path
  have hplace : ∀ place ∈ (tree.places skippedDirectories).filter wanted, place ≠ [] ∧
      (∀ name ∈ place, Named name.toList ∧ Plain name.toList) ∧ placeKey place = placePath place := by
    intro place hmem
    obtain ⟨hsome, hfile, -⟩ := (FileTree.mem_places_iff hproper).mp (List.mem_of_mem_filter hmem)
    have hnames := hproper.names_of_hasFile hfile
    exact ⟨hsome, hnames, placeKey_eq hsome hnames (htame place hfile)⟩
  have hnodup : (((tree.places skippedDirectories).filter wanted).map placeKey).Nodup := by
    refine List.Nodup.map_on (fun first hfirst second hsecond heq => ?_) ((FileTree.nodup_places tree hproper).filter _)
    obtain ⟨hsome, hnames, hkey⟩ := hplace first hfirst
    obtain ⟨hsome', hnames', hkey'⟩ := hplace second hsecond
    exact placePath_inj hsome hsome' hnames hnames' (by rw [← hkey, ← hkey', heq])
  refine ⟨_, hlisting, ?_, fun path => ?_, fun walked hwalked => ?_⟩
  · have hdistinct :=
      (List.mergeSort_perm _ (fun first second : String => decide (first ≤ second))).nodup_iff.mpr hnodup
    refine ((pairwise_mergeSort_le _).and hdistinct).imp fun {first second} ⟨hle, hne⟩ => ?_
    exact Std.lt_of_le_of_ne (of_decide_eq_true hle) hne
  · rw [List.mem_mergeSort, List.mem_map]
    constructor
    · rintro ⟨place, hmem, rfl⟩
      obtain ⟨hsome, -, hkey⟩ := hplace place hmem
      obtain ⟨hwalked, hext⟩ := List.mem_filter.mp hmem
      obtain ⟨-, hfile, hskipped⟩ := (FileTree.mem_places_iff hproper).mp hwalked
      obtain ⟨above, name, rfl⟩ := (List.eq_nil_or_concat' place).resolve_left hsome
      rw [List.dropLast_concat] at hskipped
      exact ⟨above, name, hfile, hkey, hskipped, hasExtension_iff.mp (by simpa [wanted] using hext)⟩
    · rintro ⟨above, name, hfile, rfl, hskipped, hext⟩
      have hmem : above ++ [name] ∈ (tree.places skippedDirectories).filter wanted := by
        refine List.mem_filter.mpr ⟨(FileTree.mem_places_iff hproper).mpr ⟨by simp, hfile, ?_⟩, ?_⟩
        · rwa [List.dropLast_concat]
        · simpa [wanted] using hasExtension_iff.mpr hext
      exact ⟨_, hmem, (hplace _ hmem).2.2⟩
  · exact mergeSort_eq_of_perm ((hwalked.filter wanted).map placeKey)

/-- Of five files three are listed: one stands below a skipped directory, and one has another extension. -/
theorem listing_of_tree_with_packages : ∃ (disk : Disk) (entries : List (String × FileTree)),
    disk.listing "web" [".TS"] = .ok ["a.ts", "lib/b.Ts", "lib/c d/ e.ts"] ∧
      ((FileTree.directory entries).places []).map placePath =
        ["lib/node_modules/x.ts", "lib/b.Ts", "lib/c d/ e.ts", "a.ts", "a.css"] ∧
      ∀ path, path ∈ ["a.ts", "lib/b.Ts", "lib/c d/ e.ts"] ↔
        ∃ above name, (FileTree.directory entries).HasFile (above ++ [name]) ∧ path = placePath (above ++ [name]) ∧
          (∀ other ∈ above, other ∉ skippedDirectories) ∧ Wanted [".TS"] name := by
  let file : FileTree := .file [] (.ofWholeSeconds 0)
  let packages : List (String × FileTree) := [("x.ts", file)]
  let deep : List (String × FileTree) := [(" e.ts", file)]
  let lib : List (String × FileTree) := [("node_modules", .directory packages), ("b.Ts", file), ("c d", .directory deep)]
  let entries : List (String × FileTree) := [("lib", .directory lib), ("a.ts", file), ("a.css", file)]
  let disk : Disk := { tree := .directory [("web", .directory entries)] }
  have hfile : file.Proper := FileTree.proper_file _ _
  have hpackages : (FileTree.directory packages).Proper :=
    FileTree.proper_directory ⟨by decide, by decide⟩ (by simpa [packages] using hfile)
  have hdeep : (FileTree.directory deep).Proper :=
    FileTree.proper_directory ⟨by decide, by decide⟩ (by simpa [deep] using hfile)
  have hlib : (FileTree.directory lib).Proper :=
    FileTree.proper_directory ⟨by decide, by decide⟩ (by simpa [lib] using ⟨hpackages, hfile, hdeep⟩)
  have hproper : (FileTree.directory entries).Proper :=
    FileTree.proper_directory ⟨by decide, by decide⟩ (by simpa [entries] using ⟨hlib, hfile⟩)
  have htame : ∀ place, (FileTree.directory entries).HasFile place → Tame (placePath place).toList := by
    intro place hheld
    have hsome : place ≠ [] := by
      rintro rfl
      obtain ⟨bytes, changed, hat⟩ := hheld
      cases hat
    have hall : ∀ place ∈ (FileTree.directory entries).places [], Tame (placePath place).toList := by decide +kernel
    exact hall place ((FileTree.mem_places_iff hproper).mpr ⟨hsome, hheld, by simp⟩)
  have hplace : disk.locate (String.ofList (Path.tidy "web".toList)) = .ok ["web"] := by decide +kernel
  obtain ⟨listed, hlisted, -, hmem, hsame⟩ :=
    @listing_of_tree disk "web" entries [".TS"] (find_eq_ok_iff.mpr ⟨_, hplace, rfl⟩) hproper htame
  -- another walk comes to the files in the order of their paths
  let walked : List (List String) := [["a.css"], ["a.ts"], ["lib", "b.Ts"], ["lib", "c d", " e.ts"]]
  have hwalked : walked.Perm ((FileTree.directory entries).places skippedDirectories) := by decide +kernel
  have hkeys : (walked.filter fun place => hasExtension [".TS"] (place.getLast?.getD "")).map placeKey =
      ["a.ts", "lib/b.Ts", "lib/c d/ e.ts"] := by decide +kernel
  have hthree := hsame walked hwalked
  rw [hkeys, List.mergeSort_of_pairwise (by decide)] at hthree
  subst hthree
  exact ⟨disk, entries, hlisted, by decide +kernel, hmem⟩

end Disk
end ChangeImpact
