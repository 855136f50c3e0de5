import ChangeImpact.CommandLine.Run
import ChangeImpact.Proofs.Collections.PathSet
import ChangeImpact.Proofs.Disk.Writing
import ChangeImpact.Proofs.Path.Keys

/-!
# The graph among the files of its project

The files of a project are listed without the one under whose key the graph is kept.  Where the path of that file
is recognized (`Path.Recognizes`), this is the graph itself, so no run scans it, and saving the graph leaves the
files of the project as they are.  Where it is not recognized the graph is a file of its project like any other
(`exists_denotes_iff`).

An absolute root that is spelled in the usual way is recognized, and so is the working directory.  A relative root
that leads elsewhere never is (`projectFiles_hold_graph`).
-/

namespace ChangeImpact.CommandLine

open ChangeImpact.Path

variable {settings : Settings} {disk after : Disk} {listed files : List String} {path : String}
  {names : List Segment}

/-! ## Sorted lists with something left out -/

/-- Lists that differ only in what is left out are the same when they are sorted and it is left out. -/
theorem filter_mergeSort_eq {first second : List String} {keep : String → Bool}
    (h : first.filter keep = second.filter keep) :
    (first.mergeSort (· ≤ ·)).filter keep = (second.mergeSort (· ≤ ·)).filter keep := by
  have hperm : ((first.mergeSort (· ≤ ·)).filter keep).Perm ((second.mergeSort (· ≤ ·)).filter keep) :=
    ((List.mergeSort_perm first _).filter keep).trans (h ▸ ((List.mergeSort_perm second _).filter keep).symm)
  refine hperm.eq_of_pairwise (fun _ _ _ _ hle hge => ?_) ((pairwise_mergeSort_le first).filter keep)
    ((pairwise_mergeSort_le second).filter keep)
  rw [decide_eq_true_iff] at hle hge
  exact String.le_antisymm hle hge

/-! ## Names and paths -/

/-- A path that is spelled with the names on the way, so it does not lead out of where it starts. -/
def Spelled (path : String) : Prop :=
  ∃ names, names ≠ [] ∧ (∀ name ∈ names, Named name ∧ Plain name) ∧ path.toList = ['/'].intercalate names

/-- A path that is spelled with names leads from the project's directory to the file in which the graph is kept. -/
structure Denotes (settings : Settings) (disk : Disk) (path : String) : Prop where
  spelled : Spelled path
  leads : ∃ place, disk.locate (String.ofList (tidyJoin settings.projectRoot.toList path.toList)) = .ok place ∧
    disk.locate (String.ofList (tidy settings.graphPath.toList)) = .ok place

/-- The paths of a run are written as usual: the working directory is absolute, and neither backslashes nor blanks
make the key of a path another than its text says. -/
structure Usual (settings : Settings) (disk : Disk) : Prop where
  working : isAbsolute disk.workingDirectory.toList = true
  root : '\\' ∉ rootPath (rootOn settings disk)
  graphPath : ∀ segment ∈ settings.graphPath.toList.splitOn '/', Tame segment

/-- The working directory is that of the root, as well. -/
theorem Usual.working_rootOn (h : Usual settings disk) :
    isAbsolute (rootOn settings disk).workingDirectory.toList = true :=
  h.working

theorem Usual.tame (h : Usual settings disk) : Tame settings.graphPath.toList :=
  tame_of_splitOn h.graphPath

theorem route_of_denotes (husual : Usual settings disk) (hnames : ∀ name ∈ names, Named name ∧ Plain name)
    (hpath : path.toList = ['/'].intercalate names) (h : Denotes settings disk path) :
    route disk.workingDirectory.toList settings.graphPath.toList = rootRoute (rootOn settings disk) ++ names := by
  obtain ⟨place, hplace, hgraph⟩ := h.leads
  have hsegments : tidySegments path.toList = names := by
    rw [hpath, tidySegments_intercalate fun name hname => ⟨(hnames name hname).1, (hnames name hname).2.2.1⟩]
  have hrelative : isAbsolute path.toList = false := by
    rw [hpath, isAbsolute_intercalate fun name hname => (hnames name hname).1]
  have hleft := Disk.map_toList_of_locate husual.working hplace
  have hright := Disk.map_toList_of_locate husual.working hgraph
  rw [tidyJoin, route_tidy husual.working, route_join husual.working hrelative] at hleft
  · rw [← route_tidy husual.working, ← hright, hleft, hsegments]
    rfl
  · rw [hsegments]
    exact fun name hname => (hnames name hname).2

/-! ## The files of a project -/

theorem projectFiles_eq (hlisted : disk.listing settings.projectRoot settings.includeExtensions = .ok listed) :
    projectFiles settings disk =
      .ok (listed.filter (· != key (some (rootOn settings disk)) settings.graphPath)) := by
  rw [projectFiles, hlisted]
  rfl

/-- The file of the graph is left out if and only if its path is recognized. -/
theorem key_eq_iff_of_denotes (husual : Usual settings disk) (h : Denotes settings disk path) :
    key (some (rootOn settings disk)) settings.graphPath = path ↔
      Recognizes (rootOn settings disk) settings.graphPath.toList := by
  obtain ⟨names, hsome, hnames, hpath⟩ := h.spelled
  rw [← keyChars_eq_iff_of_route husual.working_rootOn husual.root husual.tame hnames hsome
    (route_of_denotes husual hnames hpath h), ← hpath, ← String.toList_inj, key, String.toList_ofList]

/-! ## Saving the graph -/

/-- A file with a usual name is listed by the names on the way to it. -/
theorem toList_placeKey {place : List String} (hsome : place ≠ [])
    (hnames : ∀ name ∈ place.map String.toList, (Named name ∧ Plain name) ∧ Tame name) :
    (placeKey place).toList = ['/'].intercalate (place.map String.toList) := by
  have hsome' : place.map String.toList ≠ [] := by simpa using hsome
  have hnamed : ∀ name ∈ place.map String.toList, Named name := fun name hname => (hnames name hname).1.1
  have hplain : ∀ part ∈ (['/'].intercalate (place.map String.toList)).splitOn '/', Plain part := by
    rw [List.splitOn_intercalate '/' (fun name hname => (hnamed name hname).2) hsome']
    exact fun name hname => (hnames name hname).1.2
  have htame := tame_intercalate fun name hname => (hnames name hname).2
  rw [placeKey, key, String.toList_ofList, String.toList_intercalate]
  show keyChars none (['/'].intercalate _) = _
  rw [keyChars_of_relative none htame (isAbsolute_intercalate hnamed)]
  exact collapseKey_eq_self hplain

/-- A file whose place is that of a recognized path is listed under the key of that path. -/
theorem placeKey_of_route (husual : Usual settings disk)
    (hrecognizes : Recognizes (rootOn settings disk) settings.graphPath.toList) {place : List String}
    (hsome : place ≠ []) (hroute : route disk.workingDirectory.toList settings.graphPath.toList =
      rootRoute (rootOn settings disk) ++ place.map String.toList) :
    placeKey place = key (some (rootOn settings disk)) settings.graphPath := by
  have hnames : ∀ name ∈ place.map String.toList, Named name ∧ Plain name := by
    intro name hname
    have hmem : name ∈ route disk.workingDirectory.toList settings.graphPath.toList :=
      hroute ▸ List.mem_append_right _ hname
    exact ⟨named_of_mem_segments hmem, plain_of_mem_route husual.working hmem⟩
  have htame : ∀ name ∈ place.map String.toList, Tame name := by
    intro name hname
    refine husual.graphPath name (mem_splitOn_of_mem_segments ?_)
    rw [Recognizes] at hrecognizes
    split at hrecognizes
    · rename_i habsolute
      rw [route_of_isAbsolute habsolute] at hroute
      exact hroute ▸ List.mem_append_right _ hname
    · rename_i hrelative
      rw [Bool.not_eq_true] at hrelative
      have hgoes := (route_of_relative husual.working hrelative hrecognizes.2).1
      rw [hroute, hrecognizes.1] at hgoes
      exact List.append_cancel_left hgoes ▸ hname
  have hkey := (keyChars_eq_iff_of_recognizes husual.working_rootOn husual.root husual.tame hnames (by simpa using hsome)
    hrecognizes).mpr hroute
  rw [← String.toList_inj, toList_placeKey hsome fun name hname => ⟨hnames name hname, htame name hname⟩, key,
    String.toList_ofList, hkey]

/-- The place to which the path of the graph leads, as its text tells. -/
def graphPlace (settings : Settings) (disk : Disk) : List String :=
  (route disk.workingDirectory.toList settings.graphPath.toList).map String.ofList

theorem listing_eq {directory : String} {extensions : List String} {place : List String}
    {entries : List (String × FileTree)} (hplace : disk.locate (String.ofList (tidy directory.toList)) = .ok place)
    (hentries : disk.tree.at? place = some (.directory entries)) : disk.listing directory extensions =
      .ok (((((FileTree.directory entries).places skippedDirectories).filter fun place =>
        hasExtension extensions (place.getLast?.getD "")).map placeKey).mergeSort (· ≤ ·)) := by
  have hfind : disk.find (String.ofList (tidy directory.toList)) = .ok (.directory entries) := by
    rw [Disk.find, hplace]
    simp only [bind, Except.bind, hentries]
    rfl
  unfold Disk.listing
  rw [hfind]

/-- A recognized graph makes no difference to the files of its project. -/
theorem projectFiles_of_keeps (husual : Usual settings disk)
    (hrecognizes : Recognizes (rootOn settings disk) settings.graphPath.toList)
    (hroot : disk.isDirectory (String.ofList (tidy settings.projectRoot.toList)) = true)
    (hkeeps : disk.Keeps {graphPlace settings disk} after) :
    projectFiles settings after = projectFiles settings disk := by
  obtain ⟨place, hplace, hdirectory⟩ := Disk.isDirectory_iff.mp hroot
  obtain ⟨entries, hentries⟩ := FileTree.hasDirectory_iff.mp hdirectory
  obtain ⟨others, hothers, hsame⟩ := hkeeps.tree place entries hentries
  have hplaced : after.locate (String.ofList (tidy settings.projectRoot.toList)) = .ok place :=
    Disk.locate_of_hasDirectory (fun _ => hkeeps.tree.hasDirectory) hkeeps.workingDirectory hplace
  have hkey : rootOn settings after = rootOn settings disk := by
    rw [rootOn, rootOn, hkeeps.workingDirectory]
  rw [projectFiles_eq (listing_eq hplaced hothers), projectFiles_eq (listing_eq hplace hentries), hkey]
  generalize hgraph : key (some (rootOn settings disk)) settings.graphPath = graph
  refine congrArg Except.ok (filter_mergeSort_eq ?_)
  rw [List.filter_map, List.filter_map, List.filter_filter, List.filter_filter]
  refine congrArg _ (hsame _ _ fun below hsome hkept hmem => ?_)
  -- the file at the place of the graph is the one that is left out
  have hroute : route disk.workingDirectory.toList settings.graphPath.toList =
      rootRoute (rootOn settings disk) ++ below.map String.toList := by
    have hplace := Disk.map_toList_of_locate husual.working hplace
    rw [route_tidy husual.working] at hplace
    have hnames := congrArg (List.map String.toList) (Set.mem_singleton_iff.mp hmem)
    rw [graphPlace, List.map_append, hplace] at hnames
    show _ = route disk.workingDirectory.toList settings.projectRoot.toList ++ _
    simpa [Function.comp_def] using hnames.symm
  have hlisted := placeKey_of_route husual hrecognizes hsome hroute
  simp [hlisted, hgraph] at hkept

theorem ends_saveGraph (husual : Usual settings disk) (g : Graph) :
    Ends (Disk.saveGraph settings.graphPath g) disk (fun _ after => disk.Keeps {graphPlace settings disk} after)
      (fun _ after => disk.Keeps {graphPlace settings disk} after) := by
  unfold Disk.saveGraph Disk.writeDocument
  refine Disk.keeps_write _ _ fun made hmade place hplace => ?_
  have hworking : isAbsolute made.workingDirectory.toList = true := hmade ▸ husual.working
  have hroute := Disk.map_toList_of_locate hworking hplace
  rw [route_tidy hworking, hmade] at hroute
  rw [Set.mem_singleton_iff, graphPlace, ← hroute]
  simp

/-- The file of the graph is among the files of its project if it is listed and its path is not recognized, and
only then.  If its path is recognized, every graph may be saved, in whatever way that ends, and the files of the
project stay the same.  Below an absolute root that is not the top every relative path of the graph is recognized. -/
theorem exists_denotes_iff (husual : Usual settings disk)
    (hlisted : disk.listing settings.projectRoot settings.includeExtensions = .ok listed) :
    ∃ files, projectFiles settings disk = .ok files ∧
      ((∃ path ∈ files, Denotes settings disk path) ↔
        (∃ path ∈ listed, Denotes settings disk path) ∧
          ¬ Recognizes (rootOn settings disk) settings.graphPath.toList) ∧
      (Recognizes (rootOn settings disk) settings.graphPath.toList →
        disk.isDirectory (String.ofList (tidy settings.projectRoot.toList)) = true →
        ∀ g, projectFiles settings (stateAfter (Disk.saveGraph settings.graphPath g) disk) = .ok files) ∧
      (isAbsolute settings.projectRoot.toList = true → isAbsolute settings.graphFile.toList = false →
        rootRoute (rootOn settings disk) ≠ [] → Recognizes (rootOn settings disk) settings.graphPath.toList) := by
  refine ⟨_, projectFiles_eq hlisted, ⟨?_, ?_⟩, fun hrecognizes hroot g => ?_, fun habsolute hrelative htop => ?_⟩
  · rintro ⟨path, hpath, hdenotes⟩
    obtain ⟨hmem, hkept⟩ := List.mem_filter.mp hpath
    refine ⟨⟨path, hmem, hdenotes⟩, fun hrecognizes => ?_⟩
    have hkey := (key_eq_iff_of_denotes husual hdenotes).mpr hrecognizes
    simp [hkey] at hkept
  · rintro ⟨⟨path, hmem, hdenotes⟩, hnot⟩
    refine ⟨path, List.mem_filter.mpr ⟨hmem, ?_⟩, hdenotes⟩
    have hkey := mt (key_eq_iff_of_denotes husual hdenotes).mp hnot
    simpa using Ne.symm hkey
  · rw [← projectFiles_eq hlisted]
    have hkeeps : disk.Keeps {graphPlace settings disk} (stateAfter (Disk.saveGraph settings.graphPath g) disk) :=
      (ends_saveGraph husual g).of_either (fun _ _ h => h) fun _ _ h => h
    exact projectFiles_of_keeps husual hrecognizes hroot hkeeps
  · rw [Settings.graphPath, if_neg (by simp [hrelative]), String.toList_ofList]
    exact recognizes_join habsolute hrelative htop

/-- Below a root that is spelled from the top the graph is left out, and below the same root spelled from the
working directory it is found. -/
theorem exists_denotes_iff_of_two_roots : ∃ (disk : Disk) (absolute relative : Settings),
    absolute.projectRoot = "/web" ∧ relative.projectRoot = "web" ∧
    (∃ files, projectFiles absolute disk = .ok files ∧ (¬ ∃ path ∈ files, Denotes absolute disk path) ∧
      ∀ g, projectFiles absolute (stateAfter (Disk.saveGraph absolute.graphPath g) disk) = .ok files) ∧
    ∃ files, projectFiles relative disk = .ok files ∧ ∃ path ∈ files, Denotes relative disk path := by
  let graph : FileTree := .directory [("graph.json", .file [] (.ofWholeSeconds 0))]
  let disk : Disk := { tree := .directory [("web", .directory [(".testimpact", graph)])] }
  let absolute : Settings := { projectRoot := "/web" }
  let relative : Settings := { projectRoot := "web" }
  have habsolute : Usual absolute disk := ⟨by decide, by decide, by decide⟩
  have hrelative : Usual relative disk := ⟨by decide, by decide, by decide⟩
  have hspelled : Spelled ".testimpact/graph.json" :=
    ⟨[".testimpact".toList, "graph.json".toList], by decide, by decide, by decide⟩
  have hfirst : disk.listing absolute.projectRoot absolute.includeExtensions = .ok [".testimpact/graph.json"] := by
    decide +kernel
  have hsecond : disk.listing relative.projectRoot relative.includeExtensions = .ok [".testimpact/graph.json"] := by
    decide +kernel
  refine ⟨disk, absolute, relative, rfl, rfl, ?_, ?_⟩
  · obtain ⟨files, hfiles, hdenotes, hsaved, hjoined⟩ := exists_denotes_iff habsolute hfirst
    have hrecognizes := hjoined (by decide) (by decide) (by decide)
    exact ⟨files, hfiles, fun h => (hdenotes.mp h).2 hrecognizes, hsaved hrecognizes (by decide +kernel)⟩
  · obtain ⟨files, hfiles, hdenotes, -⟩ := exists_denotes_iff hrelative hsecond
    refine ⟨files, hfiles, hdenotes.mpr ⟨⟨_, List.mem_singleton_self _, ?_⟩, by decide⟩⟩
    exact ⟨hspelled, ["web", ".testimpact", "graph.json"], by decide +kernel, by decide +kernel⟩

/-- A graph that is kept below a root that is neither absolute nor the working directory is a file of its
project. -/
theorem projectFiles_hold_graph : ∃ (settings : Settings) (disk : Disk), settings.projectRoot = "web" ∧
    settings.graphFile = ".testimpact/graph.json" ∧ projectFiles settings disk = .ok [".testimpact/graph.json"] ∧
    Denotes settings disk ".testimpact/graph.json" := by
  let graph : FileTree := .directory [("graph.json", .file [] (.ofWholeSeconds 0))]
  let disk : Disk := { tree := .directory [("web", .directory [(".testimpact", graph)])] }
  let settings : Settings := { projectRoot := "web" }
  have hspelled : Spelled ".testimpact/graph.json" :=
    ⟨[".testimpact".toList, "graph.json".toList], by decide, by decide, by decide⟩
  refine ⟨settings, disk, rfl, rfl, by decide +kernel, hspelled, ?_⟩
  exact ⟨["web", ".testimpact", "graph.json"], by decide +kernel, by decide +kernel⟩

end ChangeImpact.CommandLine
