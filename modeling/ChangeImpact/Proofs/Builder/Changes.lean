import ChangeImpact.Proofs.Builder.Texts

/-!
# Lists of changes

A list of changes is taken into the nodes one change after another, and only then are files scanned and
linked, all of them if any node has come or gone.  The record follows the list (`Record.change`).  If no
file is both removed and scanned, then neither the order of the changes nor their repetition matters:
what is scanned is there, what is removed is not, and all else is as it was.

So a graph of texts to which changes have been applied agrees with one that is built of the texts that
the changes lead to (`changes_agree_with_build`).
-/

namespace ChangeImpact.Builder

variable {builder : Builder} {record : Record} {g : Graph} {path : String} {changes : List Change}

/-! ## What a change does to the record -/

/-- The keys of the files that a change removes. -/
def removedBy (builder : Builder) (change : Change) : List String :=
  match change.operation with
  | .deleted => [builder.key change.path]
  | .renamed => (change.formerPath?.map builder.key).toList
  | _ => []

/-- The key of the file that a change asks to scan, which is not the root. -/
def scannedBy? (builder : Builder) (change : Change) : Option String :=
  if change.operation = .deleted ∨ builder.key change.path = "" then none
  else some (builder.key change.path)

/-- The keys of the files that some changes remove. -/
def removedKeys (builder : Builder) (changes : List Change) : List String :=
  changes.flatMap builder.removedBy

/-- The keys of the files that some changes ask to scan. -/
def scannedKeys (builder : Builder) (changes : List Change) : List String :=
  changes.filterMap builder.scannedBy?

/-- A change drops files, and then a file becomes known. -/
def Record.change (builder : Builder) (record : Record) (change : Change) : Record :=
  let dropped := (builder.removedBy change).foldl Record.drop record
  match builder.scannedBy? change with
  | none => dropped
  | some key => dropped.add key

/-- The second half of a change: the file becomes known, whether or not another has been dropped. -/
def enter (key : String) (dropped : Bool) : BuildStep (Bool × Option String) := do
  if key.isEmpty then return (dropped, none)
  let added ← ensureNode key
  return (dropped || added, some key)

theorem applyChange_of_deleted {change : Change} (h : change.operation = .deleted) :
    builder.applyChange change = (do return (← dropNode (builder.key change.path), none)) := by
  simp only [applyChange, h]

theorem applyChange_of_renamed {change : Change} (h : change.operation = .renamed)
    {former : String} (hformer : change.formerPath? = some former) :
    builder.applyChange change =
      dropNode (builder.key former) >>= enter (builder.key change.path) := by
  unfold applyChange enter
  simp only [h, hformer]

/-- A change that removes nothing is one that enters its file. -/
theorem applyChange_of_kept {change : Change} (h : change.operation ≠ .deleted)
    (hformer : change.operation = .renamed → change.formerPath? = none) :
    builder.applyChange change = enter (builder.key change.path) false := by
  unfold applyChange enter
  cases hoperation : change.operation with
  | deleted => exact absurd hoperation h
  | added => simp only [pure_bind]
  | modified => simp only [pure_bind]
  | renamed => simp only [hformer hoperation, pure_bind]

theorem removedBy_of_kept {change : Change} (h : change.operation ≠ .deleted)
    (hformer : change.operation = .renamed → change.formerPath? = none) :
    builder.removedBy change = [] := by
  unfold removedBy
  cases hoperation : change.operation with
  | deleted => exact absurd hoperation h
  | added => rfl
  | modified => rfl
  | renamed => simp [hformer hoperation]

theorem scannedBy?_of_ne_deleted {change : Change} (h : change.operation ≠ .deleted) :
    builder.scannedBy? change =
      if builder.key change.path = "" then none else some (builder.key change.path) := by
  simp [scannedBy?, h]

theorem ends_enter (hg : Recorded record g) (key : String) (dropped : Bool) :
    Ends (enter key dropped) g
      (fun outcome after => outcome.2 = (if key = "" then none else some key) ∧
        Recorded (if key = "" then record else record.add key) after ∧
        (outcome.1 = false → dropped = false ∧ after = g))
      (fun _ _ => False) := by
  unfold enter
  by_cases hempty : key = ""
  · rw [if_pos hempty, if_pos hempty, hempty]
    exact .pure ⟨rfl, hg, fun hdropped => ⟨hdropped, rfl⟩⟩
  · have hnot : key.isEmpty = false := by
      rwa [← Bool.not_eq_true, String.isEmpty_iff]
    simp only [hnot, hempty, if_false]
    refine (hg.ends_ensureNode key).bind ?_
    rintro added after ⟨-, hrecorded, hsame⟩
    refine .pure ⟨rfl, hrecorded, fun hneither => ?_⟩
    rw [Bool.or_eq_false_iff] at hneither
    exact ⟨hneither.1, hsame hneither.2⟩

/-- Entering a file ends a change, if what the change removes has been dropped before. -/
private theorem ends_enter_change {change : Change} {dropped : Bool} {state : Graph}
    (h : change.operation ≠ .deleted)
    (hstate : Recorded ((builder.removedBy change).foldl Record.drop record) state)
    (hsame : dropped = false → state = g) :
    Ends (enter (builder.key change.path) dropped) state
      (fun outcome after => outcome.2 = builder.scannedBy? change ∧
        Recorded (record.change builder change) after ∧ (outcome.1 = false → after = g))
      (fun _ _ => False) := by
  refine (ends_enter hstate (builder.key change.path) dropped).imp ?_
  rintro outcome after ⟨houtcome, hrecorded, hleft⟩
  rw [Record.change, scannedBy?_of_ne_deleted h]
  refine ⟨houtcome, ?_, fun hneither => ?_⟩
  · by_cases hempty : builder.key change.path = ""
    · simpa [hempty] using hrecorded
    · simpa [hempty] using hrecorded
  · obtain ⟨hdropped, hafter⟩ := hleft hneither
    rw [hafter, hsame hdropped]

/-- Taking a change into the nodes changes the record.  The graph is left alone if the change tells
that no file has come or gone. -/
theorem ends_applyChange (hg : Recorded record g) (change : Change) :
    Ends (builder.applyChange change) g
      (fun outcome after => outcome.2 = builder.scannedBy? change ∧
        Recorded (record.change builder change) after ∧ (outcome.1 = false → after = g))
      (fun _ _ => False) := by
  by_cases hdeleted : change.operation = .deleted
  · rw [applyChange_of_deleted hdeleted]
    refine (hg.ends_dropNode (builder.key change.path)).bind ?_
    rintro dropped after ⟨-, hrecorded, hsame⟩
    have hscanned : builder.scannedBy? change = none := if_pos (.inl hdeleted)
    refine .pure ⟨hscanned.symm, ?_, hsame⟩
    rw [Record.change, hscanned]
    simpa [removedBy, hdeleted] using hrecorded
  -- a renaming that names no former path is entered like any other change
  by_cases hformer : change.operation = .renamed → change.formerPath? = none
  · rw [applyChange_of_kept hdeleted hformer]
    refine ends_enter_change hdeleted ?_ fun _ => rfl
    rwa [removedBy_of_kept hdeleted hformer]
  · obtain ⟨hrenamed, hsome⟩ := Classical.not_imp.mp hformer
    obtain ⟨former, hformer⟩ := Option.ne_none_iff_exists'.mp hsome
    rw [applyChange_of_renamed hrenamed hformer]
    refine (hg.ends_dropNode (builder.key former)).bind ?_
    rintro dropped after ⟨-, hrecorded, hsame⟩
    refine ends_enter_change hdeleted ?_ hsame
    simpa [removedBy, hrenamed, hformer] using hrecorded

/-! ## What a list of changes does to the record -/

theorem foldl_drop_apply (keys : List String) (record : Record) (path : String) :
    keys.foldl Record.drop record path = if path ∈ keys then none else record path := by
  induction keys generalizing record with
  | nil => rfl
  | cons key rest ih =>
      rw [List.foldl_cons, ih, Record.drop, Function.update_apply]
      by_cases hrest : path ∈ rest
      · simp [hrest]
      · by_cases hkey : path = key
        · simp [hkey]
        · simp [hrest, hkey]

theorem change_apply_of_ne {change : Change} (h : builder.scannedBy? change ≠ some path) :
    record.change builder change path =
      if path ∈ builder.removedBy change then none else record path := by
  unfold Record.change
  rw [← foldl_drop_apply]
  cases hscanned : builder.scannedBy? change with
  | none => rfl
  | some key =>
      have hne : path ≠ key := fun heq => h (heq ▸ hscanned)
      exact Function.update_of_ne hne _ _

/-- A file that is not scanned is there if it was and has not been removed. -/
theorem foldl_change_apply_of_not_scanned (hpath : path ∉ builder.scannedKeys changes) :
    changes.foldl (Record.change builder) record path =
      if path ∈ builder.removedKeys changes then none else record path := by
  induction changes generalizing record with
  | nil => rfl
  | cons change rest ih =>
      have hfirst : builder.scannedBy? change ≠ some path := fun h =>
        hpath (List.mem_filterMap.mpr ⟨change, List.mem_cons_self .., h⟩)
      have hrest : path ∉ builder.scannedKeys rest := fun h => by
        obtain ⟨other, hother, hscanned⟩ := List.mem_filterMap.mp h
        exact hpath (List.mem_filterMap.mpr ⟨other, List.mem_cons_of_mem _ hother, hscanned⟩)
      rw [List.foldl_cons, ih hrest, change_apply_of_ne hfirst]
      unfold removedKeys
      by_cases hremoved : path ∈ builder.removedBy change
      · simp [hremoved]
      · simp [hremoved]

theorem change_known {change : Change} (hremoved : path ∉ builder.removedBy change)
    (h : builder.scannedBy? change = some path ∨ ∃ scan, record path = some scan) :
    ∃ scan, record.change builder change path = some scan := by
  by_cases hscanned : builder.scannedBy? change = some path
  · unfold Record.change
    rw [hscanned]
    exact ⟨_, Function.update_self ..⟩
  · rw [change_apply_of_ne hscanned, if_neg hremoved]
    exact h.resolve_left hscanned

/-- A file that is not removed is there if it was or is scanned. -/
theorem foldl_change_known (hremoved : path ∉ builder.removedKeys changes)
    (h : path ∈ builder.scannedKeys changes ∨ ∃ scan, record path = some scan) :
    ∃ scan, changes.foldl (Record.change builder) record path = some scan := by
  induction changes generalizing record with
  | nil => exact h.resolve_left List.not_mem_nil
  | cons change rest ih =>
      rw [removedKeys, List.flatMap_cons, List.mem_append, not_or] at hremoved
      rw [List.foldl_cons]
      refine ih hremoved.2 ?_
      -- either a later change scans the file, or it has to be there after this one
      by_cases hlater : path ∈ builder.scannedKeys rest
      · exact .inl hlater
      · refine .inr (change_known hremoved.1 ?_)
        refine h.imp_left fun hscanned => ?_
        obtain ⟨other, hother, hpath⟩ := List.mem_filterMap.mp hscanned
        rcases List.mem_cons.mp hother with rfl | hother
        · exact hpath
        · exact absurd (List.mem_filterMap.mpr ⟨other, hother, hpath⟩) hlater

/-! ## Applying changes -/

/-- Some changes have been taken into the nodes, with these outcomes. -/
structure ChangesTaken (builder : Builder) (record : Record) (before : Graph) (changes : List Change)
    (outcomes : List (Bool × Option String)) (after : Graph) : Prop where
  scanned : outcomes.filterMap (·.2) = builder.scannedKeys changes
  recorded : Recorded (changes.foldl (Record.change builder) record) after
  unchanged : outcomes.any (·.1) = false → after = before

theorem ChangesTaken.ends_applyChange {done : List Change} {outcomes : List (Bool × Option String)} {state : Graph}
    (h : ChangesTaken builder record g done outcomes state) (change : Change) :
    Ends (builder.applyChange change) state
      (fun outcome after => ChangesTaken builder record g (done ++ [change]) (outcomes ++ [outcome]) after)
      (fun _ _ => False) := by
  refine (Builder.ends_applyChange h.recorded change).imp ?_
  rintro outcome after ⟨hscanned, hafter, hleft⟩
  refine ⟨?_, ?_, fun hneither => ?_⟩
  · have houtcomes := h.scanned
    simp only [scannedKeys] at houtcomes
    simp [scannedKeys, List.filterMap_append, houtcomes, hscanned, List.filterMap_cons]
  · simpa using hafter
  · rw [List.any_append, Bool.or_eq_false_iff] at hneither
    rw [hleft (by simpa using hneither.2), h.unchanged hneither.1]

theorem ends_takeChanges (hg : Recorded record g) (changes : List Change) :
    Ends (changes.mapM builder.applyChange) g (ChangesTaken builder record g changes) (fun _ _ => False) := by
  refine .mapM (ChangesTaken builder record g) ?_ ⟨rfl, hg, fun _ => rfl⟩
  exact fun done change rest outcomes state _ hdone => hdone.ends_applyChange change

/-- The files that some changes ask to scan, in the order in which they are scanned. -/
def scanOrder (builder : Builder) (changes : List Change) : List String :=
  (PathSet.ofList (builder.scannedKeys changes)).toList

theorem mem_scanOrder : path ∈ builder.scanOrder changes ↔ path ∈ builder.scannedKeys changes :=
  PathSet.mem_ofList

/-- A file that several changes name is scanned once. -/
theorem scan_scanOrder (found : String → Scan) :
    record.scan (builder.scanOrder changes) found =
      record.scan (builder.scannedKeys changes) found := by
  funext path
  simp only [Record.scan, mem_scanOrder]

/-- The changes are taken into the nodes, and then the passes are made over the files that they ask to
scan, whether or not there still is a node for each of them. -/
theorem ends_applyChanges_of_recorded (hg : Recorded record g) (changes : List Change) :
    Ends (builder.applyChanges changes) g
      (fun _ after => ∃ all taken, Recorded (changes.foldl (Record.change builder) record) taken ∧
        (all = false → taken = g) ∧
        Passed builder (changes.foldl (Record.change builder) record) taken builder.pool
          builder.reader all (builder.scanOrder changes) after)
      (fun fault after => ∃ taken, Recorded (changes.foldl (Record.change builder) record) taken ∧
        Halted builder (changes.foldl (Record.change builder) record) taken builder.pool
          builder.reader (builder.scanOrder changes) fault after) := by
  unfold applyChanges
  refine (ends_takeChanges hg changes).total.bind ?_
  rintro outcomes taken ⟨houtcomes, hrecorded, hsame⟩
  rw [houtcomes]
  refine (ends_passes builder builder.pool builder.reader (outcomes.any (·.1)) hrecorded
    (PathSet.nodup_toList _)).mono ?_ ?_
  · exact fun _ _ hpassed => ⟨_, taken, hrecorded, hsame, hpassed⟩
  · exact fun _ _ hhalted => ⟨taken, hrecorded, hhalted⟩

/-- Applying changes of which none removes what another one scans settles the graph, unless there is an
obstacle to the scan. -/
theorem ends_applyChanges (hplain : builder.aliases.Plain) (hg : Settled builder record g)
    (hdisjoint : ∀ path ∈ builder.removedKeys changes, path ∉ builder.scannedKeys changes) :
    Ends (builder.applyChanges changes) g
      (fun _ after => Settled builder
        ((changes.foldl (Record.change builder) record).scan (builder.scannedKeys changes)
          (builder.scanOf builder.reader)) after)
      (fun fault _ =>
        Obstacle builder.pool builder.reader (builder.scannedKeys changes) fault) := by
  refine (ends_applyChanges_of_recorded hg.recorded changes).mono ?_ ?_
  · rintro _ after ⟨all, taken, -, hsame, hpassed⟩
    rw [← scan_scanOrder]
    refine ⟨hpassed.recorded, (hpassed.resolved fun hall path _ => ?_).linked⟩
    exact hsame hall ▸ hg.resolved hplain path
  · rintro fault after ⟨taken, hrecorded, ⟨-, hblocked⟩ | ⟨-, hlost⟩⟩
    · have hknown : ∀ path ∈ builder.scanOrder changes, path ∈ taken.nodes := fun path hpath =>
        hrecorded.mem_nodes.mpr (foldl_change_known
          (fun hremoved => hdisjoint path hremoved (mem_scanOrder.mp hpath))
          (.inl (mem_scanOrder.mp hpath)))
      exact (hblocked.obstacle hknown).mono fun path hpath => mem_scanOrder.mp hpath
    · exact (hlost.elim hplain).elim

/-- A graph that was built of texts, and to which changes have been applied, agrees with the graph of
the texts that the changes lead to: the removed files are gone, the scanned ones are there with the text
that the reader gives, and all others are as they were. -/
theorem changes_agree_with_build (hplain : builder.aliases.Plain)
    {first second : List (String × String)} (hbuild : builder.build (.contents first) = .ok g)
    (hdisjoint : ∀ path ∈ builder.removedKeys changes, path ∉ builder.scannedKeys changes)
    (hkeys : ∀ path, path ∈ builder.texts second ↔
      (path ∈ builder.texts first ∧ path ∉ builder.removedKeys changes) ∨
        path ∈ builder.scannedKeys changes)
    (hsame : ∀ path ∈ builder.texts second, path ∉ builder.scannedKeys changes →
      (builder.texts second).get? path = (builder.texts first).get? path)
    (hserves : Serves builder.reader (builder.texts second)) :
    (builder.pool.hasWorkers = true → ∃ h, builder.build (.contents second) = .ok h) ∧
      ∀ h, builder.build (.contents second) = .ok h →
        ∃ after, builder.applyChanges changes g = .ok ⟨⟩ after ∧ after.same h = true ∧
          after.diagnostics.Perm h.diagnostics := by
  refine ⟨fun hworkers => exists_build_contents hplain hworkers second, fun h hrebuild => ?_⟩
  have hstart := (of_build hbuild).1
  obtain ⟨hscratch, hobstacle⟩ := of_build hrebuild
  rw [recordOf_contents] at hstart hscratch
  have hscanned : ∀ path ∈ builder.scannedKeys changes, path ∈ builder.texts second :=
    fun path hpath => (hkeys path).mpr (.inr hpath)
  -- whatever stood in the way of the scan would have stood in the way of building
  have hfree : ∀ fault,
      ¬ Obstacle builder.pool builder.reader (builder.scannedKeys changes) fault := by
    rintro fault (⟨hpath, hkind, hpool⟩ | ⟨hpath, hkind, hfault⟩)
    · exact hobstacle _ (.noWorkers (mem_keysOf_contents.mpr (hscanned _ hpath)) hkind hpool)
    · obtain ⟨content, hcontent⟩ := Table.mem_iff_exists.mp (hscanned _ hpath)
      rw [(hserves _ content hcontent).2] at hfault
      cases hfault
  obtain ⟨_, after, hsteps, hafter⟩ := (ends_applyChanges hplain hstart hdisjoint).succeeds
    fun fault _ => hfree fault
  have hrecord : ((changes.foldl (Record.change builder)
      (builder.textRecord (builder.texts first))).scan (builder.scannedKeys changes)
      (builder.scanOf builder.reader)) = builder.textRecord (builder.texts second) := by
    funext path
    rw [Record.scan, textRecord]
    split
    · rename_i hpath
      obtain ⟨content, hcontent⟩ := Table.mem_iff_exists.mp (hscanned path hpath)
      rw [hcontent, scanOf_of_serves hserves hcontent]
      rfl
    · rename_i hpath
      rw [foldl_change_apply_of_not_scanned hpath, textRecord]
      have hmem := hkeys path
      simp only [hpath, or_false] at hmem
      by_cases htexts : path ∈ builder.texts second
      · rw [if_neg (hmem.mp htexts).2, hsame path htexts hpath]
      · rw [Table.get?_eq_none_iff.mpr htexts]
        split
        · rfl
        · rename_i hremoved
          rw [Table.get?_eq_none_iff.mpr fun hfirst => htexts (hmem.mpr ⟨hfirst, hremoved⟩)]
  rw [hrecord] at hafter
  exact ⟨after, hsteps, hafter.agree hscratch (.refl _)⟩

/-- A file is renamed, the file that imports it follows, and a file that was never there is deleted. -/
theorem changes_agree_with_build_of_renaming :
    ∃ (builder : Builder) (g after h : Graph),
      builder.build (.contents [("a.ts", "import './b'"), ("b.ts", ""), ("d.css", "")]) = .ok g ∧
      builder.applyChanges [⟨"c.ts", .renamed, some "b.ts"⟩, ⟨"./a.ts", .modified, none⟩,
        ⟨"z.ts", .deleted, none⟩, ⟨"a.ts", .modified, none⟩] g = .ok ⟨⟩ after ∧
      builder.build (.contents [("c.ts", ""), ("a.ts", "import './c'"), ("d.css", "")]) = .ok h ∧
      after.same h = true ∧ after.diagnostics.Perm h.diagnostics := by
  let first := [("a.ts", "import './b'"), ("b.ts", ""), ("d.css", "")]
  let second := [("c.ts", ""), ("a.ts", "import './c'"), ("d.css", "")]
  let changes : List Change := [⟨"c.ts", .renamed, some "b.ts"⟩, ⟨"./a.ts", .modified, none⟩,
    ⟨"z.ts", .deleted, none⟩, ⟨"a.ts", .modified, none⟩]
  let builder : Builder := { reader := .ofTable (.ofList second) }
  have hplain : builder.aliases.Plain := nofun
  have hfirst : (builder.texts first).keys = ["a.ts", "b.ts", "d.css"] := by decide +kernel
  have hsecond : (builder.texts second).entries = second := by decide +kernel
  have hremoved : builder.removedKeys changes = ["b.ts", "z.ts"] := by decide +kernel
  have hscanned : builder.scannedKeys changes = ["c.ts", "a.ts", "a.ts"] := by decide +kernel
  have hkeys : ∀ path, path ∈ builder.texts second ↔
      (path ∈ builder.texts first ∧ path ∉ builder.removedKeys changes) ∨
        path ∈ builder.scannedKeys changes := by
    intro path
    rw [← Table.mem_keys, ← Table.mem_keys, hfirst, Table.keys, hsecond, hremoved, hscanned]
    grind
  have hsame : ∀ path ∈ builder.texts second, path ∉ builder.scannedKeys changes →
      (builder.texts second).get? path = (builder.texts first).get? path := by
    intro path hpath hnot
    rw [← Table.mem_keys, Table.keys, hsecond] at hpath
    rw [hscanned] at hnot
    obtain rfl : path = "d.css" := by grind
    decide +kernel
  have hserves : Serves builder.reader (builder.texts second) := by
    intro path content hcontent
    have hentries : (Table.ofList second).entries = second := by decide +kernel
    rw [Table.get?, hsecond, ← hentries, ← Table.get?] at hcontent
    exact ⟨Reader.read_ofTable hcontent, rfl⟩
  obtain ⟨g, hg⟩ := exists_build_contents hplain rfl first
  obtain ⟨hexists, hagree⟩ := changes_agree_with_build hplain hg
    (by rw [hremoved, hscanned]; decide) hkeys hsame hserves
  obtain ⟨h, hh⟩ := hexists rfl
  obtain ⟨after, hafter, hresult⟩ := hagree h hh
  exact ⟨builder, g, after, h, hg, hafter, hh, hresult⟩

/-- The texts have to be compared by key: a key need not be its own key, and a removed key is not taken
out of a mapping that spells it differently. -/
theorem changes_disagree_with_build_by_key :
    (∃ g after h,
      Builder.build { reader := .ofTable (.ofList [(" a.css", "")]) } (.contents []) = .ok g ∧
      Builder.applyChanges { reader := .ofTable (.ofList [(" a.css", "")]) }
        [⟨"./ a.css", .modified, none⟩] g = .ok ⟨⟩ after ∧
      Builder.build { reader := .ofTable (.ofList [(" a.css", "")]) }
        (.contents [(" a.css", "")]) = .ok h ∧ after.same h = false) ∧
    ∃ g after h,
      Builder.build { reader := .ofTable (.ofList [("./x.css", "")]) }
        (.contents [("./x.css", "")]) = .ok g ∧
      Builder.applyChanges { reader := .ofTable (.ofList [("./x.css", "")]) }
        [⟨"x.css", .deleted, none⟩] g = .ok ⟨⟩ after ∧
      Builder.build { reader := .ofTable (.ofList [("./x.css", "")]) }
        (.contents [("./x.css", "")]) = .ok h ∧ after.same h = false := by
  constructor
  · exact exists_of_differs (by decide +kernel)
  · exact exists_of_differs (by decide +kernel)

end ChangeImpact.Builder
