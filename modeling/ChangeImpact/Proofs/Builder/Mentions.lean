import ChangeImpact.Proofs.Builder.Runs

/-!
# The last mention of a file

A list of changes may name a file several times: as one that is gone, because it has been deleted or has
got another name, or as one that is there.  The changes are taken into the nodes in their order, so
afterwards a file has a node if it was last mentioned as there, and has none if it was last mentioned as
gone (`mem_nodes_iff_lastMention`).

What is scanned, however, is every file that *any* of the changes mentions as there.  A file among them
whose last mention is as gone has no node when the scan begins, and applying the changes fails with the
first such file.  Nothing else can go wrong but an asset that will not tell its time
(`ends_applyChanges_of_mentions`).  Whether or not it fails, the nodes are those that the last mentions
ask for, and the graph passes its check (`applyChanges_follows_last_mentions`).
-/

namespace ChangeImpact.Builder

variable {builder : Builder} {record : Record} {g taken : Graph} {path : String}
  {change : Change} {changes : List Change}

/-- What a change says of a file. -/
inductive Mention where
  | gone | there
deriving DecidableEq

/-- What a change says of the files that it names, the old path of a renamed file first. -/
def mentions (builder : Builder) (change : Change) : List (String × Mention) :=
  (builder.removedBy change).map (·, .gone) ++ (builder.scannedBy? change).toList.map (·, .there)

/-- What a list of changes says of a file last. -/
def lastMention? (builder : Builder) (changes : List Change) (path : String) : Option Mention :=
  (changes.flatMap builder.mentions).reverse.lookup path

/-- Whether a file has to have a node after some changes: what is not mentioned stays as it was. -/
def Remains (builder : Builder) (changes : List Change) (before : Prop) (path : String) : Prop :=
  match builder.lastMention? changes path with
  | some .there => True
  | some .gone => False
  | none => before

/-! ## The record follows the last mention -/

private theorem lookup_map_mention (keys : List String) (mention : Mention) (path : String) :
    (keys.map (·, mention)).lookup path = if path ∈ keys then some mention else none := by
  induction keys with
  | nil => rfl
  | cons key rest ih =>
      rw [List.map_cons, List.lookup_cons, ih]
      by_cases heq : path = key
      · simp [heq]
      · simp [heq, beq_false_of_ne heq]

/-- What one change says of a file last. -/
theorem lookup_mentions (change : Change) (path : String) :
    (builder.mentions change).reverse.lookup path =
      if builder.scannedBy? change = some path then some .there
      else if path ∈ builder.removedBy change then some .gone else none := by
  rw [mentions, List.reverse_append, ← List.map_reverse, ← List.map_reverse, List.lookup_append,
    lookup_map_mention, lookup_map_mention]
  simp only [List.mem_reverse, Option.mem_toList]
  by_cases hscanned : builder.scannedBy? change = some path
  · simp [hscanned]
  · simp [hscanned]

/-- What a change says counts where no later one mentions the file. -/
theorem lastMention?_cons (change : Change) (changes : List Change) (path : String) :
    builder.lastMention? (change :: changes) path =
      (builder.lastMention? changes path).or ((builder.mentions change).reverse.lookup path) := by
  rw [lastMention?, List.flatMap_cons, List.reverse_append, List.lookup_append]
  rfl

/-- A file is known after a change exactly if the change says that it is there, or does not mention it
and it was known before. -/
theorem change_known_iff : (∃ scan, record.change builder change path = some scan) ↔
    match (builder.mentions change).reverse.lookup path with
    | some .there => True
    | some .gone => False
    | none => ∃ scan, record path = some scan := by
  rw [lookup_mentions]
  by_cases hscanned : builder.scannedBy? change = some path
  · have hknown : ∃ scan, record.change builder change path = some scan := by
      unfold Record.change
      rw [hscanned]
      exact ⟨_, Function.update_self ..⟩
    simp [hscanned, hknown]
  · rw [change_apply_of_ne hscanned]
    by_cases hremoved : path ∈ builder.removedBy change
    · simp [hscanned, hremoved]
    · simp [hscanned, hremoved]

theorem foldl_change_known_iff (changes : List Change) (record : Record) (path : String) :
    (∃ scan, changes.foldl (Record.change builder) record path = some scan) ↔
      Remains builder changes (∃ scan, record path = some scan) path := by
  induction changes generalizing record with
  | nil => exact Iff.rfl
  | cons change rest ih =>
      rw [List.foldl_cons, ih, Remains, Remains, lastMention?_cons]
      -- what the first change says only counts if the rest says nothing
      cases builder.lastMention? rest path with
      | none => exact change_known_iff
      | some mention =>
          cases mention with
          | gone => exact Iff.rfl
          | there => exact Iff.rfl

/-- A file that some change mentions as there is mentioned. -/
theorem lastMention?_of_mem_scannedKeys (h : path ∈ builder.scannedKeys changes) :
    builder.lastMention? changes path = some .there ∨
      builder.lastMention? changes path = some .gone := by
  obtain ⟨change, hchange, hscanned⟩ := List.mem_filterMap.mp h
  have hmention : (path, Mention.there) ∈ (changes.flatMap builder.mentions).reverse := by
    rw [List.mem_reverse, List.mem_flatMap]
    refine ⟨change, hchange, List.mem_append_right _ ?_⟩
    rw [hscanned]
    exact List.mem_singleton_self _
  cases hlast : builder.lastMention? changes path with
  | none =>
      have hnone := List.lookup_eq_none_iff.mp hlast _ hmention
      simp at hnone
  | some mention =>
      cases mention with
      | gone => exact .inr rfl
      | there => exact .inl rfl

/-! ## Applying changes to any graph of a builder -/

/-- A graph as some changes leave it, whether or not they can be applied: the nodes are those that the
last mentions ask for, and nothing is wrong with the edges. -/
structure Mentioned (builder : Builder) (changes : List Change) (before after : Graph) : Prop where
  balanced : after.Balanced
  mem_nodes : ∀ path, path ∈ after.nodes ↔ Remains builder changes (path ∈ before.nodes) path

/-- What has to be the case for changes to be applied: no file that is to be scanned is gone in the end,
and the assets among them tell their times. -/
structure Applicable (builder : Builder) (changes : List Change) : Prop where
  there : ∀ path ∈ builder.scannedKeys changes, builder.lastMention? changes path = some .there
  timed : ∀ path ∈ builder.scannedKeys changes, FileKind.ofPath path = .asset →
    ∃ time, builder.reader.changed path = .ok time

/-- Why changes cannot be applied: the first of the files that are to be scanned and gone in the end has
no entry among the nodes, or else there is an asset that will not tell its time. -/
inductive Inapplicable (builder : Builder) (changes : List Change) : BuildError → Prop where
  | gone {path : String} (hpath : path ∈ builder.scannedKeys changes)
      (hgone : builder.lastMention? changes path = some .gone)
      (hfirst : ∀ other ∈ builder.scannedKeys changes,
        builder.lastMention? changes other = some .gone → path ≤ other) :
      Inapplicable builder changes (.graph (.missingEntry path))
  | noTime {path : String} {fault : DiskFault} (hpath : path ∈ builder.scannedKeys changes)
      (hkind : FileKind.ofPath path = .asset) (hfault : builder.reader.changed path = .error fault) :
      Inapplicable builder changes (.disk fault)

theorem Inapplicable.not_applicable {fault : BuildError} (h : Inapplicable builder changes fault) :
    ¬ Applicable builder changes := by
  intro happlicable
  cases h with
  | gone hpath hgone _ =>
      rw [happlicable.there _ hpath] at hgone
      cases hgone
  | noTime hpath hkind hfault =>
      obtain ⟨time, htime⟩ := happlicable.timed _ hpath hkind
      rw [htime] at hfault
      cases hfault

theorem mem_nodes_iff_lastMention (hg : Recorded record g)
    (htaken : Recorded (changes.foldl (Record.change builder) record) taken) (path : String) :
    path ∈ taken.nodes ↔ Remains builder changes (path ∈ g.nodes) path := by
  rw [htaken.mem_nodes, foldl_change_known_iff, hg.mem_nodes]

/-- A scan of files that are all mentioned as there needs a node for each of them, so it is the last
mentions that block it. -/
theorem Blocked.inapplicable (hworkers : builder.pool.hasWorkers = true) (hg : Recorded record g)
    (htaken : Recorded (changes.foldl (Record.change builder) record) taken) {fault : BuildError}
    (h : Blocked taken builder.pool builder.reader (builder.scanOrder changes) fault) :
    Inapplicable builder changes fault := by
  have hnode := mem_nodes_iff_lastMention hg htaken
  rcases h with ⟨done, path, rest, horder, hdone, hpath, rfl⟩ | ⟨-, hobstacle⟩
  · have hscanned : path ∈ builder.scannedKeys changes := by
      rw [← mem_scanOrder, horder]
      simp
    have hgone : builder.lastMention? changes path = some .gone := by
      refine (lastMention?_of_mem_scannedKeys hscanned).resolve_left fun hthere => hpath ?_
      rw [hnode, Remains, hthere]
      trivial
    refine .gone hscanned hgone fun other hother hlast => ?_
    -- the files are scanned in increasing order, and those before this one have nodes
    have hnot : other ∉ done := fun hmem => by
      have hremains := (hnode other).mp (hdone other hmem)
      rw [Remains, hlast] at hremains
      exact hremains
    have hsorted : (done ++ path :: rest).Pairwise (· < ·) := horder ▸ (PathSet.ofList _).sorted
    have hlater : ∀ next ∈ rest, path < next :=
      (List.pairwise_cons.mp (List.pairwise_append.mp hsorted).2.1).1
    rw [← mem_scanOrder, horder, List.mem_append, List.mem_cons] at hother
    rcases hother with hother | rfl | hother
    · exact absurd hother hnot
    · exact String.le_refl other
    · exact String.not_lt.mp (String.lt_asymm (hlater other hother))
  · cases hobstacle with
    | noWorkers hpath hkind hpool =>
        rw [hworkers] at hpool
        cases hpool
    | noTime hpath hkind hfault => exact .noTime (mem_scanOrder.mp hpath) hkind hfault

/-- Applying changes goes through exactly if they are applicable, and in either case leaves the nodes
that the last mentions ask for. -/
theorem ends_applyChanges_of_mentions (hplain : builder.aliases.Plain)
    (hworkers : builder.pool.hasWorkers = true) (hg : Recorded record g) (changes : List Change) :
    Ends (builder.applyChanges changes) g
      (fun _ after => Applicable builder changes ∧ Mentioned builder changes g after)
      (fun fault after => Inapplicable builder changes fault ∧ Mentioned builder changes g after) := by
  apply (ends_applyChanges_of_recorded hg changes).mono
  · rintro _ after ⟨all, taken, htaken, -, hpassed⟩
    -- the passes have come through, so every file that is scanned had a node when the scan began
    have hnode := mem_nodes_iff_lastMention hg htaken
    refine ⟨⟨fun path hpath => ?_, fun path hpath hkind => ?_⟩, hpassed.recorded.balanced, ?_⟩
    · have hremains := (hnode path).mp (hpassed.known path (mem_scanOrder.mpr hpath))
      refine (lastMention?_of_mem_scannedKeys hpath).resolve_right fun hgone => ?_
      rw [Remains, hgone] at hremains
      exact hremains
    · cases htime : builder.reader.changed path with
      | ok time => exact ⟨time, rfl⟩
      | error cause =>
          exact absurd (.noTime (mem_scanOrder.mpr hpath) hkind htime) (hpassed.unhindered _)
    · intro path
      rw [← hnode, hpassed.recorded.mem_nodes, htaken.mem_nodes, Record.scan]
      split
      · rename_i hpath
        exact iff_of_true ⟨_, rfl⟩ (htaken.mem_nodes.mp (hpassed.known path hpath))
      · exact Iff.rfl
  · rintro fault after ⟨taken, htaken, ⟨rfl, hblocked⟩ | ⟨-, hlost⟩⟩
    · -- a scan that is blocked changes nothing, so the nodes are those that the changes have left
      exact ⟨hblocked.inapplicable hworkers hg htaken, htaken.balanced,
        mem_nodes_iff_lastMention hg htaken⟩
    · exact (hlost.elim hplain).elim

/-- Changes are applied to a graph that is left by any turns of a builder with plain aliases and a
worker.

* It goes through exactly if every file that is to be scanned was last mentioned as there, and the
  assets among these files tell their times.
* Otherwise it fails with the first file that is to be scanned and was last mentioned as gone, or else
  with what an asset answers to the question for its time.
* In either case a file that was last mentioned as there has a node, one that was last mentioned as gone
  has none, with all others it is as before, and the graph passes its check. -/
theorem applyChanges_follows_last_mentions (hplain : builder.aliases.Plain)
    (hworkers : builder.pool.hasWorkers = true) (turns : List Turn) (changes : List Change) :
    ((∃ after, builder.applyChanges changes (builder.leftBy turns) = .ok ⟨⟩ after) ↔
      Applicable builder changes) ∧
    (∀ fault after, builder.applyChanges changes (builder.leftBy turns) = .error fault after →
      Inapplicable builder changes fault) ∧
    (stateAfter (builder.applyChanges changes) (builder.leftBy turns)).check = .ok () ∧
    ∀ path, path ∈ (stateAfter (builder.applyChanges changes) (builder.leftBy turns)).nodes ↔
      match builder.lastMention? changes path with
      | some .there => True
      | some .gone => False
      | none => path ∈ (builder.leftBy turns).nodes := by
  obtain ⟨record, hg⟩ := kept_recorded.leftBy builder turns
  have hends := ends_applyChanges_of_mentions hplain hworkers hg changes
  have hmentioned : Mentioned builder changes (builder.leftBy turns)
      (stateAfter (builder.applyChanges changes) (builder.leftBy turns)) :=
    hends.of_either (fun _ _ hgood => hgood.2) fun _ _ hbad => hbad.2
  refine ⟨⟨?_, ?_⟩, ?_, hmentioned.balanced.check_eq_ok, hmentioned.mem_nodes⟩
  · rintro ⟨after, hrun⟩
    exact (hends.of_ok hrun).1
  · intro happlicable
    obtain ⟨_, after, hrun, -⟩ := hends.succeeds fun fault after hbad =>
      hbad.1.not_applicable happlicable
    exact ⟨after, hrun⟩
  · intro fault after hrun
    exact (hends.of_error hrun).1

/-- One file moves out of the way, and another one takes its place.  If the first move is listed first,
the place is taken in the end; listed the other way round, it has been given up after it was taken. -/
theorem applyChanges_follows_last_mentions_of_renamings :
    (∃ after, Builder.applyChanges { reader := .ofText "" }
        [⟨"c.css", .renamed, some "b.css"⟩, ⟨"b.css", .renamed, some "a.css"⟩]
        (Builder.leftBy { reader := .ofText "" }
          [⟨.build (.contents [("a.css", ""), ("b.css", "")]), .ofText "", .oneByOne⟩]) =
        .ok ⟨⟩ after) ∧
    ¬ ∃ after, Builder.applyChanges { reader := .ofText "" }
        [⟨"b.css", .renamed, some "a.css"⟩, ⟨"c.css", .renamed, some "b.css"⟩]
        (Builder.leftBy { reader := .ofText "" }
          [⟨.build (.contents [("a.css", ""), ("b.css", "")]), .ofText "", .oneByOne⟩]) =
        .ok ⟨⟩ after := by
  let builder : Builder := { reader := .ofText "" }
  let turns : List Turn :=
    [⟨.build (.contents [("a.css", ""), ("b.css", "")]), .ofText "", .oneByOne⟩]
  let late : List Change := [⟨"c.css", .renamed, some "b.css"⟩, ⟨"b.css", .renamed, some "a.css"⟩]
  let early : List Change := [⟨"b.css", .renamed, some "a.css"⟩, ⟨"c.css", .renamed, some "b.css"⟩]
  have hplain : builder.aliases.Plain := nofun
  constructor
  · refine (applyChanges_follows_last_mentions hplain rfl turns late).1.mpr ⟨?_, ?_⟩
    · decide +kernel
    · exact fun _ _ _ => ⟨none, rfl⟩
  · intro hrun
    have happlicable := (applyChanges_follows_last_mentions hplain rfl turns early).1.mp hrun
    have hgone : builder.lastMention? early "b.css" = some .gone := by decide +kernel
    have hscanned : "b.css" ∈ builder.scannedKeys early := by decide +kernel
    rw [happlicable.there "b.css" hscanned] at hgone
    cases hgone

/-- The same two moves, the second of them listed first, on a graph without the file that moves out of
the way. -/
theorem applyChanges_fails_at_chain_of_renamings :
    ∃ g after, Builder.build { reader := .ofText "" } (.contents [("a.css", "")]) = .ok g ∧
      Builder.applyChanges { reader := .ofText "" }
        [⟨"b.css", .renamed, some "a.css"⟩, ⟨"c.css", .renamed, some "b.css"⟩] g =
          .error (.graph (.missingEntry "b.css")) after := by
  let builder : Builder := { reader := .ofText "" }
  let changes : List Change :=
    [⟨"b.css", .renamed, some "a.css"⟩, ⟨"c.css", .renamed, some "b.css"⟩]
  have hfails : (builder.build (.contents [("a.css", "")])).toOption.bind
      (faultOf? (builder.applyChanges changes)) = some (.graph (.missingEntry "b.css")) := by
    decide +kernel
  obtain ⟨g, hg, hfault⟩ := Option.bind_eq_some_iff.mp hfails
  refine ⟨g, stateAfter (builder.applyChanges changes) g, ?_, eq_error_of_faultOf? hfault⟩
  cases hbuild : builder.build (.contents [("a.css", "")]) with
  | error fault => simp [hbuild, Except.toOption] at hg
  | ok built =>
      rw [hbuild] at hg
      exact congrArg Except.ok (Option.some.inj hg)

end ChangeImpact.Builder
