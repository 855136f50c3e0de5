import ChangeImpact.Proofs.Builder.Refreshing
import ChangeImpact.Proofs.Reader

/-!
# Watching a disk

A graph of the files on a disk is built once and refreshed after each change of the disk (`watch`).  A
refresh only reads the files whose time is not the one on their node.  If such a file always has the text
that it had when its time was recorded (`Faithful`), then after every step the graph agrees with one that
is built anew.

What stands in the way is a null character in the full path of a file.  Building records that it cannot
be read, and a refresh that drops it or adds it goes through, but a refresh that keeps it asks for its
time and fails (`KeepsNull`).
-/

namespace ChangeImpact.Builder

variable {builder : Builder} {record : Record} {g : Graph} {path directory : String} {disk : Disk}

/-! ## Scans that are kept -/

theorem of_not_isStale {recorded current : Option Timestamp}
    (h : isStale (timeJson recorded) current = false) :
    ∃ first second, recorded = some first ∧ current = some second ∧
      (timeJson recorded).same (timeJson current) = true := by
  cases recorded with
  | none => cases h
  | some first =>
      cases current with
      | none => cases h
      | some second => exact ⟨first, second, rfl, rfl, by simpa [isStale, timeJson] using h⟩

theorem scanRead_changed (read : FileRead) :
    (builder.scanRead path read).changed = read.changed := by
  unfold scanRead
  split
  · rfl
  · rfl

/-- Reads of one text give scans that differ in the time alone. -/
theorem scanRead_congr {first second : FileRead} (h : first.content = second.content) :
    builder.scanRead path first =
      { builder.scanRead path second with changed := first.changed } := by
  unfold scanRead
  rw [h]
  split
  · dsimp only
  · dsimp only

/-- A scan whose file has the same time and text now is like a scan made now. -/
theorem alike_scanOf {first second : Reader} {time : Option Timestamp} (hfirst : Reader.Timely first)
    (hsecond : Reader.Timely second) (hcontent : (second.read path).content = (first.read path).content)
    (htime : second.changed path = .ok time)
    (hcurrent : isStale (timeJson (builder.scanOf first path).changed) time = false) :
    (builder.scanOf first path).Alike (builder.scanOf second path) := by
  obtain ⟨recorded, current, hrecorded, rfl, hsame⟩ := of_not_isStale hcurrent
  by_cases hkind : FileKind.ofPath path = .asset
  · have hsecondScan : builder.scanOf second path = { path, changed := some current } := by
      rw [scanOf, if_pos hkind, htime]
      rfl
    rw [hsecondScan]
    rw [scanOf, if_pos hkind] at hsame ⊢
    exact ⟨rfl, hsame, rfl⟩
  rw [scanOf, if_neg hkind, scanRead_changed] at hrecorded hsame
  have hfirst := hfirst path
  have hsecond := hsecond path
  cases hbefore : (first.read path).content with
  | error fault =>
      -- a failed read leaves no time behind, so its file is never current
      rw [hbefore] at hfirst
      rw [hfirst] at hrecorded
      cases hrecorded
  | ok content =>
      rw [hcontent, hbefore] at hsecond
      obtain ⟨now, hnow, hchanged⟩ := hsecond
      obtain rfl : now = current := by
        rw [hchanged] at htime
        exact Option.some.inj (Except.ok.inj htime)
      rw [scanOf, scanOf, if_neg hkind, if_neg hkind, scanRead_congr hcontent]
      refine ⟨rfl, ?_, rfl⟩
      rw [scanRead_changed]
      show (timeJson (first.read path).changed).same (timeJson (second.read path).changed) = true
      rwa [hnow]

/-! ## Watching -/

/-- A graph that is watched, and for each of its files the step in which it was scanned last. -/
structure Watched where
  graph : Graph
  scannedAt : String → Nat

/-- Whether the node of a file carries the time that the file has now. -/
def isCurrent (reader : Reader) (g : Graph) (path : String) : Bool :=
  match g.nodes.get? path, reader.changed path with
  | some node, .ok time => !isStale node.lastModified time
  | _, _ => false

section Watch

variable (builder : Builder) (readers : Nat → Reader) (lists : Nat → List String)

/-- The keys of the files of a step. -/
def keysAt (step : Nat) : PathSet := builder.keysOf (.paths (lists step))

theorem exists_of_mem_keysAt {builder : Builder} {lists : Nat → List String} {step : Nat}
    (h : path ∈ builder.keysAt lists step) : ∃ given ∈ lists step, builder.key given = path := by
  have hkeys : path ∈ ((lists step).map builder.key).filter (!·.isEmpty) := PathSet.mem_ofList.mp h
  exact List.mem_map.mp (List.mem_filter.mp hkeys).1

/-- The graph that is built of the files of a step. -/
def buildAt (step : Nat) : Except BuildError Graph :=
  (builder.withReader (readers step)).build (.paths (lists step))

/-- Brings a graph up to date with the files of a step. -/
def refreshAt (step : Nat) : BuildStep Unit :=
  (builder.withReader (readers step)).refresh (.paths (lists step))

/-- The steps in which files were scanned last, after a refresh that reads with a given reader. -/
def Watched.rescanned (watched : Watched) (reader : Reader) (step : Nat) : String → Nat :=
  fun path => if isCurrent reader watched.graph path then watched.scannedAt path else step

/-- Builds a graph of the first files and refreshes it with the files of each further step. -/
def watch : Nat → Except BuildError Watched
  | 0 => do return ⟨← builder.buildAt readers lists 0, fun _ => 0⟩
  | step + 1 => do
    let before ← watch step
    match builder.refreshAt readers lists (step + 1) before.graph with
    | .error fault _ => throw fault
    | .ok _ graph => return ⟨graph, before.rescanned (readers (step + 1)) (step + 1)⟩

/-- Whenever the node of a file carries the time that the file has now, reading the file now has the
same outcome as when it was scanned last. -/
def Faithful : Prop :=
  ∀ step before, builder.watch readers lists step = .ok before →
    ∀ path ∈ builder.keysAt lists (step + 1),
      isCurrent (readers (step + 1)) before.graph path = true →
      ((readers (step + 1)).read path).content =
        ((readers (before.scannedAt path)).read path).content

/-- A refresh keeps a file that will not tell its time. -/
def KeepsMute (step : Nat) : Prop :=
  ∃ path ∈ builder.keysAt lists step, path ∈ builder.keysAt lists (step + 1) ∧
    ∃ cause, (readers (step + 1)).changed path = .error cause

/-- What stands in the way of the scans of a step. -/
def ObstacleAt (step : Nat) (fault : BuildError) : Prop :=
  Obstacle builder.pool (readers step) (builder.keysAt lists step).toList fault

/-- The record of the files of a step, each of them scanned in a step of its own. -/
def watchedRecord (step : Nat) (scannedAt : String → Nat) : Record :=
  Record.scan (fun _ => none) (builder.keysAt lists step).toList fun path =>
    builder.scanOf (readers (scannedAt path)) path

/-- A watched graph shows the scans that have been made last, and they are like scans made now. -/
structure Tracked (step : Nat) (watched : Watched) : Prop where
  settled : Settled builder
    (watchedRecord builder readers lists step watched.scannedAt) watched.graph
  alike : (watchedRecord builder readers lists step watched.scannedAt).Alike
    (watchedRecord builder readers lists step fun _ => step)
  unhindered : ∀ fault, ¬ ObstacleAt builder readers lists step fault

variable {builder readers lists} {reader : Reader} {step : Nat} {watched : Watched}

theorem recordOf_buildAt : (builder.withReader (readers step)).recordOf (.paths (lists step)) =
    watchedRecord builder readers lists step fun _ => step :=
  recordOf_withReader builder (readers step) (lists step)

theorem of_buildAt (hbuild : builder.buildAt readers lists step = .ok g) :
    Settled builder (watchedRecord builder readers lists step fun _ => step) g ∧
      ∀ fault, ¬ ObstacleAt builder readers lists step fault := by
  obtain ⟨hsettled, hobstacle⟩ := of_build hbuild
  rw [recordOf_buildAt] at hsettled
  rw [keysOf_withReader, readerFor_withReader] at hobstacle
  exact ⟨settled_withReader.mp hsettled, hobstacle⟩

theorem exists_buildAt_iff (hplain : builder.aliases.Plain) :
    (∃ g, builder.buildAt readers lists step = .ok g) ↔
      ∀ fault, ¬ ObstacleAt builder readers lists step fault := by
  constructor
  · rintro ⟨g, hg⟩
    exact (of_buildAt hg).2
  · intro hobstacle
    have hplain' : (builder.withReader (readers step)).aliases.Plain := hplain
    refine exists_build hplain' ?_
    rwa [keysOf_withReader, readerFor_withReader]

theorem tracked_zero (hbuild : builder.buildAt readers lists 0 = .ok g) :
    Tracked builder readers lists 0 ⟨g, fun _ => 0⟩ where
  settled := (of_buildAt hbuild).1
  alike := .refl _
  unhindered := (of_buildAt hbuild).2

theorem Recorded.outdated_eq (hg : Recorded record g) (reader : Reader) (path : String) :
    record.outdated reader.changed path = !isCurrent reader g path := by
  unfold Record.outdated isCurrent
  rw [hg.nodes]
  cases record path with
  | none => rfl
  | some scan =>
      cases reader.changed path with
      | error cause => rfl
      | ok time => simp [nodeOf]

theorem Recorded.of_isCurrent (hg : Recorded record g) (h : isCurrent reader g path = true) :
    ∃ scan time, record path = some scan ∧ reader.changed path = .ok time ∧
      isStale (timeJson scan.changed) time = false := by
  unfold isCurrent at h
  rw [hg.nodes] at h
  cases hscan : record path with
  | none => simp [hscan] at h
  | some scan =>
      cases htime : reader.changed path with
      | error cause => simp [hscan, htime] at h
      | ok time => exact ⟨scan, time, rfl, rfl, by simpa [hscan, htime, nodeOf] using h⟩

theorem watchedRecord_of_mem {scannedAt : String → Nat} (h : path ∈ builder.keysAt lists step) :
    watchedRecord builder readers lists step scannedAt path =
      some (builder.scanOf (readers (scannedAt path)) path) :=
  if_pos h

theorem watchedRecord_of_not_mem {scannedAt : String → Nat}
    (h : path ∉ builder.keysAt lists step) :
    watchedRecord builder readers lists step scannedAt path = none :=
  if_neg h

theorem mem_of_watchedRecord {scannedAt : String → Nat} {scan : Scan}
    (h : watchedRecord builder readers lists step scannedAt path = some scan) :
    path ∈ builder.keysAt lists step ∧ scan = builder.scanOf (readers (scannedAt path)) path := by
  by_cases hpath : path ∈ builder.keysAt lists step
  · rw [watchedRecord_of_mem hpath] at h
    exact ⟨hpath, (Option.some.inj h).symm⟩
  · rw [watchedRecord_of_not_mem hpath] at h
    cases h

theorem watchedRecord_eq_some_iff {scannedAt : String → Nat} :
    (∃ scan, watchedRecord builder readers lists step scannedAt path = some scan) ↔
      path ∈ builder.keysAt lists step :=
  ⟨fun ⟨_, hscan⟩ => (mem_of_watchedRecord hscan).1, fun h => ⟨_, watchedRecord_of_mem h⟩⟩

/-- Refreshing the record of a step makes it the record of the next step. -/
theorem refreshed_watchedRecord
    (hg : Recorded (watchedRecord builder readers lists step watched.scannedAt) watched.graph) :
    (watchedRecord builder readers lists step watched.scannedAt).refreshed
        (builder.keysAt lists (step + 1)) (readers (step + 1)).changed
        (builder.scanOf (readers (step + 1))) =
      watchedRecord builder readers lists (step + 1)
        (watched.rescanned (readers (step + 1)) (step + 1)) := by
  funext path
  unfold Record.refreshed
  by_cases hpath : path ∈ builder.keysAt lists (step + 1)
  · rw [if_pos hpath, watchedRecord_of_mem hpath, hg.outdated_eq]
    unfold Watched.rescanned
    cases hcurrent : isCurrent (readers (step + 1)) watched.graph path with
    | false => simp
    | true =>
        obtain ⟨scan, time, hscan, -, -⟩ := hg.of_isCurrent hcurrent
        simp [watchedRecord_of_mem (mem_of_watchedRecord hscan).1]
  · rw [if_neg hpath, watchedRecord_of_not_mem hpath]

/-- What is kept of the record is like what a scan would find now. -/
theorem alike_watchedRecord (hreaders : ∀ step, Reader.Timely (readers step))
    (hfaithful : Faithful builder readers lists)
    (hwatch : builder.watch readers lists step = .ok watched)
    (hg : Recorded (watchedRecord builder readers lists step watched.scannedAt) watched.graph) :
    (watchedRecord builder readers lists (step + 1)
      (watched.rescanned (readers (step + 1)) (step + 1))).Alike
      (watchedRecord builder readers lists (step + 1) fun _ => step + 1) := by
  intro path
  by_cases hpath : path ∈ builder.keysAt lists (step + 1)
  · rw [watchedRecord_of_mem hpath, watchedRecord_of_mem hpath]
    refine .some ?_
    unfold Watched.rescanned
    cases hcurrent : isCurrent (readers (step + 1)) watched.graph path with
    | false => exact .refl _
    | true =>
        obtain ⟨scan, time, hscan, htime, hfresh⟩ := hg.of_isCurrent hcurrent
        rw [(mem_of_watchedRecord hscan).2] at hfresh
        exact alike_scanOf (hreaders _) (hreaders _)
          (hfaithful step watched hwatch path hpath hcurrent) htime hfresh
  · rw [watchedRecord_of_not_mem hpath, watchedRecord_of_not_mem hpath]
    exact .none

/-- Where nothing hinders the scan of what is out of date, nothing would hinder a scan of everything: a file that is
not scanned was there before, and nothing was in its way then. -/
theorem Tracked.not_obstacleAt_succ (h : Tracked builder readers lists step watched)
    (hobstacle : ∀ fault, ¬ Obstacle builder.pool (readers (step + 1))
      ((builder.keysAt lists (step + 1)).toList.filter
        ((watchedRecord builder readers lists step watched.scannedAt).outdated (readers (step + 1)).changed)) fault)
    (fault : BuildError) : ¬ ObstacleAt builder readers lists (step + 1) fault := by
  have hg := h.settled.recorded
  rintro (⟨hpath, hkind, hpool⟩ | ⟨hpath, hkind, hfault⟩)
  · rename_i path
    cases hcurrent : isCurrent (readers (step + 1)) watched.graph path with
    | false =>
        refine hobstacle _ (.noWorkers (mem_filter_outdated.mpr ⟨hpath, ?_⟩) hkind hpool)
        rw [hg.outdated_eq, hcurrent]
        rfl
    | true =>
        obtain ⟨scan, time, hscan, -, -⟩ := hg.of_isCurrent hcurrent
        exact h.unhindered _ (.noWorkers (mem_of_watchedRecord hscan).1 hkind hpool)
  · refine hobstacle _ (.noTime (mem_filter_outdated.mpr ⟨hpath, ?_⟩) hkind hfault)
    unfold Record.outdated
    rw [hfault]
    split
    · rename_i heq
      cases heq
    · rfl

/-- A refresh keeps a watched graph tracked.  It fails where it keeps a file that will not tell its
time, or at an obstacle to building. -/
theorem ends_refreshAt (hplain : builder.aliases.Plain) (hreaders : ∀ step, Reader.Timely (readers step))
    (hfaithful : Faithful builder readers lists)
    (hwatch : builder.watch readers lists step = .ok watched)
    (htracked : Tracked builder readers lists step watched) :
    Ends (builder.refreshAt readers lists (step + 1)) watched.graph
      (fun _ after => Tracked builder readers lists (step + 1)
          ⟨after, watched.rescanned (readers (step + 1)) (step + 1)⟩ ∧
        ¬ KeepsMute builder readers lists step)
      (fun fault _ =>
        (∃ path ∈ builder.keysAt lists step, path ∈ builder.keysAt lists (step + 1) ∧
          ∃ cause, (readers (step + 1)).changed path = .error cause ∧ fault = .disk cause) ∨
        ObstacleAt builder readers lists (step + 1) fault) := by
  have hplain' : (builder.withReader (readers (step + 1))).aliases.Plain := hplain
  have hg := htracked.settled.recorded
  have hsettled : Settled (builder.withReader (readers (step + 1)))
      (watchedRecord builder readers lists step watched.scannedAt) watched.graph :=
    settled_withReader.mpr htracked.settled
  have hrefresh := ends_refresh hsettled.recorded (hsettled.resolved hplain')
    (.paths (lists (step + 1)))
  rw [keysOf_withReader, readerFor_withReader, scanOf_withReader, ← keysAt,
    refreshed_watchedRecord hg] at hrefresh
  refine hrefresh.mono ?_ ?_
  · rintro _ after ⟨hrecorded, hresolved, htimes, hobstacle⟩
    refine ⟨⟨settled_withReader.mp ⟨hrecorded, hresolved.linked⟩,
      alike_watchedRecord hreaders hfaithful hwatch hg, htracked.not_obstacleAt_succ hobstacle⟩, ?_⟩
    rintro ⟨path, hpath, hnext, cause, hcause⟩
    exact htimes (.disk cause)
      ⟨path, hnext, watchedRecord_eq_some_iff.mpr hpath, cause, hcause, rfl⟩
  · rintro fault _ (⟨path, hpath, hknown, cause, hcause, rfl⟩ | hobstacle | hlost)
    · exact .inl ⟨path, watchedRecord_eq_some_iff.mp hknown, hpath, cause, hcause, rfl⟩
    · exact .inr (hobstacle.mono fun path hpath => (List.mem_filter.mp hpath).1)
    · exact (hlost.elim hplain').elim

/-- A step of watching comes through if the steps before it and the refresh do. -/
theorem watch_succ_eq_ok_iff : builder.watch readers lists (step + 1) = .ok watched ↔
    ∃ before after, builder.watch readers lists step = .ok before ∧
      builder.refreshAt readers lists (step + 1) before.graph = .ok ⟨⟩ after ∧
      watched = ⟨after, before.rescanned (readers (step + 1)) (step + 1)⟩ := by
  rw [watch]
  cases builder.watch readers lists step with
  | error fault => simp [Bind.bind, Except.bind]
  | ok before =>
      cases hrefresh : builder.refreshAt readers lists (step + 1) before.graph with
      | error fault after =>
          simp [Bind.bind, Except.bind, hrefresh, throw, throwThe, MonadExceptOf.throw]
      | ok _ after =>
          simp [Bind.bind, Except.bind, hrefresh, Pure.pure, Except.pure, eq_comm]

/-- A step of watching fails with what a step before it or the refresh fails with. -/
theorem watch_succ_eq_error_iff {fault : BuildError} :
    builder.watch readers lists (step + 1) = .error fault ↔
      builder.watch readers lists step = .error fault ∨
      ∃ before after, builder.watch readers lists step = .ok before ∧
        builder.refreshAt readers lists (step + 1) before.graph = .error fault after := by
  rw [watch]
  cases builder.watch readers lists step with
  | error cause => simp [Bind.bind, Except.bind]
  | ok before =>
      cases hrefresh : builder.refreshAt readers lists (step + 1) before.graph with
      | error cause after =>
          simp [Bind.bind, Except.bind, hrefresh, throw, throwThe, MonadExceptOf.throw]
      | ok _ after => simp [Bind.bind, Except.bind, hrefresh, Pure.pure, Except.pure]

theorem watch_zero : builder.watch readers lists 0 =
    (builder.buildAt readers lists 0).map fun g => ⟨g, fun _ => 0⟩ := by
  rw [watch]
  cases builder.buildAt readers lists 0 with
  | error fault => rfl
  | ok g => rfl

/-- A graph that could be watched up to a step is tracked, all builds up to there go through, and no
refresh has kept a file that will not tell its time. -/
theorem tracked_of_watch (hplain : builder.aliases.Plain)
    (hreaders : ∀ step, Reader.Timely (readers step)) (hfaithful : Faithful builder readers lists)
    (hwatch : builder.watch readers lists step = .ok watched) :
    Tracked builder readers lists step watched ∧
      (∀ earlier ≤ step, ∃ g, builder.buildAt readers lists earlier = .ok g) ∧
      ∀ earlier < step, ¬ KeepsMute builder readers lists earlier := by
  induction step generalizing watched with
  | zero =>
      rw [watch_zero] at hwatch
      cases hbuild : builder.buildAt readers lists 0 with
      | error fault =>
          rw [hbuild] at hwatch
          cases hwatch
      | ok g =>
          rw [hbuild] at hwatch
          cases hwatch
          refine ⟨tracked_zero hbuild, fun earlier hle => ?_, fun _ hlt => nomatch hlt⟩
          rw [Nat.le_zero.mp hle]
          exact ⟨g, hbuild⟩
  | succ step ih =>
      obtain ⟨before, after, hbefore, hrefresh, rfl⟩ := watch_succ_eq_ok_iff.mp hwatch
      obtain ⟨htracked, hbuilds, hmute⟩ := ih hbefore
      -- the refresh of this step keeps the graph tracked, and it tells that a build would come through
      have hends := ends_refreshAt hplain hreaders hfaithful hbefore htracked
      obtain ⟨hafter, hnone⟩ := hends.of_ok hrefresh
      refine ⟨hafter, fun earlier hle => ?_, fun earlier hlt => ?_⟩
      · rcases Nat.le_succ_iff.mp hle with hle | rfl
        · exact hbuilds earlier hle
        · exact (exists_buildAt_iff hplain).mpr hafter.unhindered
      · rcases Nat.lt_succ_iff_lt_or_eq.mp hlt with hlt | rfl
        · exact hmute earlier hlt
        · exact hnone

theorem exists_watch (hplain : builder.aliases.Plain) (hreaders : ∀ step, Reader.Timely (readers step))
    (hfaithful : Faithful builder readers lists)
    (hbuilds : ∀ earlier ≤ step, ∃ g, builder.buildAt readers lists earlier = .ok g)
    (hmute : ∀ earlier < step, ¬ KeepsMute builder readers lists earlier) :
    ∃ watched, builder.watch readers lists step = .ok watched := by
  induction step with
  | zero =>
      obtain ⟨g, hbuild⟩ := hbuilds 0 (Nat.le_refl 0)
      exact ⟨⟨g, fun _ => 0⟩, by rw [watch_zero, hbuild]; rfl⟩
  | succ step ih =>
      obtain ⟨before, hbefore⟩ := ih (fun earlier hle => hbuilds earlier (Nat.le_succ_of_le hle))
        fun earlier hlt => hmute earlier (Nat.lt_succ_of_lt hlt)
      obtain ⟨htracked, -, -⟩ := tracked_of_watch hplain hreaders hfaithful hbefore
      have hends := ends_refreshAt hplain hreaders hfaithful hbefore htracked
      -- a refresh fails only at a kept file that does not tell its time, or where a build fails
      obtain ⟨_, after, hrefresh, -⟩ := hends.succeeds fun fault _ hbad => by
        rcases hbad with ⟨path, hpath, hnext, cause, hcause, -⟩ | hobstacle
        · exact hmute step (Nat.lt_succ_self step) ⟨path, hpath, hnext, cause, hcause⟩
        · exact (exists_buildAt_iff hplain).mp (hbuilds (step + 1) (Nat.le_refl _)) fault hobstacle
      exact ⟨_, watch_succ_eq_ok_iff.mpr ⟨before, after, hbefore, hrefresh, rfl⟩⟩

/-- Where building goes through, watching fails only with what a kept file answers to the question for
its time. -/
theorem of_watch_eq_error (hplain : builder.aliases.Plain)
    (hreaders : ∀ step, Reader.Timely (readers step)) (hfaithful : Faithful builder readers lists)
    (hbuilds : ∀ earlier ≤ step, ∃ g, builder.buildAt readers lists earlier = .ok g)
    {fault : BuildError} (hwatch : builder.watch readers lists step = .error fault) :
    ∃ earlier path cause, (readers earlier).changed path = .error cause ∧ fault = .disk cause := by
  induction step with
  | zero =>
      obtain ⟨g, hbuild⟩ := hbuilds 0 (Nat.le_refl 0)
      rw [watch_zero, hbuild] at hwatch
      cases hwatch
  | succ step ih =>
      have hearlier : ∀ earlier ≤ step, ∃ g, builder.buildAt readers lists earlier = .ok g :=
        fun earlier hle => hbuilds earlier (Nat.le_succ_of_le hle)
      rcases watch_succ_eq_error_iff.mp hwatch with hbefore | ⟨before, after, hbefore, hrefresh⟩
      · exact ih hearlier hbefore
      · obtain ⟨htracked, -, -⟩ := tracked_of_watch hplain hreaders hfaithful hbefore
        have hends := ends_refreshAt hplain hreaders hfaithful hbefore htracked
        rcases hends.of_error hrefresh with ⟨path, -, -, cause, hcause, rfl⟩ | hobstacle
        · exact ⟨step + 1, path, cause, hcause, rfl⟩
        · have hbuild := hbuilds (step + 1) (Nat.le_refl _)
          exact absurd hobstacle ((exists_buildAt_iff hplain).mp hbuild fault)

end Watch

/-! ## Watching a disk -/

/-- The readers of the files below a directory, while the disk changes. -/
@[irreducible] def diskReaders (directory : String) (disks : Nat → Disk) (step : Nat) : Reader :=
  .ofDisk (disks step) directory

/-- A refresh keeps a file with a null character in its full path. -/
def KeepsNull (builder : Builder) (directory : String) (lists : Nat → List String) (step : Nat) :
    Prop :=
  ∃ path ∈ builder.keysAt lists step, path ∈ builder.keysAt lists (step + 1) ∧
    '\x00' ∈ (Reader.fullPath directory path).toList

section Disks

variable {disks : Nat → Disk} {lists : Nat → List String} {step : Nat}

theorem timely_diskReaders (directory : String) (disks : Nat → Disk) (step : Nat) :
    Reader.Timely (diskReaders directory disks step) := by
  unfold diskReaders
  exact Reader.timely_ofDisk (disks step) directory

theorem changed_diskReaders_eq_error_iff {cause : DiskFault} :
    (diskReaders directory disks step).changed path = .error cause ↔
      cause = .nullCharacter ∧ '\x00' ∈ (Reader.fullPath directory path).toList := by
  unfold diskReaders
  exact Reader.changed_ofDisk_eq_error_iff

theorem keepsMute_iff_keepsNull :
    KeepsMute builder (diskReaders directory disks) lists step ↔
      KeepsNull builder directory lists step := by
  constructor
  · rintro ⟨path, hpath, hnext, cause, hcause⟩
    exact ⟨path, hpath, hnext, (changed_diskReaders_eq_error_iff.mp hcause).2⟩
  · rintro ⟨path, hpath, hnext, hnull⟩
    exact ⟨path, hpath, hnext, _, changed_diskReaders_eq_error_iff.mpr ⟨rfl, hnull⟩⟩

/-- Files have the same outcome as before on a disk that stays as it is. -/
theorem faithful_of_still (builder : Builder) (directory : String) (disk : Disk)
    (lists : Nat → List String) : Faithful builder (diskReaders directory fun _ => disk) lists := by
  intro step before _ path _ _
  have hstill : diskReaders directory (fun _ => disk) (step + 1) =
      diskReaders directory (fun _ => disk) (before.scannedAt path) := by
    unfold diskReaders
    rfl
  rw [hstill]

end Disks

/-- A graph of the files on a disk that is built once and refreshed after each change of the disk.

* Watching comes through exactly if every build would, and if no refresh keeps a file with a null
  character in its full path; such a refresh fails, though building would not.
* The graph agrees with the one that is built anew.
* The next refresh does not depend on what is in the files whose nodes carry the times that they have
  then. -/
theorem watch_agrees_with_build (hplain : builder.aliases.Plain) (directory : String)
    (disks : Nat → Disk) (lists : Nat → List String)
    (hfaithful : Faithful builder (diskReaders directory disks) lists) (last : Nat) :
    ((∃ watched, builder.watch (diskReaders directory disks) lists last = .ok watched) ↔
      (∀ step ≤ last, ∃ g, builder.buildAt (diskReaders directory disks) lists step = .ok g) ∧
        ∀ step < last, ¬ KeepsNull builder directory lists step) ∧
    ((∀ step ≤ last, ∃ g, builder.buildAt (diskReaders directory disks) lists step = .ok g) →
      (∃ step < last, KeepsNull builder directory lists step) →
        builder.watch (diskReaders directory disks) lists last = .error (.disk .nullCharacter)) ∧
    ∀ watched, builder.watch (diskReaders directory disks) lists last = .ok watched →
      (∀ g, builder.buildAt (diskReaders directory disks) lists last = .ok g →
        watched.graph.same g = true ∧ watched.graph.diagnostics.Perm g.diagnostics) ∧
      ∀ other : Reader, other.changed = (diskReaders directory disks (last + 1)).changed →
        (∀ path ∈ builder.keysAt lists (last + 1),
          isCurrent (diskReaders directory disks (last + 1)) watched.graph path = false →
          other.read path = (diskReaders directory disks (last + 1)).read path) →
        (builder.withReader other).refresh (.paths (lists (last + 1))) watched.graph =
          builder.refreshAt (diskReaders directory disks) lists (last + 1) watched.graph := by
  have hreaders := timely_diskReaders directory disks
  have hmute : ∀ step, KeepsMute builder (diskReaders directory disks) lists step ↔
      KeepsNull builder directory lists step := fun _ => keepsMute_iff_keepsNull
  refine ⟨⟨?_, ?_⟩, ?_, ?_⟩
  · rintro ⟨watched, hwatch⟩
    obtain ⟨-, hbuilds, hnone⟩ := tracked_of_watch hplain hreaders hfaithful hwatch
    exact ⟨hbuilds, fun step hlt hnull => hnone step hlt ((hmute step).mpr hnull)⟩
  · rintro ⟨hbuilds, hnone⟩
    exact exists_watch hplain hreaders hfaithful hbuilds fun step hlt hkeeps =>
      hnone step hlt ((hmute step).mp hkeeps)
  · rintro hbuilds ⟨step, hlt, hnull⟩
    cases hwatch : builder.watch (diskReaders directory disks) lists last with
    | ok watched =>
        obtain ⟨-, -, hnone⟩ := tracked_of_watch hplain hreaders hfaithful hwatch
        exact absurd ((hmute step).mpr hnull) (hnone step hlt)
    | error fault =>
        obtain ⟨earlier, path, cause, hcause, rfl⟩ :=
          of_watch_eq_error hplain hreaders hfaithful hbuilds hwatch
        rw [(changed_diskReaders_eq_error_iff.mp hcause).1]
  · intro watched hwatch
    obtain ⟨htracked, -, -⟩ := tracked_of_watch hplain hreaders hfaithful hwatch
    refine ⟨fun g hbuild => ?_, fun other htimes hread => ?_⟩
    · exact htracked.settled.agree (of_buildAt hbuild).1 htracked.alike
    · refine refresh_congr htracked.settled.recorded htimes fun path hpath houtdated => ?_
      refine hread path hpath ?_
      rwa [htracked.settled.recorded.outdated_eq, Bool.not_eq_true'] at houtdated

/-- A disk that stays as it is, with a file that names another one.  The other one is asked for from the
second step on and is not there.  Instead of the two, a single name with a null character is built, but
not refreshed. -/
theorem watch_agrees_with_build_of_still_disk :
    ∃ (builder : Builder) (disk : Disk) (watched : Watched) (g h : Graph),
      builder.watch (diskReaders "/p" fun _ => disk) (fun step => ["a.ts", "b.ts"].take (step + 1)) 2 =
        .ok watched ∧
      builder.buildAt (diskReaders "/p" fun _ => disk) (fun step => ["a.ts", "b.ts"].take (step + 1)) 2 =
        .ok g ∧
      watched.graph.same g = true ∧ watched.graph.diagnostics.Perm g.diagnostics ∧
      builder.buildAt (diskReaders "/p" fun _ => disk) (fun _ => ["a\x00.ts"]) 1 = .ok h ∧
      builder.watch (diskReaders "/p" fun _ => disk) (fun _ => ["a\x00.ts"]) 1 =
        .error (.disk .nullCharacter) := by
  let builder : Builder := { reader := .ofText "" }
  let disk : Disk := {
    tree := .directory [("p", .directory [("a.ts", .file "import './b'".toUTF8.toList ⟨0⟩)])] }
  have hplain : builder.aliases.Plain := nofun
  have hfaithful := faithful_of_still builder "/p" disk
  have hbuilds : ∀ lists : Nat → List String,
      (∀ step, ∀ path ∈ lists step, FileKind.ofPath (builder.key path) ≠ .asset) →
      ∀ step, ∃ g, builder.buildAt (diskReaders "/p" fun _ => disk) lists step = .ok g := by
    intro lists hkinds step
    refine (exists_buildAt_iff hplain).mpr ?_
    rintro fault (⟨-, -, hpool⟩ | ⟨hpath, hkind, -⟩)
    · cases hpool
    · obtain ⟨given, hgiven, rfl⟩ := exists_of_mem_keysAt hpath
      exact hkinds step given hgiven hkind
  have hscripts := hbuilds (fun step => ["a.ts", "b.ts"].take (step + 1)) fun step path hpath => by
    have hkinds : ∀ path ∈ ["a.ts", "b.ts"], FileKind.ofPath (builder.key path) ≠ .asset := by
      decide +kernel
    exact hkinds path (List.mem_of_mem_take hpath)
  have hnulls := hbuilds (fun _ => ["a\x00.ts"]) fun _ => by decide +kernel
  have hplainPaths : ∀ step < 2,
      ¬ KeepsNull builder "/p" (fun step => ["a.ts", "b.ts"].take (step + 1)) step := by
    rintro step - ⟨path, hpath, -, hnull⟩
    obtain ⟨given, hgiven, rfl⟩ := exists_of_mem_keysAt hpath
    have hclean : ∀ path ∈ ["a.ts", "b.ts"],
        '\x00' ∉ (Reader.fullPath "/p" (builder.key path)).toList := by decide +kernel
    exact hclean given (List.mem_of_mem_take hgiven) hnull
  have hkeeps : KeepsNull builder "/p" (fun _ => ["a\x00.ts"]) 0 := by
    refine ⟨"a\x00.ts", ?_, ?_, ?_⟩
    · decide +kernel
    · decide +kernel
    · decide +kernel
  obtain ⟨hiff, -, hagree⟩ := watch_agrees_with_build hplain "/p" (fun _ => disk)
    (fun step => ["a.ts", "b.ts"].take (step + 1)) (hfaithful _) 2
  obtain ⟨-, hfails, -⟩ := watch_agrees_with_build hplain "/p" (fun _ => disk)
    (fun _ => ["a\x00.ts"]) (hfaithful _) 1
  obtain ⟨watched, hwatch⟩ := hiff.mpr ⟨fun step _ => hscripts step, hplainPaths⟩
  obtain ⟨g, hg⟩ := hscripts 2
  obtain ⟨h, hh⟩ := hnulls 1
  obtain ⟨hsame, hperm⟩ := (hagree watched hwatch).1 g hg
  exact ⟨builder, disk, watched, g, h, hwatch, hg, hsame, hperm, hh,
    hfails (fun step _ => hnulls step) ⟨0, by decide, hkeeps⟩⟩

end ChangeImpact.Builder
