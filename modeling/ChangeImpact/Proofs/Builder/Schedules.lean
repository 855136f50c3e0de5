import ChangeImpact.Proofs.Builder.Runs
import ChangeImpact.Proofs.Reader.Workers
import Mathlib.Data.List.Dedup

/-!
# The order of reads makes no difference

The workers of a pool finish in an order that nobody knows.  Here it is shown that no builder notices:
whichever order it is, and however many workers there are, a builder does the same to every graph.

A pool shows the results of its reads in a table, and the order of the reads is the order of its entries
(`ReaderPool.map_get?_readAll`).  A scan looks the table up by path and passes through the files by
increasing path (`scanAll_congr_pool`).  Building, refreshing and applying changes read files only in the
passes that they end with, so they come to the same end, with the same edges and with the same
diagnostics in the same order, and also with the same fault if they fail.  By induction a run of turns
does not notice either, though every turn has an order of its own (`takeTurns_congr_pool`).
-/

namespace ChangeImpact

/-! ## What a pool has read -/

/-- The results of reading some files: there is one under the path of every file, and no other one. -/
structure ReaderPool.Answers (reader : Reader) (paths : List String) (reads : Table FileRead) :
    Prop where
  once : reads.keys.Perm paths.dedup
  answer : ∀ path ∈ paths, reads.get? path = some (reader.read path)

namespace ReaderPool

variable {pool : ReaderPool} {reader : Reader} {paths : List String} {reads : Table FileRead}

theorem answers_of_readAll (h : pool.readAll reader paths = .ok reads) :
    Answers reader paths reads := by
  have hget : ∀ path, reads.get? path = if path ∈ paths then some (reader.read path) else none :=
    fun _ => Builder.get?_of_readAll h
  constructor
  · apply (List.perm_ext_iff_of_nodup reads.nodup_keys (List.nodup_dedup paths)).mpr
    intro path
    rw [Table.mem_keys, List.mem_dedup, Table.mem_iff_exists, hget]
    by_cases hpath : path ∈ paths
    · simp [hpath]
    · simp [hpath]
  · intro path hpath
    rw [hget, if_pos hpath]

/-- A pool with a worker gives all results. -/
theorem exists_answers (hworkers : pool.hasWorkers = true) (reader : Reader) (paths : List String) :
    ∃ reads, pool.readAll reader paths = .ok reads ∧ Answers reader paths reads := by
  cases hreads : pool.readAll reader paths with
  | ok reads => exact ⟨reads, rfl, answers_of_readAll hreads⟩
  | error fault =>
      obtain ⟨-, hnone, -⟩ := Builder.of_readAll_error hreads
      rw [hworkers] at hnone
      cases hnone

/-- What is looked up in the results of a pool depends on its schedule in no way, and on the number of
its workers only in whether there are any. -/
theorem map_get?_readAll (pool : ReaderPool) (reader : Reader) (paths : List String) :
    (pool.readAll reader paths).map Table.get? =
      if pool.hasWorkers = true ∨ paths = [] then
        .ok fun path => if path ∈ paths then some (reader.read path) else none
      else .error .noWorkers := by
  cases hreads : pool.readAll reader paths with
  | ok reads =>
      have hpool : pool.hasWorkers = true ∨ paths = [] := by
        by_cases hpaths : paths = []
        · exact .inr hpaths
        · obtain ⟨path, hpath⟩ := List.exists_mem_of_ne_nil paths hpaths
          exact .inl (Builder.of_readAll_ok hreads hpath)
      rw [if_pos hpool]
      exact congrArg Except.ok (funext fun path => Builder.get?_of_readAll hreads)
  | error fault =>
      obtain ⟨rfl, hnone, path, hpath⟩ := Builder.of_readAll_error hreads
      have hpool : ¬ (pool.hasWorkers = true ∨ paths = []) := by
        rintro (hworkers | hempty)
        · rw [hnone] at hworkers
          cases hworkers
        · rw [hempty] at hpath
          cases hpath
      rw [if_neg hpool]
      rfl

end ReaderPool

namespace Builder

variable {builder : Builder} {first second : ReaderPool} {reader : Reader} {paths : List String}

/-! ## Builders that differ in their pools -/

/-- The builder with another pool. -/
def withPool (builder : Builder) (pool : ReaderPool) : Builder := { builder with pool }

section WithPool

variable (builder : Builder) (pool : ReaderPool)

@[simp] theorem keysOf_withPool (files : FileSet) :
    (builder.withPool pool).keysOf files = builder.keysOf files := by
  simp only [keysOf, withPool]
  unfold key
  rfl

@[simp] theorem readerFor_withPool (files : FileSet) :
    (builder.withPool pool).readerFor files = builder.readerFor files := by
  cases files with
  | paths paths => rfl
  | contents contents =>
      simp only [readerFor, keyedContents, withPool]
      unfold key
      rfl

@[simp] theorem passes_withPool (other : ReaderPool) (all : Bool) :
    (builder.withPool pool).passes other reader all paths = builder.passes other reader all paths := by
  simp only [passes, scanAll, scanRead, relink, linkAll, linkSome, resolverFor, withPool]

@[simp] theorem applyChange_withPool :
    (builder.withPool pool).applyChange = builder.applyChange := by
  funext change
  simp only [applyChange, withPool]
  unfold key
  rfl

end WithPool

/-- What is done with a result may depend on a part of the result only. -/
private theorem demand_bind_congr {ε α β γ : Type} {wrap : ε → BuildError} {view : α → β}
    {left right : Except ε α} {next : α → BuildStep γ} (h : left.map view = right.map view)
    (hnext : ∀ value other, view value = view other → next value = next other) :
    demand wrap left >>= next = demand wrap right >>= next := by
  cases left with
  | ok value =>
      cases right with
      | ok other =>
          have hsame : next value = next other := hnext value other (Except.ok.inj h)
          simp only [demand, pure_bind, hsame]
      | error fault => cases h
  | error cause =>
      cases right with
      | ok other => cases h
      | error fault =>
          have hcause : cause = fault := Except.error.inj h
          rw [hcause]

/-- A scan looks results up by path, so it does not notice the order in which they came. -/
theorem scanAll_congr_pool (hpools : first.hasWorkers = second.hasWorkers) :
    builder.scanAll first reader paths = builder.scanAll second reader paths := by
  unfold scanAll
  apply bind_congr
  intro nodes
  have hreads : ∀ scripts, (first.readAll reader scripts).map Table.get? =
      (second.readAll reader scripts).map Table.get? := by
    intro scripts
    rw [ReaderPool.map_get?_readAll, ReaderPool.map_get?_readAll, hpools]
  apply demand_bind_congr (hreads _)
  intro reads others hlook
  have hget : ∀ path, reads.get? path = others.get? path := congrFun hlook
  simp only [hget]

theorem passes_congr_pool (hpools : first.hasWorkers = second.hasWorkers) (all : Bool) :
    builder.passes first reader all paths = builder.passes second reader all paths := by
  rw [passes, passes, scanAll_congr_pool hpools]

theorem build_congr_pool (hpools : first.hasWorkers = second.hasWorkers) (files : FileSet) :
    (builder.withPool first).build files = (builder.withPool second).build files := by
  have hsteps : ∀ pool, (builder.withPool pool).buildSteps files =
      ((builder.keysOf files).toList.forM fun path =>
          perform (Graph.addNode path (FileKind.ofPath path))) >>= fun _ =>
        builder.passes pool (builder.readerFor files) true (builder.keysOf files).toList := by
    intro pool
    rw [← keysOf_withPool builder pool, ← readerFor_withPool builder pool,
      ← passes_withPool builder pool]
    rfl
  rw [build, build, hsteps, hsteps, passes_congr_pool hpools]

theorem refresh_congr_pool (hpools : first.hasWorkers = second.hasWorkers) (files : FileSet) :
    (builder.withPool first).refresh files = (builder.withPool second).refresh files := by
  have hsteps : ∀ pool, (builder.withPool pool).refresh files =
      select (builder.keysOf files) (builder.readerFor files).changed >>= fun chosen =>
        builder.passes pool (builder.readerFor files) chosen.1 chosen.2 := by
    intro pool
    rw [refresh_eq, keysOf_withPool, readerFor_withPool]
    simp only [passes_withPool]
    rfl
  rw [hsteps, hsteps]
  apply bind_congr
  intro chosen
  exact passes_congr_pool hpools chosen.1

theorem applyChanges_congr_pool (hpools : first.hasWorkers = second.hasWorkers)
    (changes : List Change) :
    (builder.withPool first).applyChanges changes =
      (builder.withPool second).applyChanges changes := by
  have hsteps : ∀ pool, (builder.withPool pool).applyChanges changes =
      changes.mapM builder.applyChange >>= fun outcomes =>
        builder.passes pool builder.reader (outcomes.any (·.1))
          (PathSet.ofList (outcomes.filterMap (·.2))).toList := by
    intro pool
    rw [← applyChange_withPool builder pool]
    simp only [← passes_withPool builder pool]
    rfl
  rw [hsteps, hsteps]
  apply bind_congr
  intro outcomes
  exact passes_congr_pool hpools _

theorem updateFile_congr_pool (hpools : first.hasWorkers = second.hasWorkers) (path : String)
    (content : Option String) :
    (builder.withPool first).updateFile path content =
      (builder.withPool second).updateFile path content := by
  by_cases hempty : builder.key path = ""
  · have hsteps : ∀ pool, (builder.withPool pool).updateFile path content = pure () := by
      intro pool
      have hnone : (builder.withPool pool).key path = "" := hempty
      rw [updateFile_of_eq content hnone]
    rw [hsteps, hsteps]
  · have hsteps : ∀ pool, (builder.withPool pool).updateFile path content =
        ensureNode (builder.key path) >>= fun added =>
          builder.passes ((builder.withPool pool).updatePool content) (builder.updateReader content)
            added [builder.key path] := by
      intro pool
      have hne : (builder.withPool pool).key path ≠ "" := hempty
      rw [updateFile_of_ne content hne]
      simp only [passes_withPool]
      rfl
    -- a file of which the text is given is read by a worker of its own
    have hupdate : ((builder.withPool first).updatePool content).hasWorkers =
        ((builder.withPool second).updatePool content).hasWorkers := by
      cases content with
      | none => exact hpools
      | some content => rfl
    rw [hsteps, hsteps]
    apply bind_congr
    intro added
    exact passes_congr_pool hupdate added

/-- Whatever a builder is asked for, its pool makes no difference. -/
theorem carryOut_congr_pool (hpools : first.hasWorkers = second.hasWorkers) (task : Task) :
    (builder.withPool first).carryOut task = (builder.withPool second).carryOut task := by
  cases task with
  | build files => rw [carryOut, carryOut, build_congr_pool hpools files]
  | update path content => rw [carryOut, carryOut, updateFile_congr_pool hpools path content]
  | remove path => rfl
  | apply changes => rw [carryOut, carryOut, applyChanges_congr_pool hpools changes]
  | refresh files => rw [carryOut, carryOut, refresh_congr_pool hpools files]

/-- Two runs of turns with the same tasks and readers do the same, whatever pools the builders have and
whatever the schedules of the turns are. -/
theorem takeTurns_congr_pool (hpools : first.hasWorkers = second.hasWorkers) {turns others : List Turn}
    (h : turns.map (fun turn => (turn.task, turn.reader)) =
      others.map fun turn => (turn.task, turn.reader)) :
    (builder.withPool first).takeTurns turns = (builder.withPool second).takeTurns others := by
  have hturn : ∀ turn other : Turn, (turn.task, turn.reader) = (other.task, other.reader) →
      (builder.withPool first).takeTurn turn = (builder.withPool second).takeTurn other := by
    intro turn other heq
    obtain ⟨htask, hreader⟩ := Prod.mk.inj heq
    have hduring : ({ builder with reader := turn.reader } : Builder).withPool
          { first with schedule := turn.schedule } = (builder.withPool first).during turn := rfl
    have hother : ({ builder with reader := turn.reader } : Builder).withPool
          { second with schedule := other.schedule } = (builder.withPool second).during other := by
      rw [hreader]
      rfl
    have hworkers : ({ first with schedule := turn.schedule } : ReaderPool).hasWorkers =
        ({ second with schedule := other.schedule } : ReaderPool).hasWorkers := hpools
    rw [takeTurn, takeTurn, ← hduring, ← hother, ← htask]
    exact carryOut_congr_pool hworkers turn.task
  -- the turns are taken one by one, and in none of them can the pools be told apart
  induction turns generalizing others with
  | nil =>
      rw [List.map_nil, eq_comm, List.map_eq_nil_iff] at h
      rw [h]
      rfl
  | cons turn rest ih =>
      cases others with
      | nil => cases h
      | cons other others =>
          obtain ⟨hhead, hrest⟩ := List.cons.inj h
          have htail : rest.forM (builder.withPool first).takeTurn =
              others.forM (builder.withPool second).takeTurn := ih hrest
          show ((builder.withPool first).takeTurn turn >>= fun _ =>
              rest.forM (builder.withPool first).takeTurn) = _
          rw [hturn turn other hhead, htail]
          rfl

/-- However many workers there are, and in whatever order they finish:

* the workers come to an end, and when they do, what has been collected is one result for each of the
  files, the one that the reader gives, and it is what a pool reads by some schedule;
* what a pool reads by any other schedule is one result for each of the files, too;
* a builder builds the same graph, and refreshes and changes every graph in the same way; the diagnostics
  of a graph are a list, so they are the same in the same order;
* and it does so turn after turn, with another order in every turn. -/
theorem order_of_reads_irrelevant (builder : Builder) (reader : Reader) {workers : Nat}
    (hworkers : 0 < workers) (hfirst : first.hasWorkers = true)
    (hsecond : second.hasWorkers = true) :
    (WellFounded fun next work => Work.Step workers reader work next) ∧
    (∀ work, ∃ final, Work.Run workers reader work final ∧ final.pending = []) ∧
    (∀ paths final, Work.Run workers reader (.ofPaths paths) final → final.pending = [] →
      ReaderPool.Answers reader paths final.collected ∧
        ∃ schedule, { first with schedule }.readAll reader paths = .ok final.collected) ∧
    (∀ paths, ∃ reads, first.readAll reader paths = .ok reads ∧
      ReaderPool.Answers reader paths reads) ∧
    (∀ files, (builder.withPool first).build files = (builder.withPool second).build files) ∧
    (∀ files g, (builder.withPool first).refresh files g =
      (builder.withPool second).refresh files g) ∧
    (∀ changes g, (builder.withPool first).applyChanges changes g =
      (builder.withPool second).applyChanges changes g) ∧
    ∀ turns others : List Turn,
      turns.map (fun turn => (turn.task, turn.reader)) =
          others.map (fun turn => (turn.task, turn.reader)) →
        ∀ g, (builder.withPool first).takeTurns turns g =
          (builder.withPool second).takeTurns others g := by
  have hpools : first.hasWorkers = second.hasWorkers := hfirst.trans hsecond.symm
  refine ⟨Work.wellFounded_step workers reader, ?_, ?_, ?_, ?_, ?_, ?_, ?_⟩
  · exact Work.exists_run_to_end hworkers reader
  · intro paths final hrun hend
    obtain ⟨schedule, hschedule⟩ := hrun.exists_schedule hend
    have hreads := hschedule first hfirst
    exact ⟨ReaderPool.answers_of_readAll hreads, schedule, hreads⟩
  · exact ReaderPool.exists_answers hfirst reader
  · exact build_congr_pool hpools
  · intro files g
    rw [refresh_congr_pool hpools]
  · intro changes g
    rw [applyChanges_congr_pool hpools]
  · intro turns others hturns g
    rw [takeTurns_congr_pool hpools hturns]

/-- What is asked for last is read first. -/
def lastFirst : Schedule where
  order := List.reverse
  complete _ := List.reverse_perm _

/-- Two files are built by one worker, and by three workers who finish the other way round; and two
workers read them, so that the result for the second file is collected first. -/
theorem order_of_reads_irrelevant_of_two_files :
    let reader : Reader := .ofText "import './b'; import '../x'"
    let builder : Builder := { reader }
    let files : FileSet := .paths ["a.ts", "b.ts"]
    ∃ g final,
      (builder.withPool { workers := some 1 }).build files = .ok g ∧
      (builder.withPool { workers := some 3, schedule := lastFirst }).build files = .ok g ∧
      Work.Run 2 reader (.ofPaths ["a.ts", "b.ts"]) final ∧
      final.collected.keys = ["b.ts", "a.ts"] ∧
      ReaderPool.Answers reader ["a.ts", "b.ts"] final.collected := by
  intro reader builder files
  let oneWorker : ReaderPool := { workers := some 1 }
  let threeWorkers : ReaderPool := { workers := some 3, schedule := lastFirst }
  have hfirst : oneWorker.hasWorkers = true := by decide
  have hsecond : threeWorkers.hasWorkers = true := by decide
  have htwo : 0 < 2 := by decide
  obtain ⟨-, -, hruns, -, hbuild, -⟩ :=
    order_of_reads_irrelevant builder reader htwo hfirst hsecond
  have hplain : (builder.withPool oneWorker).aliases.Plain := nofun
  have hnothing : ∀ fault, ¬ Obstacle (builder.withPool oneWorker).pool
      ((builder.withPool oneWorker).readerFor files)
      ((builder.withPool oneWorker).keysOf files).toList fault := by
    intro fault hobstacle
    cases hobstacle with
    | noWorkers _ _ hpool => cases hpool
    | noTime _ _ hfault => cases hfault
  obtain ⟨g, hg⟩ := exists_build hplain hnothing
  let final : Work :=
    { waiting := []
      collected := ((∅ : Table FileRead).insert "b.ts" (reader.read "b.ts")).insert "a.ts"
        (reader.read "a.ts") }
  have hrun : Work.Run 2 reader (.ofPaths ["a.ts", "b.ts"]) final := by
    apply Relation.ReflTransGen.head (Work.Step.take (by decide))
    apply Relation.ReflTransGen.head (Work.Step.take (by decide))
    apply Relation.ReflTransGen.head (Work.Step.finish ["a.ts"])
    apply Relation.ReflTransGen.head (Work.Step.enter [])
    apply Relation.ReflTransGen.head (Work.Step.finish [])
    exact Relation.ReflTransGen.single (Work.Step.enter [])
  refine ⟨g, final, hg, (hbuild files) ▸ hg, hrun, rfl, ?_⟩
  exact (hruns _ final hrun rfl).1

end Builder
end ChangeImpact
