import ChangeImpact.Proofs.Graph.Readings
import ChangeImpact.Proofs.Graph.Renaming
import ChangeImpact.Proofs.Json.Keys

/-!
# One document, two readings

A reading may take more than another one.  If it takes what the other one takes, under renamed paths, and takes
nothing else for one of these paths, there is a `Translation`.  Then both readings make the same graph of a
document, but for what the paths are called, unless the smaller one finds something foreign
(`Translation.ofDocumentBy`).

The renamed graph is made by the renamed steps (`Translation.Follows`).  What is left is a matter of which values
the two readings refuse: they refuse the same ones as ill-typed, and what is a path to the larger reading only is
never the path of a node.

What is read as texts is read as values, too (`ofDocumentBy_values`).
-/

namespace ChangeImpact.Graph

variable {κ σ κ' σ' : Type} [LT κ] [LT κ']

/-- What one reading takes for paths and names, taken for others by a second reading. -/
structure Translation (reading : Reading κ σ) (other : Reading κ' σ') extends Renaming κ σ κ' σ' where
  path?_eq : ∀ value found, reading.path? value = some found → other.path? value = some (path found)
  specifier?_eq : ∀ value found, reading.specifier? value = some found →
    other.specifier? value = some (name found)
  isKey : ∀ value found, other.path? value = some found → value.isKey = true
  /-- Nothing else is a renamed path. -/
  fresh : ∀ value, reading.path? value = none → ∀ found, other.path? value ≠ some (path found)

namespace Translation

variable {reading : Reading κ σ} {other : Reading κ' σ'} (t : Translation reading other)

/-! ## Reading a part of a value -/

/-- Two readings of a part of a value agree: both succeed, with results that are related, or both fail.  Nothing is
said if the first one finds something foreign. -/
inductive Agree {κ κ' α β : Type} (related : α → β → Prop) :
    Except (DocumentFault κ) α → Except (DocumentFault κ') β → Prop where
  | ok {value : α} {value' : β} (h : related value value') : Agree related (.ok value) (.ok value')
  | error {fault : DocumentFault κ} {fault' : DocumentFault κ'} : Agree related (.error fault) (.error fault')
  | foreign {fault : DocumentFault κ} {read : Except (DocumentFault κ') β} (h : fault.IsForeign) :
      Agree related (.error fault) read

namespace Agree

variable {κ κ' α β γ δ : Type} {related : α → β → Prop} {read : Except (DocumentFault κ) α}
  {read' : Except (DocumentFault κ') β}

theorem of_ok (h : Agree related read read') {value : α} (hread : read = .ok value) :
    ∃ value', read' = .ok value' ∧ related value value' := by
  cases h with
  | ok h =>
      cases hread
      exact ⟨_, rfl, h⟩
  | error => cases hread
  | foreign _ => cases hread

theorem of_error (h : Agree related read read') {fault : DocumentFault κ} (hread : read = .error fault) :
    fault.IsForeign ∨ ∃ fault', read' = .error fault' := by
  cases h with
  | ok _ => cases hread
  | error => exact .inr ⟨_, rfl⟩
  | foreign h =>
      cases hread
      exact .inl h

theorem bind {related' : γ → δ → Prop} {next : α → Except (DocumentFault κ) γ}
    {next' : β → Except (DocumentFault κ') δ} (h : Agree related read read')
    (hnext : ∀ value value', related value value' → Agree related' (next value) (next' value')) :
    Agree related' (read >>= next) (read' >>= next') := by
  cases h with
  | ok h => exact hnext _ _ h
  | error => exact .error
  | foreign h => exact .foreign h

theorem fieldsOf (value : Json) :
    Agree Eq (fieldsOf value : Except (DocumentFault κ) _) (Graph.fieldsOf value : Except (DocumentFault κ') _) := by
  unfold Graph.fieldsOf
  cases value.fields? with
  | none => exact .error
  | some fields => exact .ok rfl

theorem elements (value : Json) :
    Agree Eq (elements value : Except (DocumentFault κ) _) (Graph.elements value : Except (DocumentFault κ') _) := by
  cases value with
  | array _ | string _ | halved _ | object _ | halvedObject _ => exact .ok rfl
  | null | bool _ | int _ | float _ => exact .error

theorem demandField (fields : List (String × Json)) (name : String) :
    Agree Eq (demandField fields name : Except (DocumentFault κ) _)
      (Graph.demandField fields name : Except (DocumentFault κ') _) := by
  unfold Graph.demandField
  cases Json.field? fields name with
  | none => exact .error
  | some value => exact .ok rfl

theorem kindNamed (value : Json) :
    Agree Eq (kindNamed value : Except (DocumentFault κ) _) (Graph.kindNamed value : Except (DocumentFault κ') _) := by
  cases value with
  | string name =>
      unfold Graph.kindNamed
      dsimp only
      cases FileKind.ofName? name with
      | none => exact .error
      | some kind => exact .ok rfl
  | _ => exact .error

theorem targets (fields : List (String × Json)) :
    Agree Eq (Graph.demandField fields "to" >>= Graph.elements : Except (DocumentFault κ) _)
      (Graph.demandField fields "to" >>= Graph.elements : Except (DocumentFault κ') _) := by
  refine (demandField fields "to").bind fun value _ heq => ?_
  subst heq
  exact elements value

theorem mapM {read : Json → Except (DocumentFault κ) α} {read' : Json → Except (DocumentFault κ') β}
    {change : α → β} (h : ∀ item, Agree (fun found found' => found' = change found) (read item) (read' item))
    (items : List Json) :
    Agree (fun found found' => found' = found.map change) (items.mapM read) (items.mapM read') := by
  induction items with
  | nil => exact .ok rfl
  | cons item rest ih =>
      rw [List.mapM_cons, List.mapM_cons]
      refine (h item).bind fun found found' hfound => ih.bind fun others others' hothers => ?_
      exact .ok (by rw [hfound, hothers, List.map_cons])

end Agree

theorem agree_pathOf (value : Json) :
    Agree (fun path path' => path' = t.path path) (reading.pathOf value) (other.pathOf value) := by
  unfold Reading.pathOf
  cases hpath : reading.path? value with
  | some path =>
      rw [t.path?_eq value path hpath]
      exact .ok rfl
  | none =>
      cases hkey : value.isKey with
      | true => exact .foreign trivial
      | false =>
          cases hother : other.path? value with
          | none => exact .error
          | some found => exact absurd (t.isKey value found hother) (hkey ▸ Bool.false_ne_true)

theorem agree_specifierOf (value : Json) :
    Agree (fun name name' => name' = t.name name) (reading.specifierOf value) (other.specifierOf value) := by
  unfold Reading.specifierOf
  cases hname : reading.specifier? value with
  | some name =>
      rw [t.specifier?_eq value name hname]
      exact .ok rfl
  | none => exact .foreign trivial

variable [LE κ] [Std.IsLinearOrder κ] [Std.LawfulOrderLT κ] [LE κ'] [Std.LawfulOrderLT κ']

/-- Only what the first reading takes is the path of a node in a renamed graph. -/
theorem isSome_of_hasNode [DecidableEq κ'] (g : Graph κ σ) {value : Json} {found : κ'}
    (hfound : other.path? value = some found) (hnode : (t.graph g).hasNode found = true) :
    (reading.path? value).isSome := by
  have hkey : found ∈ (t.table t.node g.nodes).keys := Table.contains_iff.mp hnode
  rw [t.keys_table] at hkey
  obtain ⟨path, -, rfl⟩ := List.mem_map.mp hkey
  by_contra hnone
  exact t.fresh value (Option.not_isSome_iff_eq_none.mp hnone) path hfound

/-! ## Steps of reading -/

/-- What a step of reading makes of a graph. -/
def outcome {κ σ : Type} [LT κ] (step : ReadStep Unit κ σ) (g : Graph κ σ) :
    Except (DocumentFault κ) (Graph κ σ) :=
  match step g with
  | .ok _ after => .ok after
  | .error fault _ => .error fault

theorem outcome_bind {κ σ : Type} [LT κ] (step : ReadStep Unit κ σ) (next : Unit → ReadStep Unit κ σ)
    (g : Graph κ σ) : outcome (step >>= next) g = outcome step g >>= outcome (next ()) := by
  unfold outcome
  cases hstep : step g with
  | ok _ after => simp only [bind, EStateM.bind, hstep, Except.bind]
  | error fault after => simp only [bind, EStateM.bind, hstep, Except.bind]

theorem outcome_liftRead_bind {κ σ α : Type} [LT κ] (read : Except (DocumentFault κ) α)
    (next : α → ReadStep Unit κ σ) (g : Graph κ σ) :
    outcome (liftRead read >>= next) g = read >>= fun value => outcome (next value) g := by
  cases read with
  | ok value => rfl
  | error fault => rfl

/-- A step of the second reading does to renamed graphs what a step of the first one does to graphs. -/
def Follows (step : ReadStep Unit κ σ) (step' : ReadStep Unit κ' σ') : Prop :=
  ∀ g, Agree (fun after after' => after' = t.graph after) (outcome step g) (outcome step' (t.graph g))

variable {t}

namespace Follows

theorem bind {step : ReadStep Unit κ σ} {step' : ReadStep Unit κ' σ'} {next : Unit → ReadStep Unit κ σ}
    {next' : Unit → ReadStep Unit κ' σ'} (h : t.Follows step step') (hnext : t.Follows (next ()) (next' ())) :
    t.Follows (step >>= next) (step' >>= next') := by
  intro g
  rw [outcome_bind, outcome_bind]
  refine (h g).bind ?_
  rintro after _ rfl
  exact hnext after

theorem read_bind {α β : Type} {related : α → β → Prop} {read : Except (DocumentFault κ) α}
    {read' : Except (DocumentFault κ') β} {next : α → ReadStep Unit κ σ} {next' : β → ReadStep Unit κ' σ'}
    (h : Agree related read read')
    (hnext : ∀ value value', related value value' → t.Follows (next value) (next' value')) :
    t.Follows (liftRead read >>= next) (liftRead read' >>= next') := by
  intro g
  rw [outcome_liftRead_bind, outcome_liftRead_bind]
  exact h.bind fun value value' hvalue => hnext value value' hvalue g

theorem forM {ι : Type} {round : ι → ReadStep Unit κ σ} {round' : ι → ReadStep Unit κ' σ'}
    (h : ∀ item, t.Follows (round item) (round' item)) (items : List ι) :
    t.Follows (items.forM round) (items.forM round') := by
  induction items with
  | nil => exact fun _ => .ok rfl
  | cons item rest ih => exact (h item).bind ih

end Follows

/-! ## Steps on graphs -/

theorem outcome_liftStep {κ σ : Type} [LT κ] {step : GraphStep Unit κ σ} {g after : Graph κ σ}
    (h : step g = .ok () after) : outcome (liftStep step) g = .ok after := by
  rw [outcome, liftStep, h]

theorem exists_outcome_liftStep {κ σ : Type} [LT κ] {step : GraphStep Unit κ σ} {g after : Graph κ σ}
    {cause : GraphError κ} (h : step g = .error cause after) :
    ∃ fault, outcome (liftStep step) g = .error fault := by
  unfold outcome liftStep
  rw [h]
  cases cause with
  | violation cause => exact ⟨_, rfl⟩
  | missingEntry key => exact ⟨_, rfl⟩

/-- A step on graphs is followed by one that succeeds, with the renamed graph, where it succeeds, and fails
where it fails. -/
theorem Follows.liftStep {step : GraphStep Unit κ σ} {step' : GraphStep Unit κ' σ'}
    (h : ∀ g, (∃ after, step g = .ok () after ∧ step' (t.graph g) = .ok () (t.graph after)) ∨
      ∃ cause after cause' after', step g = .error cause after ∧ step' (t.graph g) = .error cause' after') :
    t.Follows (liftStep step) (liftStep step') := by
  intro g
  rcases h g with ⟨after, hstep, hstep'⟩ | ⟨cause, after, cause', after', hstep, hstep'⟩
  · rw [outcome_liftStep hstep, outcome_liftStep hstep']
    exact .ok rfl
  · obtain ⟨fault, hfault⟩ := exists_outcome_liftStep hstep
    obtain ⟨fault', hfault'⟩ := exists_outcome_liftStep hstep'
    rw [hfault, hfault']
    exact .error

section Operations

variable [DecidableEq κ] [DecidableEq κ']

theorem Follows.modifyNode (path : κ) {change : FileNode κ σ → FileNode κ σ}
    {change' : FileNode κ' σ' → FileNode κ' σ'} (h : ∀ held, t.node (change held) = change' (t.node held)) :
    t.Follows (modify (Graph.modifyNode path change)) (modify (Graph.modifyNode (t.path path) change')) :=
  fun g => .ok (t.graph_modifyNode g path h).symm

theorem Follows.addNode (path : κ) (kind : FileKind) (lastModified : Json) :
    t.Follows (Graph.liftStep (Graph.addNode path kind lastModified))
      (Graph.liftStep (Graph.addNode (t.path path) kind lastModified)) := by
  refine .liftStep fun g => ?_
  rw [addNode_eq, addNode_eq, t.hasNode_graph]
  cases g.hasNode path with
  | true => exact .inr ⟨_, _, _, _, rfl, rfl⟩
  | false => exact .inl ⟨_, rfl, by rw [t.graph_withNode]; rfl⟩

theorem Follows.checkStep [BEq κ] [BEq κ']
    (hsame : ∀ first second : κ, (t.path first == t.path second) = (first == second)) :
    t.Follows (Graph.liftStep Graph.checkStep) (Graph.liftStep Graph.checkStep) := by
  refine .liftStep fun g => ?_
  have hcheck := t.isOk_check_graph g hsame
  unfold Graph.checkStep
  rw [get_bind_eq, get_bind_eq]
  cases hown : g.check with
  | ok _ =>
      cases hother : (t.graph g).check with
      | ok _ => exact .inl ⟨_, rfl, rfl⟩
      | error cause =>
          rw [hown, hother] at hcheck
          cases hcheck
  | error cause =>
      cases hother : (t.graph g).check with
      | ok _ =>
          rw [hown, hother] at hcheck
          cases hcheck
      | error cause => exact .inr ⟨_, _, _, _, rfl, rfl⟩

theorem Follows.readNode (value : Json) :
    t.Follows (Graph.readNode reading value) (Graph.readNode other value) := by
  refine .read_bind (.fieldsOf value) fun fields _ heq => ?_
  subst heq
  refine .read_bind (.demandField fields "path") fun path _ heq => ?_
  subst heq
  refine .read_bind (.kindNamed _) fun kind _ heq => ?_
  subst heq
  refine .read_bind (t.agree_pathOf path) fun path _ heq => ?_
  subst heq
  refine .bind (.addNode path kind _) ?_
  refine .read_bind (.elements _) fun items _ heq => ?_
  subst heq
  refine .read_bind (.mapM t.agree_specifierOf items) fun specifiers _ heq => ?_
  subst heq
  exact .modifyNode path fun _ => rfl

variable [DecidableLT κ] [DecidableLT κ'] [Std.IsLinearOrder κ']

theorem Follows.addEdge (source target : κ) :
    t.Follows (Graph.liftStep (Graph.addEdge source target))
      (Graph.liftStep (Graph.addEdge (t.path source) (t.path target))) := by
  refine .liftStep fun g => ?_
  have hedges : (t.graph g).edges.contains (t.path source) = g.edges.contains source :=
    t.contains_table t.set g.edges source
  have hreverse : (t.graph g).reverseEdges.contains (t.path target) = g.reverseEdges.contains target :=
    t.contains_table t.set g.reverseEdges target
  rw [addEdge_eq, addEdge_eq, t.hasNode_graph, t.hasNode_graph, hedges, hreverse]
  cases !g.hasNode source || !g.hasNode target with
  | true => exact .inr ⟨_, _, _, _, rfl, rfl⟩
  | false =>
      cases g.edges.contains source with
      | false => exact .inr ⟨_, _, _, _, rfl, rfl⟩
      | true =>
          cases g.reverseEdges.contains target with
          | false => exact .inr ⟨_, _, _, _, rfl, rfl⟩
          | true => exact .inl ⟨_, rfl, by rw [t.graph_withEdge]; rfl⟩

/-- An edge is refused unless it leads from a node to a node. -/
theorem exists_outcome_readEdge {κ σ : Type} [LT κ] [DecidableEq κ] [DecidableLT κ] [LE κ] [Std.IsLinearOrder κ]
    [Std.LawfulOrderLT κ] {reading : Reading κ σ} {source target : Json} {g : Graph κ σ}
    (h : ∀ first second, reading.path? source = some first → reading.path? target = some second →
      ¬ (g.hasNode first = true ∧ g.hasNode second = true)) :
    ∃ fault, outcome (Graph.readEdge reading source target) g = .error fault := by
  unfold Graph.readEdge
  split
  · rename_i first second hfirst hsecond
    have hends := h first second hfirst hsecond
    have hstep := addEdge_eq first second g
    have hrefused : (!g.hasNode first || !g.hasNode second) = true := by
      rwa [← Bool.not_and, Bool.not_eq_true', ← Bool.not_eq_true, Bool.and_eq_true]
    rw [if_pos hrefused] at hstep
    exact exists_outcome_liftStep hstep
  · unfold outcome
    rw [get_bind_eq]
    cases !source.isKey || ((reading.path? source).any g.hasNode && !target.isKey) with
    | true => exact ⟨_, rfl⟩
    | false => exact ⟨_, rfl⟩

theorem Follows.readEdge (source target : Json) :
    t.Follows (Graph.readEdge reading source target) (Graph.readEdge other source target) := by
  by_cases hboth : (reading.path? source).isSome ∧ (reading.path? target).isSome
  · obtain ⟨first, hfirst⟩ := Option.isSome_iff_exists.mp hboth.1
    obtain ⟨second, hsecond⟩ := Option.isSome_iff_exists.mp hboth.2
    unfold Graph.readEdge
    rw [t.path?_eq source first hfirst, t.path?_eq target second hsecond, hfirst, hsecond]
    exact .addEdge first second
  · -- one end is no path to the first reading, so it is the path of no node to the second one
    intro g
    obtain ⟨fault, hfault⟩ : ∃ fault, outcome (Graph.readEdge reading source target) g = .error fault :=
      exists_outcome_readEdge fun first second hfirst hsecond =>
        absurd ⟨hfirst ▸ rfl, hsecond ▸ rfl⟩ hboth
    obtain ⟨fault', hfault'⟩ : ∃ fault, outcome (Graph.readEdge other source target) (t.graph g) = .error fault :=
      exists_outcome_readEdge fun first second hfirst hsecond hnodes =>
        hboth ⟨t.isSome_of_hasNode g hfirst hnodes.1, t.isSome_of_hasNode g hsecond hnodes.2⟩
    rw [hfault, hfault']
    exact .error

theorem Follows.readEdges (value : Json) :
    t.Follows (Graph.readEdges reading value) (Graph.readEdges other value) := by
  refine .read_bind (.fieldsOf value) fun fields _ heq => ?_
  subst heq
  refine .read_bind (.targets fields) fun targets _ heq => ?_
  subst heq
  refine .forM (fun target => ?_) targets
  refine .read_bind (.demandField fields "from") fun source _ heq => ?_
  subst heq
  exact .readEdge source target

variable [BEq κ] [BEq κ'] (hsame : ∀ first second : κ, (t.path first == t.path second) = (first == second))

include hsame

theorem Follows.readFields (fields : List (String × Json)) :
    t.Follows (Graph.readFields reading fields) (Graph.readFields other fields) := by
  refine .read_bind (.elements _) fun nodes _ heq => ?_
  subst heq
  refine .bind (.forM .readNode nodes) ?_
  refine .read_bind (.elements _) fun edges _ heq => ?_
  subst heq
  exact .bind (.forM .readEdges edges) (.checkStep hsame)

/-- Both readings make the same graph of a document, but for what the paths are called, or both refuse it, unless
the first one finds something foreign in it. -/
theorem ofDocumentBy (document : Json) : Agree (fun g g' => g' = t.graph g) (Graph.ofDocumentBy reading document)
    (Graph.ofDocumentBy other document) := by
  unfold Graph.ofDocumentBy
  cases document.fields? with
  | none => exact .error
  | some fields =>
      dsimp only
      split
      · exact Follows.readFields hsame fields ∅
      · exact .error

end Operations
end Translation

/-! ## Texts as values -/

/-- The texts of one reading are keys and values of the other. -/
def textsAsValues : Translation Reading.texts Reading.values where
  path := Key.ofString
  name := .string
  lt_iff := Key.ofString_lt_iff
  path?_eq value found h := by
    cases value with
    | string text => cases h; rfl
    | _ => cases h
  specifier?_eq value found h := by
    cases value with
    | string text => cases h; rfl
    | _ => cases h
  isKey value found h := Option.isSome_iff_exists.mpr ⟨found, h⟩
  fresh value hnone found h := by
    rcases Json.cases_of_key h with ⟨-, hkey⟩ | ⟨number, -, hkey⟩ | ⟨text, rfl, hkey⟩
    · cases hkey
    · exact (Key.ofEither_ne number).2 _ hkey.symm
    · have hpoints : (Wording.whole found).points = text.points := Key.text.inj hkey
      obtain rfl := Wording.points_injective hpoints
      cases hnone

/-- A document is read as values as it is read as texts, unless something in it is foreign to texts. -/
theorem ofDocumentBy_values (document : Json) : Translation.Agree (fun g g' => g' = textsAsValues.graph g)
    (ofDocument document) (ofDocumentBy .values document) :=
  textsAsValues.ofDocumentBy Key.ofString_beq document

/-- A number may be the path of a node as a value, and is foreign to texts. -/
example :
    let document : Json := .object
      [("version", .int 1), ("nodes", .array [.object [("path", .int 5)], .object [("path", .null)]]),
        ("edges", .array [.object [("from", .int 5), ("to", .array [.null])]])]
    (ofDocumentBy .values document).isOk = true ∧ ofDocument document = .error (.foreign (.int 5)) :=
  ⟨rfl, rfl⟩

end ChangeImpact.Graph
