import ChangeImpact.Graph.Document
import ChangeImpact.Proofs.Steps

/-!
# What comes of reading a document

A graph that has been read from a document has passed the check, whatever the reading takes for paths and
for names of modules (`check_of_ofDocumentBy`).

A reading that takes every key for a path and every value for a name (`Reading.Total`) finds nothing
foreign in a document (`Reading.Total.ofDocumentBy_not_foreign`).  This holds of each step of reading, and of
the loops since it holds of their rounds.
-/

namespace ChangeImpact.Graph

variable {κ σ : Type} {reading : Reading κ σ}

/-! ## Values that are foreign to a reading -/

/-- A fault is that of a value which the reading does not take. -/
def DocumentFault.IsForeign : DocumentFault κ → Prop
  | .foreign _ => True
  | _ => False

/-- Every key is a path to the reading, and every value a name. -/
structure Reading.Total (reading : Reading κ σ) : Prop where
  path : ∀ value, value.isKey = true → (reading.path? value).isSome
  specifier : ∀ value, (reading.specifier? value).isSome

theorem Reading.total_values : Reading.values.Total where
  path _ hkey := hkey
  specifier _ := rfl

/-- Reading a part of a value finds nothing foreign. -/
def Familiar {α : Type} (read : Except (DocumentFault κ) α) : Prop :=
  ∀ fault, read = .error fault → ¬ fault.IsForeign

namespace Familiar

theorem bind {α β : Type} {read : Except (DocumentFault κ) α} {next : α → Except (DocumentFault κ) β}
    (h : Familiar read) (hnext : ∀ value, Familiar (next value)) : Familiar (read >>= next) := by
  cases read with
  | ok value => exact hnext value
  | error fault =>
      rintro _ ⟨⟩
      exact h fault rfl

theorem fieldsOf (value : Json) : Familiar (fieldsOf value : Except (DocumentFault κ) _) := by
  unfold Graph.fieldsOf
  split
  · exact nofun
  · rintro _ ⟨⟩
    exact not_false

theorem elements (value : Json) : Familiar (elements value : Except (DocumentFault κ) _) := by
  unfold Graph.elements
  split
  case h_6 =>
    rintro _ ⟨⟩
    exact not_false
  all_goals exact nofun

theorem demandField (fields : List (String × Json)) (name : String) :
    Familiar (demandField fields name : Except (DocumentFault κ) _) := by
  unfold Graph.demandField
  split
  · exact nofun
  · rintro _ ⟨⟩
    exact not_false

theorem kindNamed (value : Json) : Familiar (kindNamed value : Except (DocumentFault κ) _) := by
  unfold Graph.kindNamed
  split
  · split
    · exact nofun
    · rintro _ ⟨⟩
      exact not_false
  · rintro _ ⟨⟩
    exact not_false

theorem pathOf (htotal : reading.Total) (value : Json) : Familiar (reading.pathOf value) := by
  have hpath := htotal.path value
  unfold Reading.pathOf
  split
  · exact nofun
  · rename_i hnone
    rintro _ ⟨⟩
    rw [hnone] at hpath
    cases hkey : value.isKey with
    | true => cases hpath hkey
    | false => exact not_false

theorem specifierOf (htotal : reading.Total) (value : Json) : Familiar (reading.specifierOf value) := by
  obtain ⟨specifier, hspecifier⟩ := Option.isSome_iff_exists.mp (htotal.specifier value)
  rw [Reading.specifierOf, hspecifier]
  exact nofun

theorem mapM {α β : Type} {read : α → Except (DocumentFault κ) β} (h : ∀ item, Familiar (read item))
    (items : List α) : Familiar (items.mapM read) := by
  induction items with
  | nil => exact nofun
  | cons item rest ih =>
      rw [List.mapM_cons]
      exact (h item).bind fun _ => ih.bind fun _ => nofun

end Familiar

/-! ## Steps of reading -/

variable [LT κ]

/-- A step of reading finds nothing foreign, whatever graph it starts from. -/
def FamiliarStep {α : Type} (step : ReadStep α κ σ) : Prop :=
  ∀ before, Ends step before (fun _ _ => True) fun fault _ => ¬ fault.IsForeign

namespace FamiliarStep

theorem bind {α β : Type} {step : ReadStep α κ σ} {next : α → ReadStep β κ σ} (h : FamiliarStep step)
    (hnext : ∀ value, FamiliarStep (next value)) : FamiliarStep (step >>= next) := fun before =>
  (h before).bind fun value after _ => hnext value after

theorem forM {ι : Type} {round : ι → ReadStep Unit κ σ} (h : ∀ item, FamiliarStep (round item))
    (items : List ι) : FamiliarStep (items.forM round) := fun _ =>
  .forM (fun _ _ => True) (fun item _ state _ => h item state) trivial

theorem liftRead {α : Type} {read : Except (DocumentFault κ) α} (h : Familiar read) :
    FamiliarStep (Graph.liftRead read : ReadStep α κ σ) := by
  cases read with
  | ok value => exact fun _ => .of_eq_ok rfl trivial
  | error fault => exact fun _ => .of_eq_error rfl (h fault rfl)

theorem liftStep (step : GraphStep Unit κ σ) : FamiliarStep (Graph.liftStep step) := by
  intro before
  cases hstep : step before with
  | ok _ after => exact .of_eq_ok (by rw [Graph.liftStep, hstep]) trivial
  | error fault after =>
      cases fault with
      | violation cause =>
          have hlift : Graph.liftStep step before = .error (.inconsistent cause) after := by
            rw [Graph.liftStep, hstep]
          exact .of_eq_error hlift not_false
      | missingEntry key =>
          have hlift : Graph.liftStep step before = .error (.missingEntry key) after := by
            rw [Graph.liftStep, hstep]
          exact .of_eq_error hlift not_false

variable [DecidableEq κ]

theorem readNode (htotal : reading.Total) (value : Json) : FamiliarStep (Graph.readNode reading value) := by
  refine .bind (.liftRead (.fieldsOf value)) fun fields => ?_
  refine .bind (.liftRead (.demandField fields "path")) fun path => ?_
  refine .bind (.liftRead (.kindNamed _)) fun kind => ?_
  refine .bind (.liftRead (.pathOf htotal path)) fun path => ?_
  refine .bind (.liftStep _) fun _ => ?_
  refine .bind (.liftRead (.elements _)) fun items => ?_
  refine .bind (.liftRead (.mapM (.specifierOf htotal) items)) fun _ => ?_
  exact fun _ => .of_eq_ok rfl trivial

variable [DecidableLT κ] [LE κ] [Std.IsLinearOrder κ] [Std.LawfulOrderLT κ]

theorem readEdge (reading : Reading κ σ) (source target : Json) :
    FamiliarStep (Graph.readEdge reading source target) := by
  unfold Graph.readEdge
  split
  · exact .liftStep _
  · intro before
    refine Ends.get_bind ?_
    split
    · exact .of_eq_error rfl not_false
    · exact .of_eq_error rfl not_false

theorem readEdges (reading : Reading κ σ) (value : Json) : FamiliarStep (Graph.readEdges reading value) := by
  refine .bind (.liftRead (.fieldsOf value)) fun fields => ?_
  refine .bind (.liftRead ((Familiar.demandField fields "to").bind .elements)) fun targets => ?_
  refine .forM (fun target => ?_) targets
  exact .bind (.liftRead (.demandField fields "from")) fun source => readEdge reading source target

variable [BEq κ]

theorem readFields (htotal : reading.Total) (fields : List (String × Json)) :
    FamiliarStep (Graph.readFields reading fields) := by
  refine .bind (.liftRead (.elements _)) fun nodes => ?_
  refine .bind (.forM (readNode htotal) nodes) fun _ => ?_
  refine .bind (.liftRead (.elements _)) fun edges => ?_
  refine .bind (.forM (readEdges reading) edges) fun _ => ?_
  exact .liftStep _

end FamiliarStep

/-! ## Whole documents -/

variable [DecidableEq κ] [BEq κ] {g : Graph κ σ}

theorem check_of_checkStep {before : Graph κ σ} (h : liftStep checkStep before = .ok () g) :
    g.check = .ok () := by
  unfold liftStep checkStep at h
  rw [get_bind_eq] at h
  cases hcheck : before.check with
  | ok _ =>
      rw [hcheck] at h
      cases h
      exact hcheck
  | error cause =>
      rw [hcheck] at h
      cases h

variable [DecidableLT κ] [LE κ] [Std.IsLinearOrder κ] [Std.LawfulOrderLT κ] {document : Json}

theorem check_of_readFields {fields : List (String × Json)} (h : readFields reading fields ∅ = .ok () g) :
    g.check = .ok () := by
  simp only [readFields, bind_eq_ok_iff] at h
  obtain ⟨_, _, -, _, _, -, _, _, -, _, _, -, hcheck⟩ := h
  exact check_of_checkStep hcheck

/-- A document is refused for its version, or what comes of it is what comes of its fields. -/
theorem ofDocumentBy_cases (reading : Reading κ σ) (document : Json) :
    (∃ version, ofDocumentBy reading document = .error (.version version)) ∨
      ∃ fields, ofDocumentBy reading document =
        match readFields reading fields ∅ with
        | .ok _ g => .ok g
        | .error fault _ => .error fault := by
  unfold ofDocumentBy
  cases document.fields? with
  | none => exact .inl ⟨_, rfl⟩
  | some fields =>
      dsimp only
      split
      · exact .inr ⟨fields, rfl⟩
      · exact .inl ⟨_, rfl⟩

/-- What has been read from a document has passed the check. -/
theorem check_of_ofDocumentBy (h : ofDocumentBy reading document = .ok g) : g.check = .ok () := by
  rcases ofDocumentBy_cases reading document with ⟨version, hversion⟩ | ⟨fields, hfields⟩
  · rw [hversion] at h
    cases h
  · rw [hfields] at h
    cases hread : readFields reading fields ∅ with
    | ok _ after =>
        rw [hread] at h
        cases h
        exact check_of_readFields hread
    | error fault after =>
        rw [hread] at h
        cases h

/-- A reading that takes everything refuses no document for what is foreign to it. -/
theorem Reading.Total.ofDocumentBy_not_foreign (htotal : reading.Total) {fault : DocumentFault κ}
    (h : ofDocumentBy reading document = .error fault) : ¬ fault.IsForeign := by
  rcases ofDocumentBy_cases reading document with ⟨version, hversion⟩ | ⟨fields, hfields⟩
  · rw [hversion] at h
    cases h
    exact not_false
  · rw [hfields] at h
    cases hread : readFields reading fields ∅ with
    | ok _ after =>
        rw [hread] at h
        cases h
    | error cause after =>
        rw [hread] at h
        cases h
        exact (FamiliarStep.readFields htotal fields ∅).of_error hread

end ChangeImpact.Graph
