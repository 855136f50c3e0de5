import ChangeImpact.Impact

/-!
# Selecting tests

The plan for a run of tests: all tests, those that the changes affect, or none.  All tests run if
that is demanded or if configuration has changed, since that may alter the outcome of any test.
-/

namespace ChangeImpact

/-- Which part of the tests is run. -/
inductive SelectionStrategy where
  | full | incremental | none
deriving DecidableEq, Repr, Inhabited

/-- The name of a strategy. -/
def SelectionStrategy.name : SelectionStrategy → String
  | full => "full"
  | incremental => "incremental"
  | none => "none"

/-- The tests to run and why. -/
structure Selection where
  strategy : SelectionStrategy
  tests : PathSet := ∅
  changed : PathSet := ∅
  reason : String
deriving Inhabited

namespace Selection

/-- All tests of a graph. -/
def full (g : Graph) (changed : PathSet) (reason : String) : Selection :=
  ⟨.full, g.filesOfKind .test, changed, reason⟩

/-- The changed files that are configuration. -/
def changedConfigs (g : Graph) (impact : Impact) : PathSet :=
  impact.changed.filter fun path => Analyzer.kindOf g path == .config

/-- The plan for an impact on a graph. -/
def plan (g : Graph) (impact : Impact) (force : Bool := false) : Selection :=
  let changed := impact.changed
  let configs := changedConfigs g impact
  if force then full g changed "Force full run requested"
  else if changed.isEmpty then { strategy := .none, reason := "No changes detected" }
  else if !configs.isEmpty then
    full g changed ("Configuration changed: " ++ ", ".intercalate configs.toList)
  else
    { strategy := if impact.tests.isEmpty then .none else .incremental
      tests := impact.tests
      changed
      reason := s!"{changed.size} files changed, {impact.tests.size} tests affected" }

/-- The plan as a report gives it. -/
def toJson (selection : Selection) : Json :=
  .object
    [("strategy", .string selection.strategy.name), ("tests_to_run", selection.tests.toJson),
      ("affected_files", selection.changed.toJson), ("reason", .string selection.reason)]

end Selection
end ChangeImpact
