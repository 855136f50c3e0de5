import ChangeImpact.Graph.Basic
import Mathlib.Data.List.Perm.Basic

/-!
# What the diagnostics say about a file

The diagnostics of a graph stand in one list, in an order that depends on its history.  What scanning
has said about a file and what linking has said about it are two sublists, and each pass replaces only
its own.  The sublists of all files determine the list up to its order (`Diagnostic.perm_of_said_eq`).
-/

namespace ChangeImpact.Diagnostic

/-- Whether a diagnostic was made when names were linked, not when a file was scanned. -/
def isLinking (d : Diagnostic) : Bool := d.kind == .unresolved

/-- What linking, or else scanning, has said about a file. -/
def said (linking : Bool) (path : String) (all : List Diagnostic) : List Diagnostic :=
  all.filter fun d => d.path == path && d.isLinking == linking

variable {linking : Bool} {path : String} {all : List Diagnostic}

theorem mem_said {d : Diagnostic} :
    d ∈ said linking path all ↔ d ∈ all ∧ d.path = path ∧ d.isLinking = linking := by
  rw [said, List.mem_filter, Bool.and_eq_true, beq_iff_eq, beq_iff_eq]

@[simp] theorem said_append (first second : List Diagnostic) :
    said linking path (first ++ second) = said linking path first ++ said linking path second :=
  List.filter_append ..

theorem said_eq_self (h : ∀ d ∈ all, d.path = path ∧ d.isLinking = linking) :
    said linking path all = all := by
  rw [said, List.filter_eq_self]
  intro d hd
  rw [(h d hd).1, (h d hd).2, beq_self_eq_true, beq_self_eq_true]
  rfl

theorem said_eq_nil (h : ∀ d ∈ all, ¬ (d.path = path ∧ d.isLinking = linking)) :
    said linking path all = [] :=
  List.eq_nil_iff_forall_not_mem.mpr fun d hd => h d (mem_said.mp hd).1 (mem_said.mp hd).2

/-- Dropping diagnostics does not touch a sublist from which none is dropped. -/
theorem said_filter_of_kept {keep : Diagnostic → Bool}
    (h : ∀ d, d.path = path → d.isLinking = linking → keep d = true) :
    said linking path (all.filter keep) = said linking path all := by
  rw [said, List.filter_filter]
  refine List.filter_congr fun d _ => ?_
  cases hkeep : keep d with
  | true => rw [Bool.and_true]
  | false =>
      rw [Bool.and_false]
      refine (Bool.eq_false_iff.mpr fun hsaid => ?_).symm
      rw [Bool.and_eq_true, beq_iff_eq, beq_iff_eq] at hsaid
      rw [h d hsaid.1 hsaid.2] at hkeep
      cases hkeep

/-- Nothing is left of a sublist all of which is dropped. -/
theorem said_filter_of_dropped {keep : Diagnostic → Bool}
    (h : ∀ d, d.path = path → d.isLinking = linking → keep d = false) :
    said linking path (all.filter keep) = [] := by
  refine said_eq_nil fun d hd hsaid => ?_
  have hkeep := (List.mem_filter.mp hd).2
  rw [h d hsaid.1 hsaid.2] at hkeep
  cases hkeep

/-- What scanning has said, about whatever file. -/
def scanning (all : List Diagnostic) : List Diagnostic := all.filter fun d => !d.isLinking

@[simp] theorem scanning_append (first second : List Diagnostic) :
    scanning (first ++ second) = scanning first ++ scanning second :=
  List.filter_append ..

theorem scanning_eq_self (h : ∀ d ∈ all, d.isLinking = false) : scanning all = all := by
  rw [scanning, List.filter_eq_self]
  intro d hd
  rw [h d hd]
  rfl

theorem scanning_eq_nil (h : ∀ d ∈ all, d.isLinking = true) : scanning all = [] := by
  rw [scanning, List.filter_eq_nil_iff]
  intro d hd
  rw [h d hd]
  decide

/-- Dropping what linking has said leaves what scanning has said. -/
theorem scanning_filter_of_kept {keep : Diagnostic → Bool} (h : ∀ d, d.isLinking = false → keep d = true) :
    scanning (all.filter keep) = scanning all := by
  rw [scanning, List.filter_filter]
  refine List.filter_congr fun d _ => ?_
  cases hlinking : d.isLinking with
  | true => rfl
  | false => rw [h d hlinking]; rfl

theorem said_scanning (path : String) (all : List Diagnostic) :
    said false path (scanning all) = said false path all :=
  said_filter_of_kept fun d _ hscanning => by rw [hscanning]; rfl

theorem scanning_eq_nil_of_said (h : ∀ path, said false path all = []) : scanning all = [] := by
  refine scanning_eq_nil fun d hd => ?_
  by_contra hlinking
  rw [Bool.not_eq_true] at hlinking
  have hsaid : d ∈ said false d.path all := mem_said.mpr ⟨hd, rfl, hlinking⟩
  rw [h] at hsaid
  cases hsaid

theorem scanning_eq_self_of_said (h : ∀ path, said true path all = []) : scanning all = all := by
  refine scanning_eq_self fun d hd => ?_
  by_contra hlinking
  rw [Bool.not_eq_false] at hlinking
  have hsaid : d ∈ said true d.path all := mem_said.mpr ⟨hd, rfl, hlinking⟩
  rw [h] at hsaid
  cases hsaid

/-- Read errors are told by scanning. -/
theorem filter_readError_scanning (all : List Diagnostic) :
    (scanning all).filter (·.kind == .readError) = all.filter (·.kind == .readError) := by
  rw [scanning, List.filter_filter]
  refine List.filter_congr fun d _ => ?_
  rw [isLinking]
  cases d.kind with
  | readError => rfl
  | parseFallback => rfl
  | extractionFailed => rfl
  | unresolved => rfl

theorem count_said (d : Diagnostic) (all : List Diagnostic) :
    (said d.isLinking d.path all).count d = all.count d :=
  List.count_filter (by rw [beq_self_eq_true, beq_self_eq_true]; rfl)

/-- Diagnostics that say the same about every file differ only in their order. -/
theorem perm_of_said_eq {first second : List Diagnostic}
    (h : ∀ linking path, said linking path first = said linking path second) :
    first.Perm second :=
  List.perm_iff_count.mpr fun d => by
    rw [← count_said d first, ← count_said d second, h]

end ChangeImpact.Diagnostic
