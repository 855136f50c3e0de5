import ChangeImpact.Path.Key
import Mathlib.Data.List.Basic

/-!
# Segments of collapsed paths

Collapsing a path leaves segments that are not empty and hold no slash.  So a collapsed path, and with
it every key, ends in a slash only if it consists of slashes (`Closed`).
-/

namespace ChangeImpact.Path

/-! ## Splitting at slashes -/

theorem not_mem_of_mem_splitOn {separator : Char} {text segment : List Char}
    (h : segment ∈ text.splitOn separator) : separator ∉ segment := by
  induction text generalizing segment with
  | nil =>
      rw [List.splitOn_nil, List.mem_singleton] at h
      simp [h]
  | cons c rest ih =>
      rw [List.splitOn_cons_eq_if_modifyHead] at h
      split at h
      · rcases List.mem_cons.mp h with rfl | h
        · exact List.not_mem_nil
        · exact ih h
      · rename_i hne
        -- a character other than the separator goes to the first segment of the rest
        cases hrest : rest.splitOn separator with
        | nil => exact absurd hrest (List.splitOn_ne_nil _ _)
        | cons first others =>
            rw [hrest] at h ih
            rcases List.mem_cons.mp h with rfl | h
            · have hc : separator ≠ c := fun heq => hne (by simp [heq])
              simpa [hc] using ih (List.mem_cons_self ..)
            · exact ih (List.mem_cons_of_mem _ h)

theorem splitOn_cons_slash (rest : List Char) : ('/' :: rest).splitOn '/' = [] :: rest.splitOn '/' := by
  rw [List.splitOn_cons_eq_if_modifyHead, if_pos (beq_self_eq_true '/')]

/-! ## Joining -/

theorem join_of_relative {outer inner : List Char} (hinner : isAbsolute inner = false) : join outer inner =
    if outer.isEmpty || outer.getLast? == some '/' then outer ++ inner else outer ++ '/' :: inner :=
  if_neg (by simp [hinner])

/-! ## Entering segments -/

/-- A segment that leads somewhere: it is not empty and holds no slash. -/
def Named (segment : Segment) : Prop := segment ≠ [] ∧ '/' ∉ segment

instance : DecidablePred Named := fun _ => inferInstanceAs (Decidable (_ ∧ _))

theorem named_above : Named above := ⟨by decide, by decide⟩

theorem named_enter {absolute : Bool} {walked : List Segment} {segment : Segment}
    (hwalked : ∀ other ∈ walked, Named other) (hsegment : '/' ∉ segment) :
    ∀ other ∈ enter absolute walked segment, Named other := by
  unfold enter
  split
  · exact hwalked
  · rename_i hhere
    split
    · split
      · split
        · simp
        · simpa using named_above
      · rename_i last rest
        split
        · intro other hother
          rcases List.mem_cons.mp hother with rfl | hother
          · exact named_above
          · exact hwalked other hother
        · exact fun other hother => hwalked other (List.mem_cons_of_mem _ hother)
    · intro other hother
      rcases List.mem_cons.mp hother with rfl | hother
      · exact ⟨fun hnil => hhere (.inl hnil), hsegment⟩
      · exact hwalked other hother

theorem named_of_mem_segments {path : List Char} {segment : Segment}
    (h : segment ∈ segments path) : Named segment := by
  -- the segments are entered from the front, starting with any that have been entered before
  have hfold : ∀ (parts walked : List Segment), (∀ part ∈ parts, '/' ∉ part) →
      (∀ other ∈ walked, Named other) →
      ∀ other ∈ parts.foldl (enter (isAbsolute path)) walked, Named other := by
    intro parts
    induction parts with
    | nil => exact fun walked _ hwalked => hwalked
    | cons part rest ih =>
        intro walked hparts hwalked
        exact ih _ (fun other hother => hparts other (List.mem_cons_of_mem _ hother))
          (named_enter hwalked (hparts part (List.mem_cons_self ..)))
  exact hfold _ [] (fun part hpart => not_mem_of_mem_splitOn hpart) (by simp) segment
    (List.mem_reverse.mp h)

/-! ## The end of a collapsed path -/

/-- A path that ends in a slash only if it consists of slashes. -/
def Closed (path : List Char) : Prop :=
  path.all (· == '/') ∨ path.getLast? ≠ some '/'

theorem getLast?_intercalate_ne {names : List Segment} (h : ∀ name ∈ names, Named name) :
    (['/'].intercalate names).getLast? ≠ some '/' := by
  induction names with
  | nil => simp [List.intercalate_nil]
  | cons name rest ih =>
      have hname := h name (List.mem_cons_self ..)
      have hrest : ∀ other ∈ rest, Named other := fun other hother =>
        h other (List.mem_cons_of_mem _ hother)
      cases rest with
      | nil =>
          rw [List.intercalate_singleton]
          exact fun hlast => hname.2 (List.mem_of_getLast? hlast)
      | cons next others =>
          have hne : ['/'].intercalate (next :: others) ≠ [] := by
            have hnext := (hrest next (List.mem_cons_self ..)).1
            cases others with
            | nil => simpa [List.intercalate_singleton] using hnext
            | cons _ _ => simp [List.intercalate_cons_cons, hnext]
          rw [List.intercalate_cons_cons, List.getLast?_append_of_ne_nil _ hne]
          exact ih hrest

theorem closed_collapse (path : List Char) : Closed (collapse path) := by
  unfold collapse
  simp only
  split
  · exact .inr (by decide)
  · rename_i hne
    have hlast : (['/'].intercalate (segments path)).getLast? ≠ some '/' :=
      getLast?_intercalate_ne fun _ hsegment => named_of_mem_segments hsegment
    by_cases hnil : ['/'].intercalate (segments path) = []
    · rw [hnil, List.append_nil]
      exact .inl (by simp)
    · rw [Closed, List.getLast?_append_of_ne_nil _ hnil]
      exact .inr hlast

/-- A key that is not that of the root is closed. -/
theorem closed_keyChars (path : List Char) : Closed (keyChars none path) := by
  have hnil : Closed [] := .inl rfl
  unfold keyChars
  simp only
  split
  · exact hnil
  · unfold collapseKey
    split
    · exact hnil
    · exact closed_collapse _

end ChangeImpact.Path
