import ChangeImpact.Text.Lines

/-!
# Texts that keep their lines

A text without a carriage return has one spelling of line ends only, so it is not changed.
-/

namespace ChangeImpact.Text

theorem unifyLines_eq_self {text : List Char} (h : '\r' ∉ text) : unifyLines text = text := by
  induction text with
  | nil => rfl
  | cons c rest ih =>
      have hc : c ≠ '\r' := fun heq => h (heq ▸ List.mem_cons_self)
      rw [unifyLines, ih fun hrest => h (List.mem_cons_of_mem c hrest)]
      · exact fun _ heq => absurd heq hc
      · exact fun heq => absurd heq hc

end ChangeImpact.Text
