import LabelBook.Text.Blank
import Mathlib

/-!
Trimming. What is left of a text without the blank code points at its ends is a part of it, and a code
point at the start that is not blank stays there.
-/

namespace LabelBook.Text

variable {c : CodePoint}

theorem trim_eq_rdropWhile (t : Text) :
    t.trim = (t.dropWhile CodePoint.isBlank).rdropWhile CodePoint.isBlank := rfl

theorem trim_sublist (t : Text) : t.trim.Sublist t :=
  (List.rdropWhile_prefix _ _).sublist.trans (List.dropWhile_sublist _)

/-- A code point at the start that is not taken off stays there. -/
theorem rdropWhile_cons {p : CodePoint → Bool} (h : p c = false) (t : Text) :
    ∃ rest, (c :: t).rdropWhile p = c :: rest := by
  rcases List.prefix_cons_iff.mp (List.rdropWhile_prefix p (c :: t)) with hnil | ⟨rest, hrest, -⟩
  · rw [List.rdropWhile_eq_nil_iff] at hnil
    exact absurd (hnil c List.mem_cons_self) (by simp [h])
  · exact ⟨rest, hrest⟩

theorem trim_cons (h : c.isBlank = false) (t : Text) : ∃ rest, Text.trim (c :: t) = c :: rest := by
  rw [trim_eq_rdropWhile, List.dropWhile_cons_of_neg (by simp [h])]
  exact rdropWhile_cons h t

end LabelBook.Text
