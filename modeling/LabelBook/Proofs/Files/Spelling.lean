import LabelBook.Proofs.Files.Paths

/-!
How long the text of a path is. A path that a text spells has no longer text than that, for slashes and
single dots are left out and nothing is added. So a part of the text of a path spells the path only if
it is the whole text.
-/

namespace LabelBook

namespace Text

variable {separator : Text} {p : CodePoint → Bool}

theorem length_joinWith (one : separator.length = 1) : ∀ {ts : List Text}, ts ≠ [] →
    (joinWith separator ts).length + 1 = (ts.map fun t => t.length + 1).sum
  | [t], _ => by simp [joinWith]
  | t :: u :: us, _ => by
    have ih := length_joinWith one (List.cons_ne_nil u us)
    rw [joinWith_cons_cons, List.map_cons, List.sum_cons, ← ih]
    simp only [List.length_append, one]
    omega

theorem sum_length_splitOn (t : Text) :
    ((splitOn p t).map fun u => u.length + 1).sum = t.length + 1 := by
  induction t with
  | nil => rfl
  | cons c t ih =>
    rw [splitOn]
    split
    · rw [List.map_cons, List.sum_cons, ih]
      simp only [List.length_nil, List.length_cons]
      omega
    · obtain ⟨u, us, hu⟩ := List.exists_cons_of_ne_nil (splitOn_ne_nil (p := p) t)
      rw [hu, List.map_cons, List.sum_cons] at ih ⊢
      simp only [List.length_cons]
      omega

end Text

namespace Path

variable {p : Path} {t : Text}

theorem length_names_le (t : Text) : (Text.joinWith "/" (namesOf t)).length ≤ t.length := by
  by_cases hnames : namesOf t = []
  · rw [hnames]
    exact Nat.zero_le _
  · have hjoin : (Text.joinWith "/" (namesOf t)).length + 1 = _ := Text.length_joinWith rfl hnames
    have hsplit := Text.sum_length_splitOn (p := (· == slash)) t
    have hkept : ((namesOf t).map fun u => u.length + 1).sum ≤
        ((Text.splitOn (· == slash) t).map fun u => u.length + 1).sum :=
      (List.filter_sublist.map _).sum_le_sum fun _ _ => Nat.zero_le _
    omega

theorem namesOf_dropWhile (t : Text) : namesOf (t.dropWhile (· == slash)) = namesOf t := by
  induction t with
  | nil => rfl
  | cons c t ih =>
    by_cases hc : c = slash
    · rw [hc, List.dropWhile_cons_of_pos (by simp), ih, namesOf_slash]
    · rw [List.dropWhile_cons_of_neg (by simpa using hc)]

/-- No slash is added at the start, and the dot of a path without names takes the room of what was left
out. -/
theorem length_text_ofText (h : t ≠ []) : (ofText t).text.length ≤ t.length := by
  have hlength : (t.takeWhile (· == slash)).length + (t.dropWhile (· == slash)).length = t.length := by
    rw [← List.length_append, List.takeWhile_append_dropWhile]
  have hnames := length_names_le (t.dropWhile (· == slash))
  rw [namesOf_dropWhile] at hnames
  have hpos := List.length_pos_of_ne_nil h
  have hdot : (Text.ofString ".").length = 1 := rfl
  have hslash : (Text.ofString "/").length = 1 := rfl
  have hslashes : (Text.ofString "//").length = 2 := rfl
  unfold ofText text anchorOf
  split
  · dsimp only
    split <;> omega
  · dsimp only
    rw [List.length_append]
    omega
  · next hnone _ =>
    have hslashed : (t.takeWhile (· == slash)).length ≠ 0 := hnone
    dsimp only
    rw [List.length_append]
    omega

theorem text_ne_nil (p : Path) : p.text ≠ [] := by
  unfold text
  dsimp only
  split
  · split
    · exact List.cons_ne_nil _ _
    · next hnames => simpa using hnames
  · exact List.cons_ne_nil _ _
  · exact List.cons_ne_nil _ _

/-- A part of the text of a path spells the path only if it is the whole text. -/
theorem ofText_part_iff (proper : p.Proper) (part : t.Sublist p.text) (h : t ≠ []) :
    ofText t = p ↔ t = p.text := by
  constructor
  · intro hspells
    have hlength := length_text_ofText h
    rw [hspells] at hlength
    exact part.eq_of_length_le hlength
  · rintro rfl
    exact ofText_text proper

end Path

end LabelBook
