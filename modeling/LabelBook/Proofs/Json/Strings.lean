import LabelBook.Json.Parser
import LabelBook.Json.Printer
import LabelBook.Proofs.Text.Lines
import LabelBook.Proofs.Text.Utf8

/-!
Reading the strings that have been written. Every escape is read back as the code point that it stands
for, so a string in quotes is read back whole. What is left of it when it is cut at a line end never
closes, and reading it ends in a complaint.
-/

namespace LabelBook

namespace Json

variable {opening : Nat} {done tail : Text}

/-! ### One step of a string -/

theorem stringFrom_quote (rest : Text) :
    stringFrom opening done (.scalar '"' :: rest) = .ok (done.reverse, rest) := by
  rw [stringFrom, if_pos rfl]

theorem stringFrom_plain {c : CodePoint} (hq : c ≠ .scalar '"') (hb : c ≠ .scalar '\\')
    (hc : 0x20 ≤ c.toNat) : stringFrom opening done (c :: tail) = stringFrom opening (c :: done) tail := by
  rw [stringFrom, if_neg hq, if_neg hb, if_neg (by omega)]

theorem stringFrom_escape {s : Text} {c : CodePoint} (h : escape opening s = .ok (c, tail)) :
    stringFrom opening done (.scalar '\\' :: s) = stringFrom opening (c :: done) tail := by
  rw [stringFrom, if_neg (by decide), if_pos rfl]
  split
  · next heq => rw [h] at heq; simp at heq
  · next heq =>
    rw [h] at heq
    obtain ⟨rfl, rfl⟩ := Prod.mk.inj (Except.ok.inj heq)
    rfl

theorem stringFrom_badEscape {s : Text} {e : Fault} (h : escape opening s = .error e) :
    stringFrom opening done (.scalar '\\' :: s) = .error e := by
  rw [stringFrom, if_neg (by decide), if_pos rfl]
  split
  · next heq => rw [h] at heq; rw [← Except.error.inj heq]
  · next heq => rw [h] at heq; simp at heq

/-! ### Escapes -/

/-- A control spelt by its number; something has to follow the digits. -/
theorem escape_control (opening : Nat) {n : Nat} (hn : n < 0x20) (next : CodePoint) (rest : Text) :
    escape opening (.scalar 'u' :: (Text.hex 4 n ++ next :: rest)) = .ok (.ofNat n, next :: rest) := by
  interval_cases n <;> rfl

theorem escape_control_nil {n : Nat} (hn : n < 0x20) :
    escape opening (.scalar 'u' :: Text.hex 4 n) = .error (.complaint .unicodeEscape 5) := by
  interval_cases n <;> rfl

/-- An escaped code point is read back, unless it is spelt by its number and nothing follows. -/
theorem stringFrom_escaped (opening : Nat) (done tail : Text) (c : CodePoint) :
    stringFrom opening done (escaped false c ++ tail) = stringFrom opening (c :: done) tail ∨
      tail = [] ∧ stringFrom opening done (escaped false c ++ tail) =
        .error (.complaint .unicodeEscape 5) := by
  unfold escaped
  split_ifs with h₁ h₂ h₃ h₄ h₅ h₆ h₇ h₈
  · subst h₁; exact Or.inl (stringFrom_escape rfl)
  · subst h₂; exact Or.inl (stringFrom_escape rfl)
  · subst h₃; exact Or.inl (stringFrom_escape rfl)
  · subst h₄; exact Or.inl (stringFrom_escape rfl)
  · subst h₅; exact Or.inl (stringFrom_escape rfl)
  · subst h₆; exact Or.inl (stringFrom_escape rfl)
  · subst h₇; exact Or.inl (stringFrom_escape rfl)
  · have hc : c.toNat < 0x20 := by simpa using h₈
    have htext : (c.utf16Units.flatMap fun u => Text.concat ["\\u", Text.hex 4 u]) ++ tail =
        .scalar '\\' :: .scalar 'u' :: (Text.hex 4 c.toNat ++ tail) := by
      simp [CodePoint.utf16Units, show c.toNat < 0x10000 by omega, Text.concat, Text.ofString]
    rw [htext]
    cases tail with
    | nil =>
      rw [List.append_nil]
      exact Or.inr ⟨rfl, stringFrom_badEscape (escape_control_nil hc)⟩
    | cons next rest =>
      have h := escape_control opening hc next rest
      rw [CodePoint.ofNat_toNat] at h
      exact Or.inl (stringFrom_escape h)
  · exact Or.inl (stringFrom_plain h₁ h₂ (by simpa using h₈))

/-! ### Strings -/

/-- The body of a string with the closing quote behind it is read back. -/
theorem stringFrom_flatMap (s rest : Text) (done : Text) :
    stringFrom opening done (s.flatMap (escaped false) ++ .scalar '"' :: rest) =
      .ok (done.reverse ++ s, rest) := by
  induction s generalizing done with
  | nil => rw [List.flatMap_nil, List.nil_append, stringFrom_quote, List.append_nil]
  | cons c s ih =>
    rw [List.flatMap_cons, List.append_assoc]
    rcases stringFrom_escaped opening done (s.flatMap (escaped false) ++ .scalar '"' :: rest) c
      with h | ⟨h, -⟩
    · rw [h, ih, List.reverse_cons, List.append_assoc, List.singleton_append]
    · simp at h

theorem string?_flatMap (s rest : Text) :
    string? (s.flatMap (escaped false) ++ .scalar '"' :: rest) = .ok (s, rest) :=
  stringFrom_flatMap s rest []

/-- The body of a string without the closing quote gives a complaint. -/
theorem stringFrom_open (s : Text) (done : Text) :
    ∃ what left, stringFrom opening done (s.flatMap (escaped false)) =
      .error (.complaint what left) := by
  induction s generalizing done with
  | nil => exact ⟨_, _, by rw [List.flatMap_nil, stringFrom]⟩
  | cons c s ih =>
    rw [List.flatMap_cons]
    rcases stringFrom_escaped opening done (s.flatMap (escaped false)) c with h | ⟨-, h⟩
    · rw [h]; exact ih _
    · exact ⟨_, _, h⟩

/-! ### Line ends in strings -/

/-- A code point in a string ends a line as it is written if JSON leaves it as it is. -/
theorem hasLineEnd_escaped (c : CodePoint) : Text.hasLineEnd (escaped false c) = c.isBreak := by
  unfold escaped
  split_ifs with h₁ h₂ h₃ h₄ h₅ h₆ h₇ h₈
  · subst h₁; rfl
  · subst h₂; rfl
  · subst h₃; rfl
  · subst h₄; rfl
  · subst h₅; rfl
  · subst h₆; rfl
  · subst h₇; rfl
  · have hc : c.toNat < 0x20 := by simpa using h₈
    have hbreak : c.isBreak = false := by
      by_contra h
      have := CodePoint.le_of_isBreak (Bool.of_not_eq_false h)
      omega
    rw [hbreak, CodePoint.utf16Units, if_pos (by omega)]
    generalize c.toNat = n at hc
    interval_cases n <;> rfl
  · rw [Text.hasLineEnd_cons, CodePoint.endsLine_of_le (by simpa using h₈)]
    simp

theorem hasLineEnd_flatMap (s : Text) :
    Text.hasLineEnd (s.flatMap (escaped false)) = s.hasBreak := by
  induction s with
  | nil => rfl
  | cons c s ih => rw [List.flatMap_cons, Text.hasLineEnd_append, hasLineEnd_escaped, ih]; rfl

/-- A break in a string is left as it is. -/
theorem escaped_of_isBreak {c : CodePoint} (hc : c.isBreak = true) : escaped false c = [c] := by
  have := CodePoint.le_of_isBreak hc
  unfold escaped
  split_ifs with h₁ h₂ h₃ h₄ h₅ h₆ h₇ h₈
  all_goals first | rfl | (subst_vars; exact absurd hc (by decide)) | (simp at h₈; omega)

/-- A string with a break in it is cut there. -/
theorem firstLine_flatMap {s : Text} (h : s.hasBreak = true) :
    Text.firstLine (s.flatMap (escaped false)) =
      (s.takeWhile fun c => !c.isBreak).flatMap (escaped false) := by
  induction s with
  | nil => simp at h
  | cons c s ih =>
    by_cases hc : c.isBreak = true
    · have hplain := escaped_of_isBreak hc
      rw [List.flatMap_cons, hplain]
      simp [Text.firstLine, hc, CodePoint.endsLine_of_le (CodePoint.le_of_isBreak hc)]
    · rw [Bool.not_eq_true] at hc
      rw [List.flatMap_cons, Text.firstLine_append (by rw [hasLineEnd_escaped, hc]),
        ih (by simpa [hc] using h)]
      simp [hc]

/-- A string that is cut at a break never closes. -/
theorem string?_firstLine {s : Text} (h : s.hasBreak = true) (rest : Text) :
    ∃ what left, string? (Text.firstLine (s.flatMap (escaped false) ++ rest)) =
      .error (.complaint what left) := by
  rw [Text.firstLine_append_of_lineEnd (by rw [hasLineEnd_flatMap, h]), firstLine_flatMap h]
  exact stringFrom_open _ []

end Json

end LabelBook
