import LabelBook.Codec
import Mathlib

/-!
Cutting a text into lines. A body without a line end, closed by a line feed, is a line of its own;
a body with a line end in it gives a line that stops there. Only three of the code points that end a
line lie above the controls: these are the ones that JSON leaves as they are. A line feed in the place of
a carriage return, and of the line feed behind it if there is one, gives the same lines.
-/

namespace LabelBook

/-- The line ends that are no controls of ASCII: next line, line separator, paragraph separator. -/
def CodePoint.isBreak (c : CodePoint) : Bool :=
  c.toNat == 0x85 || c.toNat == 0x2028 || c.toNat == 0x2029

theorem CodePoint.endsLine_of_le {c : CodePoint} (h : 0x20 ≤ c.toNat) : c.endsLine = c.isBreak := by
  have h₁ : decide (c.toNat ≤ 0xD) = false := by simp; omega
  have h₂ : decide (c.toNat ≤ 0x1E) = false := by simp; omega
  simp [endsLine, isBreak, h₁, h₂]

theorem CodePoint.le_of_isBreak {c : CodePoint} (h : c.isBreak = true) : 0x20 ≤ c.toNat := by
  simp [isBreak] at h
  omega

namespace Text

/-- Whether a code point that JSON leaves as it is ends a line in a text. -/
def hasBreak (t : Text) : Bool := t.any CodePoint.isBreak

/-- Whether a line ends in a text. -/
def hasLineEnd (t : Text) : Bool := t.any CodePoint.endsLine

/-- The start of a text up to the first line end. -/
def firstLine (t : Text) : Text := t.takeWhile fun c => !c.endsLine

@[simp] theorem hasLineEnd_append (s t : Text) :
    hasLineEnd (s ++ t) = (hasLineEnd s || hasLineEnd t) := List.any_append

@[simp] theorem hasLineEnd_nil : hasLineEnd [] = false := rfl

@[simp] theorem hasLineEnd_cons (c : CodePoint) (t : Text) :
    hasLineEnd (c :: t) = (c.endsLine || hasLineEnd t) := rfl

@[simp] theorem hasBreak_nil : hasBreak [] = false := rfl

@[simp] theorem hasBreak_cons (c : CodePoint) (t : Text) :
    hasBreak (c :: t) = (c.isBreak || hasBreak t) := rfl

theorem firstLine_cons {c : CodePoint} (h : c.endsLine = false) (t : Text) :
    firstLine (c :: t) = c :: firstLine t := by simp [firstLine, h]

theorem firstLine_append {s : Text} (h : s.hasLineEnd = false) (t : Text) :
    firstLine (s ++ t) = s ++ firstLine t := by
  unfold firstLine
  rw [List.takeWhile_append_of_pos]
  intro c hc
  simpa using List.any_eq_false.mp h c hc

theorem firstLine_append_of_lineEnd {s : Text} (h : s.hasLineEnd = true) (t : Text) :
    firstLine (s ++ t) = firstLine s := by
  induction s with
  | nil => simp at h
  | cons c s ih =>
    by_cases hc : c.endsLine = true
    · simp [firstLine, hc]
    · rw [Bool.not_eq_true] at hc
      rw [List.cons_append, firstLine_cons hc, firstLine_cons hc, ih (by simpa [hc] using h)]

/-! ### Lines -/

theorem linesFrom_append {body : Text} (h : body.hasLineEnd = false) (line rest : Text) :
    linesFrom line false (body ++ .scalar '\n' :: rest) =
      (line.reverse ++ body) :: linesFrom [] false rest := by
  induction body generalizing line with
  | nil =>
    rw [List.nil_append, List.append_nil, linesFrom, if_neg (by simp), if_pos (by decide)]
    rfl
  | cons c body ih =>
    have hc : c.endsLine = false ∧ hasLineEnd body = false := by simpa using h
    simp [linesFrom, hc.1, ih hc.2]

/-- A body without a line end is a line. -/
theorem lines_append {body : Text} (h : body.hasLineEnd = false) (rest : Text) :
    lines (body ++ .scalar '\n' :: rest) = body :: lines rest := linesFrom_append h [] rest

theorem linesFrom_append_of_lineEnd {body : Text} (h : body.hasLineEnd = true) (line rest : Text) :
    ∃ more, linesFrom line false (body ++ rest) = (line.reverse ++ body.firstLine) :: more := by
  induction body generalizing line with
  | nil => simp at h
  | cons c body ih =>
    by_cases hc : c.endsLine = true
    · exact ⟨_, by simp [linesFrom, firstLine, hc]; rfl⟩
    · rw [Bool.not_eq_true] at hc
      obtain ⟨more, hmore⟩ := ih (by simpa [hc] using h) (c :: line)
      exact ⟨more, by simp [linesFrom, firstLine_cons hc, hc, hmore]⟩

/-- A body with a line end in it gives a line that stops there. -/
theorem lines_append_of_lineEnd {body : Text} (h : body.hasLineEnd = true) (rest : Text) :
    ∃ more, lines (body ++ rest) = body.firstLine :: more := linesFrom_append_of_lineEnd h [] rest

/-- A text that has no line begun at its end: it is empty, or it ends in a line feed. -/
def EndsInLineFeed (t : Text) : Prop := t = [] ∨ ∃ s, t = s ++ [.scalar '\n']

theorem linesFrom_append_lineFeed (s rest line : Text) (afterReturn : Bool) :
    linesFrom line afterReturn (s ++ .scalar '\n' :: rest) =
      linesFrom line afterReturn (s ++ [.scalar '\n']) ++ linesFrom [] false rest := by
  induction s generalizing line afterReturn with
  | nil =>
    -- after a carriage return the line feed ends no line of its own
    cases afterReturn <;> rfl
  | cons c s ih =>
    rw [List.cons_append, List.cons_append, linesFrom, linesFrom, ih, ih, ih]
    split
    · rfl
    · split <;> rfl

/-- What follows a line feed is cut into lines as it is alone. -/
theorem lines_append_of_ends {a : Text} (ha : a.EndsInLineFeed) (b : Text) :
    lines (a ++ b) = lines a ++ lines b := by
  rcases ha with rfl | ⟨s, rfl⟩
  · rfl
  · rw [List.append_assoc, List.singleton_append]
    exact linesFrom_append_lineFeed s b [] false

theorem linesFrom_of_no_end {t : Text} (h : t.hasLineEnd = false) (line : Text) :
    linesFrom line false t = if line.isEmpty && t.isEmpty then [] else [line.reverse ++ t] := by
  induction t generalizing line with
  | nil => simp [linesFrom]
  | cons c t ih =>
    have hc : c.endsLine = false ∧ hasLineEnd t = false := by simpa using h
    simp [linesFrom, hc.1, ih hc.2]

theorem mem_linesFrom {t line : Text} {afterReturn : Bool} (hline : line.hasLineEnd = false) :
    ∀ l ∈ linesFrom line afterReturn t, l.hasLineEnd = false := by
  have hreverse : ∀ {line : Text}, line.hasLineEnd = false → hasLineEnd line.reverse = false := by
    intro line h
    rw [hasLineEnd, List.any_reverse]
    exact h
  induction t generalizing line afterReturn with
  | nil =>
    intro l hl
    rw [linesFrom] at hl
    split at hl
    · cases hl
    · rw [List.mem_singleton.mp hl]
      exact hreverse hline
  | cons c t ih =>
    rw [linesFrom]
    split
    · exact ih rfl
    · split
      · exact List.forall_mem_cons.mpr ⟨hreverse hline, ih rfl⟩
      · next hc => exact ih (by simp [hc, hline])

/-- A line of a text is, as a text, that line alone, or nothing if it is empty. -/
theorem lines_of_mem {t l : Text} (h : l ∈ t.lines) : l.lines = if l.isEmpty then [] else [l] := by
  rw [lines, linesFrom_of_no_end (mem_linesFrom rfl l h)]
  rfl

/-! ### Line ends of different forms -/

/-- Without carriage returns there is nothing to unify. -/
theorem unifyLineEnds_eq : ∀ {t : Text}, .scalar '\r' ∉ t → t.unifyLineEnds = t
  | [], _ => rfl
  | c :: t, h => by
    obtain ⟨hc, ht⟩ : c ≠ .scalar '\r' ∧ .scalar '\r' ∉ t := by
      simpa [eq_comm] using h
    rw [unifyLineEnds.eq_4 c t (fun _ h₁ _ => hc h₁) hc, unifyLineEnds_eq ht]

/-- That a carriage return has just ended a line makes a difference to a line feed alone. -/
theorem linesFrom_afterReturn {t : Text} (h : ∀ u, t ≠ .scalar '\n' :: u) (line : Text) :
    linesFrom line true t = linesFrom line false t := by
  cases t with
  | nil => rfl
  | cons c t =>
    have hc : (c == .scalar '\n') = false := by
      rw [beq_eq_false_iff_ne]
      rintro rfl
      exact h t rfl
    simp only [linesFrom, hc, Bool.and_false]

theorem linesFrom_unifyLineEnds (t line : Text) :
    linesFrom line false (unifyLineEnds t) = linesFrom line false t := by
  fun_induction unifyLineEnds t generalizing line with
  | case1 => rfl
  | case2 t ih =>
    -- behind the carriage return the line feed ends no line of its own
    show line.reverse :: linesFrom [] false (unifyLineEnds t) = line.reverse :: linesFrom [] false t
    rw [ih]
  | case3 t hnext ih =>
    show line.reverse :: linesFrom [] false (unifyLineEnds t) = line.reverse :: linesFrom [] true t
    rw [ih, linesFrom_afterReturn hnext]
  | case4 c t _ hc ih =>
    have hreturn : (c == .scalar '\r') = false := beq_eq_false_iff_ne.mpr hc
    simp only [linesFrom, Bool.false_and, Bool.false_eq_true, if_false, hreturn, ih]

/-- Unifying the line ends leaves the lines as they are. -/
theorem lines_unifyLineEnds (t : Text) : lines (unifyLineEnds t) = lines t :=
  linesFrom_unifyLineEnds t []

end Text

end LabelBook
