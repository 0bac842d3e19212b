import LabelBook.Proofs.Json.Written
import LabelBook.Proofs.Text.Lines

/-!
Reading line by line. Lines are read up to the first one that is neither blank nor a record, and a
complaint about it names its number; a limit of the JSON reader comes through as it is. The number is all
that a line knows of the lines before it. So a text behind another one that ends in a line feed is read as
it is alone, with its numbers counted from there.
-/

namespace LabelBook

/-- A failure to read a line that has some more lines above it. -/
def Failure.furtherDown (count : Nat) : Failure → Failure
  | line n cause => line (n + count) cause
  | f => f

/-- A limit of the reader that a text exceeds, as opposed to a complaint about it. -/
inductive Json.ParseError.IsLimit : Json.ParseError → Prop
  | tooManyDigits (count : Nat) : IsLimit (.tooManyDigits count)
  | tooDeep (inObject : Bool) : IsLimit (.tooDeep inObject)

/-- A number of more ones than an integer may have digits hits a limit. -/
theorem Json.parse_ones {n : Nat} (h : maxDigits < n) :
    parse (List.replicate n (.scalar '1')) = .error (.tooManyDigits n) := by
  obtain ⟨m, rfl⟩ : ∃ m, n = m + 1 := ⟨n - 1, by omega⟩
  have hnumber : number? false (List.replicate (m + 1) (.scalar '1')) =
      .error (.tooManyDigits (m + 1)) := by
    have hwhole : wholeDigits (List.replicate (m + 1) (.scalar '1')) =
        (List.replicate (m + 1) (.scalar '1'), []) := by
      simp [wholeDigits, List.replicate_succ, CodePoint.isDigit]
    simp [number?, hwhole, fraction, exponent?, h]
  rw [List.replicate_succ] at hnumber ⊢
  have hvalue : value maxDepth (.scalar '1' :: List.replicate m (.scalar '1')) =
      .error (.tooManyDigits (m + 1)) := by
    simp [value, scalar, words, Text.dropStart?, Text.ofString, hnumber]
  simp [parse, ofUnmarkedText, ofText, skipGap, isGap, hvalue, Except.mapError, Fault.locate]

namespace Record

variable {number : Int} {t : Text} {f : Failure}

/-- The record of a line that holds an object is that of its entries. -/
theorem ofLine_object {d : Entries} (h : Json.parse t = .ok (.object d)) : ofLine number t =
    ((ofMapping d).mapError Failure.rejected).mapError (Failure.ofLine number) := by
  rw [ofLine, h]
  rfl

/-- A line that is no record is told with its number, unless a limit was hit on it. -/
theorem ofLine_error_cases (h : ofLine number t = .error f) :
    (∃ cause, f = .line number cause) ∨ ∃ e, Json.parse t = .error e ∧ e.IsLimit ∧ f = .json e := by
  unfold ofLine at h
  cases hparse : Json.parse t with
  | error e =>
    rw [hparse] at h
    obtain rfl := Except.error.inj h
    cases e with
    | malformed what position line column => exact Or.inl ⟨_, rfl⟩
    | tooManyDigits count => exact Or.inr ⟨_, rfl, .tooManyDigits count, rfl⟩
    | tooDeep inObject => exact Or.inr ⟨_, rfl, .tooDeep inObject, rfl⟩
  | ok v =>
    rw [hparse] at h
    cases v with
    | object entries =>
      cases hread : ofMapping entries with
      | ok r =>
        simp only [Except.mapError, Except.bind, ofJson, hread] at h
        cases h
      | error r =>
        simp only [Except.mapError, Except.bind, ofJson, hread] at h
        exact Or.inl ⟨_, (Except.error.inj h).symm⟩
    | null | bool _ | int _ | float _ | string _ | array _ =>
      exact Or.inl ⟨_, (Except.error.inj h).symm⟩

theorem ofLine_limit {e : Json.ParseError} (h : Json.parse t = .error e) (limit : e.IsLimit) :
    ofLine number t = .error (.json e) := by
  rw [ofLine, h]
  cases limit <;> rfl

/-- Whether a line is a record does not depend on its number. -/
theorem ofLine_ok_number {r : Record} (h : ofLine number t = .ok r) (n : Int) :
    ofLine n t = .ok r := by
  unfold ofLine at h ⊢
  cases hread : ((Json.parse t).mapError Failure.json).bind ofJson with
  | error g => rw [hread] at h; cases h
  | ok q => rw [hread] at h; exact h

/-- A line further down is read as the same record, or fails further down. -/
theorem ofLine_furtherDown (number : Int) (count : Nat) (t : Text) :
    ofLine (number + count) t = (ofLine number t).mapError (Failure.furtherDown count) := by
  cases hparse : Json.parse t with
  | error e =>
    rw [ofLine, ofLine, hparse]
    cases e <;> rfl
  | ok v =>
    cases v with
    | object d =>
      rw [ofLine_object hparse, ofLine_object hparse]
      cases ofMapping d <;> rfl
    | null | bool _ | int _ | float _ | string _ | array _ =>
      rw [ofLine, ofLine, hparse]
      rfl

end Record

namespace Collection

/-- A line that reading goes past: it is blank, or it is a record. -/
def Passes (t : Text) : Prop := t.isBlank = true ∨ ∃ r, Record.ofLine 1 t = .ok r

/-- Reading lines fails at the first one that is neither blank nor a record. -/
theorem recordsFrom_error_iff {number : Nat} {ts : List Text} {f : Failure} :
    recordsFrom number ts = .error f ↔ ∃ before line after, ts = before ++ line :: after ∧
      (∀ t ∈ before, Passes t) ∧ line.isBlank = false ∧
      Record.ofLine ((number + before.length : Nat) : Int) line = .error f := by
  constructor
  · intro h
    induction ts generalizing number with
    | nil => cases h
    | cons t ts ih =>
      rw [recordsFrom] at h
      split at h
      · next hblank =>
        obtain ⟨before, line, after, rfl, hpasses, hline, herror⟩ := ih h
        refine ⟨t :: before, line, after, rfl, List.forall_mem_cons.mpr ⟨.inl hblank, hpasses⟩, hline, ?_⟩
        rwa [List.length_cons, Nat.add_comm before.length, ← Nat.add_assoc]
      · next hblank =>
        split at h
        · next hf =>
          obtain rfl := Except.error.inj h
          exact ⟨[], t, ts, rfl, fun _ hmem => absurd hmem List.not_mem_nil,
            Bool.not_eq_true _ ▸ hblank, hf⟩
        · next r hr =>
          cases hrest : recordsFrom (number + 1) ts with
          | ok rs => rw [hrest] at h; cases h
          | error g =>
            rw [hrest] at h
            obtain rfl := Except.error.inj h
            obtain ⟨before, line, after, rfl, hpasses, hline, herror⟩ := ih hrest
            refine ⟨t :: before, line, after, rfl, List.forall_mem_cons.mpr
              ⟨.inr ⟨r, Record.ofLine_ok_number hr 1⟩, hpasses⟩, hline, ?_⟩
            rwa [List.length_cons, Nat.add_comm before.length, ← Nat.add_assoc]
  · rintro ⟨before, line, after, rfl, hpasses, hline, herror⟩
    induction before generalizing number with
    | nil => rw [List.nil_append, recordsFrom, if_neg (by simp [hline]), show
        Record.ofLine number line = .error f from herror]
    | cons t before ih =>
      obtain ⟨ht, hpasses⟩ := List.forall_mem_cons.mp hpasses
      rw [List.length_cons, Nat.add_comm before.length, ← Nat.add_assoc] at herror
      have hrest := ih hpasses herror
      rw [List.cons_append, recordsFrom]
      split
      · exact hrest
      · next hblank =>
        obtain ⟨r, hr⟩ := ht.resolve_left hblank
        rw [Record.ofLine_ok_number hr, hrest]
        rfl

/-- Lines further down are read as the same records, or fail further down. -/
theorem recordsFrom_furtherDown (number count : Nat) (ts : List Text) :
    recordsFrom (number + count) ts = (recordsFrom number ts).mapError (Failure.furtherDown count) := by
  induction ts generalizing number with
  | nil => rfl
  | cons t ts ih =>
    rw [recordsFrom, recordsFrom, Nat.add_right_comm, ih, Nat.cast_add, Record.ofLine_furtherDown]
    split
    · rfl
    · cases Record.ofLine number t with
      | error f => rfl
      | ok r => cases recordsFrom (number + 1) ts <;> rfl

/-- Lines are read after those before them. -/
theorem recordsFrom_append (number : Nat) (ss ts : List Text) :
    recordsFrom number (ss ++ ts) = (recordsFrom number ss).bind fun rs =>
      (recordsFrom (number + ss.length) ts).map (rs ++ ·) := by
  induction ss generalizing number with
  | nil =>
    show recordsFrom number ts = (recordsFrom number ts).map ([] ++ ·)
    cases recordsFrom number ts <;> rfl
  | cons s ss ih =>
    rw [List.cons_append, recordsFrom, recordsFrom, ih, List.length_cons, Nat.add_assoc,
      Nat.add_comm 1]
    split
    · rfl
    · cases Record.ofLine number s with
      | error f => rfl
      | ok r =>
        cases recordsFrom (number + 1) ss with
        | error f => rfl
        | ok rs => cases recordsFrom (number + (ss.length + 1)) ts <;> rfl

/-- A text behind one that ends in a line feed is read as it is alone, further down. -/
theorem ofText_append {a : Text} (ends : a.EndsInLineFeed) (b : Text) :
    ofText (a ++ b) = (ofText a).bind fun c =>
      ((ofText b).mapError (Failure.furtherDown a.lines.length)).map fun d =>
        ⟨c.records ++ d.records⟩ := by
  rw [ofText, ofText, ofText, Text.lines_append_of_ends ends, recordsFrom_append, recordsFrom_furtherDown]
  cases recordsFrom 1 a.lines with
  | error f => rfl
  | ok rs => cases recordsFrom 1 b.lines <;> rfl

theorem ofText_error_iff {t : Text} {f : Failure} :
    ofText t = .error f ↔ recordsFrom 1 t.lines = .error f := by
  rw [ofText]
  cases recordsFrom 1 t.lines <;> simp [Except.map]

/-- A line of a text, as a text. -/
theorem ofText_line {t l : Text} (h : l ∈ t.lines) : ofText l = (recordsFrom 1 [l]).map .mk := by
  rw [ofText, Text.lines_of_mem h]
  split
  · next hempty =>
    rw [List.isEmpty_iff.mp hempty]
    rfl
  · rfl

theorem ofText_passes {t l : Text} (h : l ∈ t.lines) (passes : Passes l) :
    ∃ c, ofText l = .ok c := by
  rw [ofText_line h, recordsFrom]
  split
  · exact ⟨_, rfl⟩
  · next hblank =>
    obtain ⟨r, hr⟩ := passes.resolve_left hblank
    rw [Nat.cast_one, hr]
    exact ⟨_, rfl⟩

/-- A line that fails with a number further down fails by itself with the number 1. -/
theorem ofText_fails {t l : Text} {count : Nat} {n : Int} {cause : Failure} (h : l ∈ t.lines)
    (hblank : l.isBlank = false) (herror : Record.ofLine (1 + count) l = .error (.line n cause)) :
    n = 1 + count ∧ ofText l = .error (.line 1 cause) := by
  rw [Record.ofLine_furtherDown] at herror
  rw [ofText_line h, recordsFrom, if_neg (by simp [hblank]), Nat.cast_one]
  cases hread : Record.ofLine 1 l with
  | ok r => rw [hread] at herror; cases herror
  | error f =>
    rw [hread] at herror
    rcases Record.ofLine_error_cases hread with ⟨_, rfl⟩ | ⟨_, -, -, rfl⟩
    · obtain ⟨rfl, rfl⟩ := Failure.line.inj (Except.error.inj herror)
      exact ⟨rfl, rfl⟩
    · cases Except.error.inj herror

/-- The line that a failure names is the first that cannot be read: all lines before it can, each by
itself, and it cannot. -/
theorem ofText_first {t : Text} {n : Int} {cause : Failure} (h : ofText t = .error (.line n cause)) :
    ∃ before l after, t.lines = before ++ l :: after ∧ n = before.length + 1 ∧
      (∀ m ∈ before, ∃ c, ofText m = .ok c) ∧ ofText l = .error (.line 1 cause) := by
  obtain ⟨before, l, after, hlines, hpasses, hblank, herror⟩ :=
    recordsFrom_error_iff.mp (ofText_error_iff.mp h)
  have hl : l ∈ t.lines := hlines ▸ List.mem_append_right _ List.mem_cons_self
  rw [Nat.cast_add, Nat.cast_one] at herror
  obtain ⟨rfl, hfails⟩ := ofText_fails hl hblank herror
  exact ⟨before, l, after, hlines, Int.add_comm _ _,
    fun m hm => ofText_passes (hlines ▸ List.mem_append_left _ hm) (hpasses m hm), hfails⟩

/-- Texts are read one after another. Behind a text that is empty or ends in a line feed another one is read
as it is alone: a failure of the first is that of both, with its number; if the first can be read, the
lines that a failure of the second names are counted behind its lines, any other failure of the second is
that of both, and the records of the second follow those of the first. So the number of a line in a failure
means that each line before it can be read by itself, blank ones among them, and that this one cannot. -/
theorem ofText_compositional {a : Text} (ends : a.EndsInLineFeed) (b : Text) :
    (∀ f, ofText a = .error f → ofText (a ++ b) = .error f) ∧
      (∀ c, ofText a = .ok c →
        (∀ n cause, ofText b = .error (.line n cause) →
          ofText (a ++ b) = .error (.line (n + a.lines.length) cause)) ∧
        (∀ f, (∀ n cause, f ≠ .line n cause) → ofText b = .error f → ofText (a ++ b) = .error f) ∧
        ∀ d, ofText b = .ok d → ofText (a ++ b) = .ok ⟨c.records ++ d.records⟩) ∧
      ∀ t n cause, ofText t = .error (.line n cause) →
        ∃ before l after, t.lines = before ++ l :: after ∧ n = before.length + 1 ∧
          (∀ m ∈ before, ∃ c, ofText m = .ok c) ∧ ofText l = .error (.line 1 cause) := by
  refine ⟨fun f hf => by rw [ofText_append ends, hf]; rfl, fun c hc => ⟨?_, ?_, ?_⟩,
    fun t n cause h => ofText_first h⟩
  · intro n cause hb
    rw [ofText_append ends, hc, hb]
    rfl
  · intro f hline hb
    rw [ofText_append ends, hc, hb]
    cases f with
    | line n cause => exact absurd rfl (hline n cause)
    | _ => rfl
  · intro d hd
    rw [ofText_append ends, hc, hd]
    rfl

/-- A record, ended by a carriage return and a line feed, and a blank line. -/
def upperText : Text := "\x7b\"type\": \"addr\", \"ref\": \"a\"\x7d\r\n\u2003\n"

/-- An empty line, ended by a separator, and an array. -/
def lowerText : Text := "\x1c[]"

/-- The array is in line 2, and in line 4 when it stands behind the record. -/
theorem ofText_compositional_array : upperText.EndsInLineFeed ∧ (∃ c, ofText upperText = .ok c) ∧
    ofText lowerText = .error (.line 2 .noObject) ∧
    ofText (upperText ++ lowerText) = .error (.line 4 .noObject) := by
  have ends : upperText.EndsInLineFeed := .inr ⟨upperText.dropLast, by decide⟩
  have hupper : ∃ c, ofText upperText = .ok c := ⟨_, by cbv⟩
  have hlower : ofText lowerText = .error (.line 2 .noObject) := by cbv
  obtain ⟨c, hc⟩ := hupper
  exact ⟨ends, ⟨c, hc⟩, hlower, ((ofText_compositional ends lowerText).2.1 c hc).1 2 .noObject hlower⟩

end Collection

end LabelBook
