import LabelBook.Proofs.Json.Values
import LabelBook.Proofs.Settings.Reading
import LabelBook.Proofs.Text.Blank

/-!
What is accepted as a level. A level is given by null, by the number of one of the four levels, or by the
name of one in letters of any case, with blanks around it or not. The case of letters is taken away by
capitals, and the capital of the dotless ı is a plain I, so that "ınfo" and "warnıng" are names as well;
the other letters whose capitals are plain ones spell nothing that is in a name.

    null  ↦  INFO        30  ↦  WARNING        "  Debug\n"  ↦  DEBUG        true, 50, 20.0, "inf"  ↦  none
-/

namespace LabelBook

namespace Text

/-- A text with an I for each dotless ı. -/
def dotted (t : Text) : Text := t.map fun c => if c = .scalar 'ı' then .scalar 'I' else c

end Text

namespace Settings

/-- The names of the levels that can be chosen, with their numbers. -/
def levels : List (Text × Level) := [("DEBUG", 10), ("INFO", 20), ("WARNING", 30), ("ERROR", 40)]

/-- Whether a value says a level that goes by a name and a number. -/
def Denotes (d : Datum) (name : Text) (number : Level) : Prop :=
  match d with
  | .null => name = "INFO"
  | .int n => n = number
  | .string t => t.trim.dotted.lowerAscii = name.lowerAscii
  | _ => False

/-! ### Capitals -/

theorem toUpper_eq_iff {c x : Char} (hx : x.isUpper = true) :
    c.toUpper = x ↔ c.toLower = x.toLower := by
  simp only [Char.isUpper, decide_eq_true_eq, ge_iff_le, UInt32.le_iff_toNat_le] at hx
  simp only [Char.toUpper, Char.toLower, Char.ext_iff, ge_iff_le, UInt32.le_iff_toNat_le,
    ← UInt32.toNat_inj]
  have hA : 'A'.val.toNat = 65 := rfl
  have hZ : 'Z'.val.toNat = 90 := rfl
  have ha : 'a'.val.toNat = 97 := rfl
  have hz : 'z'.val.toNat = 122 := rfl
  have hup : ('A'.val - 'a'.val).toNat = 2 ^ 32 - 32 := rfl
  have hdown : ('a'.val - 'A'.val).toNat = 32 := rfl
  split_ifs <;> simp only [UInt32.toNat_add, hup, hdown] <;> omega

/-- A capital of the ASCII range. -/
def isCapital : CodePoint → Bool
  | .scalar x => x.isUpper
  | .lone _ => false

/-- A text in capitals of ASCII in which the capitals of no other letter can be found, but for the one of
the dotless ı. -/
structure Plain (u : Text) : Prop where
  capital : ∀ c ∈ u, isCapital c = true
  unjoined : ∀ e ∈ upperForms, e.1 ≠ 'ı' → ¬ Text.ofString e.2 <:+: u

theorem plain_name (v : Verbosity) : Plain v.name := by
  cases v <;> exact ⟨by decide +kernel, by decide +kernel⟩

theorem Plain.tail {c : CodePoint} {u : Text} (h : Plain (c :: u)) : Plain u :=
  ⟨fun d hd => h.capital d (List.mem_cons_of_mem c hd),
    fun e he hne hin => h.unjoined e he hne (hin.trans (List.suffix_cons c u).isInfix)⟩

theorem Plain.head {c : CodePoint} {u : Text} (h : Plain (c :: u)) :
    ∃ x : Char, c = .scalar x ∧ x.isUpper = true := by
  have hc := h.capital c List.mem_cons_self
  cases c with
  | scalar x => exact ⟨x, rfl, hc⟩
  | lone n => cases hc

/-- A letter has a capital in ASCII like the letter that it is read as, or capitals that are in no plain
text and no small letter of ASCII; a surrogate is its own capital. -/
inductive Rises (c : CodePoint) (t : Text) : Prop
  | letter (x : Char) (upper : upperToAscii (c :: t) = .scalar x.toUpper :: upperToAscii t)
      (read : Text.dotted (c :: t) = .scalar x :: t.dotted)
  | joined (e : Char × String) (mem : e ∈ upperForms) (other : e.1 ≠ 'ı') (letter : c = .scalar e.1)
      (upper : upperToAscii (c :: t) = Text.ofString e.2 ++ upperToAscii t)
  | lone (n : Fin 2048) (surrogate : c = .lone n)
      (upper : upperToAscii (c :: t) = c :: upperToAscii t)

theorem rises (c : CodePoint) (t : Text) : Rises c t := by
  cases c with
  | lone n => exact .lone n rfl rfl
  | scalar x =>
    by_cases hx : x = 'ı'
    · subst hx
      exact .letter 'I' rfl rfl
    · have hread : Text.dotted (.scalar x :: t) = .scalar x :: t.dotted := by
        simp [Text.dotted, hx]
      cases hlookup : upperForms.lookup x with
      | none => exact .letter x (by simp [upperToAscii, hlookup]) hread
      | some s =>
        obtain ⟨before, after, heq, -⟩ := List.lookup_eq_some_iff.mp hlookup
        exact .joined (x, s) (heq ▸ by simp) hx rfl (by simp [upperToAscii, hlookup])

theorem lowerAscii_cons (x : Char) (t : Text) :
    Text.lowerAscii (.scalar x :: t) = .scalar x.toLower :: t.lowerAscii := rfl

/-- A letter whose capitals are those of other letters is no letter of ASCII itself. -/
theorem toLower_ne_of_mem {e : Char × String} (he : e ∈ upperForms) {x : Char}
    (hx : x.isUpper = true) : e.1.toLower ≠ x.toLower := by
  have hforms : ∀ e ∈ upperForms, e.1.toUpper.isUpper = false := by decide
  intro heq
  rw [← toUpper_eq_iff hx] at heq
  exact absurd hx (by simp [← heq, hforms e he])

/-- A text in capitals comes from the texts that are equal to it without regard to case, once an I stands
for each dotless ı. -/
theorem upperToAscii_eq_iff {t u : Text} (hu : Plain u) :
    upperToAscii t = u ↔ t.dotted.lowerAscii = u.lowerAscii := by
  induction t generalizing u with
  | nil => cases u <;> simp [upperToAscii, Text.dotted, Text.lowerAscii]
  | cons c t ih =>
    rcases u with - | ⟨d, u⟩
    · have hread : (Text.dotted (c :: t)).lowerAscii ≠ [] := by simp [Text.dotted, Text.lowerAscii]
      refine iff_of_false (fun h => ?_) hread
      cases rises c t with
      | letter x upper read => cases upper.symm.trans h
      | joined e mem other letter upper =>
        exact hu.unjoined e mem other ⟨[], _, upper.symm.trans h⟩
      | lone n surrogate upper => cases upper.symm.trans h
    · obtain ⟨x, rfl, hx⟩ := hu.head
      cases rises c t with
      | letter y upper read =>
        rw [upper, read, lowerAscii_cons, lowerAscii_cons]
        simp only [List.cons.injEq, CodePoint.scalar.injEq, toUpper_eq_iff hx, ih hu.tail]
      | joined e mem other letter upper =>
        subst letter
        have hread : Text.dotted (.scalar e.1 :: t) = .scalar e.1 :: Text.dotted t := by
          simp [Text.dotted, other]
        refine iff_of_false (fun h => ?_) (fun h => ?_)
        · exact hu.unjoined e mem other ⟨[], _, upper.symm.trans h⟩
        · rw [hread, lowerAscii_cons, lowerAscii_cons] at h
          exact toLower_ne_of_mem mem hx (CodePoint.scalar.inj (List.cons.inj h).1)
      | lone n surrogate upper =>
        subst surrogate
        refine iff_of_false (fun h => ?_) (fun h => ?_)
        · cases upper.symm.trans h
        · cases (List.cons.inj h).1

/-! ### Names and numbers -/

theorem verbosityNamed_eq_ok_iff {t : Text} {v : Verbosity} :
    verbosityNamed t = .ok v ↔ t = v.name := by
  constructor
  · intro h
    unfold verbosityNamed at h
    split at h
    · cases h
    · split at h
      · next found =>
        obtain rfl := Except.ok.inj h
        exact (of_decide_eq_true (List.find?_some (p := fun v : Verbosity => decide (v.name = t)) found)).symm
      · cases h
  · rintro rfl
    cases v <;> decide +kernel

theorem name_eq_iff {n : Level} {v : Verbosity} : n.name = v.name ↔ n = v.level := by
  constructor
  · intro h
    rw [Level.name] at h
    cases hlookup : Level.names.lookup n with
    | none =>
      rw [hlookup] at h
      dsimp only at h
      have hstart : (Text.concat ["Level ", Text.ofInt n]).head? = some (.scalar 'L') := rfl
      rw [h] at hstart
      cases v <;> exact absurd hstart (by decide +kernel)
    | some t =>
      rw [hlookup] at h
      subst h
      obtain ⟨before, after, heq, -⟩ := List.lookup_eq_some_iff.mp hlookup
      have hmem : (n, v.name) ∈ Level.names := heq ▸ by simp
      have hnumber : ∀ e ∈ Level.names, e.2 = v.name → e.1 = v.level := by
        cases v <;> decide +kernel
      exact hnumber _ hmem rfl
  · rintro rfl
    cases v <;> decide +kernel

/-! ### What a value says -/

variable {v : Verbosity}

/-- A value says the level that its word names. -/
theorem readVerbosity_eq_iff {d : Datum} :
    readVerbosity d = .ok (.ok v) ↔ ∃ t, levelWord d = .ok t ∧ verbosityNamed t = .ok v := by
  simp only [← judged_eq_ok_iff (r := levelWord d), readVerbosity]
  rcases judged (levelWord d) with f | e | t <;> simp [Except.map, Except.bind]

theorem readVerbosity_word {d : Datum} {t : Text} (h : levelWord d = .ok t) :
    readVerbosity d = .ok (.ok v) ↔ verbosityNamed t = .ok v := by
  simp [readVerbosity_eq_iff, h]

theorem readVerbosity_string {t : Text} : readVerbosity (.string t) = .ok (.ok v) ↔
    t.trim.dotted.lowerAscii = v.name.lowerAscii := by
  have hword : levelWord (.string t) = .ok (upperToAscii t.trim) := rfl
  rw [readVerbosity_word hword, verbosityNamed_eq_ok_iff, upperToAscii_eq_iff (plain_name v)]

/-- An integer that is too long to be shown is the number of no level. -/
theorem readVerbosity_int {n : Int} : readVerbosity (.int n) = .ok (.ok v) ↔ n = v.level := by
  have htext : (Datum.int n).text = if Datum.tooLong n then .error .tooLong else .ok (Text.ofInt n) := rfl
  rw [readVerbosity_eq_iff, levelWord, shown, htext]
  by_cases hlong : Datum.tooLong n = true
  · refine iff_of_false (by simp [hlong, Except.map, Except.mapError]) ?_
    rintro rfl
    cases v <;> exact absurd hlong (by decide +kernel)
  · simp [hlong, Except.map, Except.mapError, verbosityNamed_eq_ok_iff, name_eq_iff]

theorem readVerbosity_bool (b : Bool) : readVerbosity (.bool b) ≠ .ok (.ok v) := by
  rw [Ne, readVerbosity_word rfl]
  cases b <;> cases v <;> decide +kernel

theorem readVerbosity_null : readVerbosity .null = .ok (.ok v) ↔ v.name = "INFO" := by
  rw [readVerbosity_word rfl]
  cases v <;> decide +kernel

/-! ### Values that say no level -/

/-- What the text of a number, of a time and of an array or a table starts with. -/
def marks : List CodePoint := decimalDigits ++ [.scalar '-', .scalar '[', .scalar '{']

/-- A text that starts in a way in which no name does. -/
def Marked (t : Text) : Prop := ∃ c rest, t = c :: rest ∧ c ∈ marks

theorem Marked.append {t : Text} (h : Marked t) (u : Text) : Marked (t ++ u) := by
  obtain ⟨c, rest, rfl, hc⟩ := h
  exact ⟨c, rest ++ u, rfl, hc⟩

theorem marked_digit {c : CodePoint} (h : c.isDigit = true) (t : Text) : Marked (c :: t) :=
  ⟨c, t, rfl, List.mem_append_left _ (CodePoint.mem_decimalDigits.mp h)⟩

theorem marked_padded (width n : Nat) : Marked (Text.padded width n) := by
  have hdigit : ∀ c ∈ List.replicate (width - (Nat.toDigits 10 n).length) '0' ++ Nat.toDigits 10 n,
      c.isDigit = true := by
    intro c hc
    rcases List.mem_append.mp hc with hc | hc
    · rw [List.eq_of_mem_replicate hc]; rfl
    · exact (Json.whole_toDigits n).decimal c hc
  have hne := List.append_ne_nil_of_right_ne_nil
    (List.replicate (width - (Nat.toDigits 10 n).length) '0') (Nat.toDigits_ne_nil (b := 10) (n := n))
  obtain ⟨c, cs, hcs⟩ := List.exists_cons_of_ne_nil hne
  rw [Text.padded, hcs, Text.ofChars_cons]
  exact marked_digit (c := .scalar c) (hdigit c (hcs ▸ List.mem_cons_self)) _

theorem marked_float (x : Binary64) : Marked (x.text "inf" "nan") ∨
    x.text "inf" "nan" = Text.ofString "inf" ∨ x.text "inf" "nan" = Text.ofString "nan" := by
  have hminus : ∀ t, Marked (Binary64.signText true ++ t) := fun t =>
    ⟨.scalar '-', t, rfl, by decide⟩
  obtain ⟨negative, m, e, fits⟩ | negative | _ := x
  · cases negative with
    | true => exact .inl (hminus _)
    | false =>
      obtain ⟨c, t, hc, hdigit⟩ := Json.number?_head (Json.number?_magnitude false fits Json.endsNumber_nil)
      rw [List.append_nil] at hc
      refine .inl ?_
      rw [Binary64.text, hc]
      exact marked_digit hdigit t
  · cases negative with
    | true => exact .inl (hminus _)
    | false => exact .inr (.inl rfl)
  · exact .inr (.inr rfl)

theorem not_named_of_marked {t : Text} (h : Marked t) : upperToAscii t.trim ≠ v.name := by
  obtain ⟨c, rest, rfl, hc⟩ := h
  have hmarks : ∀ c ∈ marks, c.isBlank = false ∧ upperToAscii [c] = [c] ∧
      ∀ v ∈ Verbosity.all, v.name.head? ≠ some c := by decide +kernel
  obtain ⟨hblank, hupper, hhead⟩ := hmarks c hc
  obtain ⟨rest', htrim⟩ := Text.trim_cons hblank rest
  have hcons : upperToAscii (c :: rest') = upperToAscii [c] ++ upperToAscii rest' := by
    simp [upperToAscii]
  rw [htrim, hcons, hupper]
  intro hname
  exact hhead v (by cases v <;> decide) (by rw [← hname]; rfl)

/-- A value that is read by its text. -/
theorem readVerbosity_shown {d : Datum}
    (h : levelWord d = (shown d).map fun t => upperToAscii t.trim) :
    readVerbosity d = .ok (.ok v) ↔ ∃ t, d.text = .ok t ∧ upperToAscii t.trim = v.name := by
  rw [readVerbosity_eq_iff, h, shown]
  rcases d.text with why | t
  · simp [Except.map, Except.mapError]
  · simp [Except.map, Except.mapError, verbosityNamed_eq_ok_iff]

/-- A value that is read by its text says no level if no name starts like the text. -/
theorem readVerbosity_marked {d : Datum}
    (h : levelWord d = (shown d).map fun t => upperToAscii t.trim)
    (marked : ∀ t, d.text = .ok t → Marked t) : readVerbosity d ≠ .ok (.ok v) := by
  rw [Ne, readVerbosity_shown h]
  rintro ⟨t, ht, hname⟩
  exact not_named_of_marked (marked t ht) hname

/-- The words for infinity and for what is no number are not the name of a level. -/
theorem readVerbosity_float (x : Binary64) : readVerbosity (.float x) ≠ .ok (.ok v) := by
  have htext : (Datum.float x).text = .ok (x.text "inf" "nan") := rfl
  rcases marked_float x with hmarked | hword | hword
  · exact readVerbosity_marked rfl fun t ht => Except.ok.inj (htext.symm.trans ht) ▸ hmarked
  all_goals
    rw [Ne, readVerbosity_shown rfl, htext, hword]
    rintro ⟨t, ht, hname⟩
    obtain rfl := Except.ok.inj ht
    cases v <;> exact absurd hname (by decide +kernel)

/-- The text of an array starts with a bracket. -/
theorem marked_array {items : List Datum} {t : Text} (h : (Datum.array items).text = .ok t) :
    Marked t := by
  obtain ⟨ts, -, h⟩ := Except.bind_eq_ok_iff.mp h
  exact Except.ok.inj h ▸ ⟨.scalar '[', _, rfl, by decide⟩

/-- The text of a table starts with a brace. -/
theorem marked_table {entries : List (Text × Datum)} {t : Text} (h : (Datum.table entries).text = .ok t) :
    Marked t := by
  obtain ⟨ts, -, h⟩ := Except.bind_eq_ok_iff.mp h
  exact Except.ok.inj h ▸ ⟨.scalar '{', _, rfl, by decide⟩

theorem marked_date (d : Date) : Marked d.text := (marked_padded 4 d.year).append _

theorem marked_time (t : TimeOfDay) : Marked t.text := (marked_padded 2 t.hour).append _

/-- The level that is read from a value is the one that the value says. -/
theorem readVerbosity_eq_ok_iff {d : Datum} :
    readVerbosity d = .ok (.ok v) ↔ Denotes d v.name v.level := by
  cases d with
  | null => exact readVerbosity_null
  | bool b => exact iff_of_false (readVerbosity_bool b) id
  | int n => exact readVerbosity_int
  | string t => exact readVerbosity_string
  | float x => exact iff_of_false (readVerbosity_float x) id
  | array items => exact iff_of_false (readVerbosity_marked rfl fun _ => marked_array) id
  | table entries => exact iff_of_false (readVerbosity_marked rfl fun _ => marked_table) id
  | date d =>
    refine iff_of_false (readVerbosity_marked rfl fun t ht => ?_) id
    exact Except.ok.inj ht ▸ marked_date d
  | time t =>
    refine iff_of_false (readVerbosity_marked rfl fun u hu => ?_) id
    exact Except.ok.inj hu ▸ marked_time t
  | moment d t offset =>
    refine iff_of_false (readVerbosity_marked rfl fun u hu => ?_) id
    exact Except.ok.inj hu ▸ (marked_date d).append _

/-! ### Documents -/

/-- A document with a value for the level, beside whatever else it says. -/
def withLevel (others rest : List (Text × Datum)) (d : Datum) : Datum :=
  .table (("logging", .table (("level", d) :: rest)) :: others)

theorem get?_cons_self (key : Text) (d : Datum) (fields : List (Text × Datum)) :
    Datum.get? key ((key, d) :: fields) = some d := by simp [Datum.get?]

theorem get?_cons_ne {key other : Text} (h : other ≠ key) (d : Datum) (fields : List (Text × Datum)) :
    Datum.get? key ((other, d) :: fields) = Datum.get? key fields := by simp [Datum.get?, h]

/-- What such a document asks for does not depend on the level. -/
theorem askedIn?_withLevel (others rest : List (Text × Datum)) (d : Datum) :
    askedIn? (withLevel others rest d) = askedIn? (.table others) := by
  rw [withLevel, askedIn?, askedIn?, get?_cons_ne (by decide)]

theorem logIn_withLevel {others rest : List (Text × Datum)} {d : Datum} {l : LogSettings} :
    logIn (("logging", .table (("level", d) :: rest)) :: others) = .ok (.ok l) ↔
      Denotes d l.verbosity.name l.verbosity.level ∧
        readField "log_dir" none readLogDirectory rest = .ok (.ok l.directory) := by
  rw [logIn, get?_cons_self]
  dsimp only
  rw [readLog_eq_ok_iff, readField_eq_ok_iff, get?_cons_self, readField, readField,
    get?_cons_ne (by decide)]
  simp [readVerbosity_eq_ok_iff]

theorem ofDatum_withLevel {w : World} {others rest : List (Text × Datum)} {d : Datum} {s : Settings} :
    ((ofDatum (withLevel others rest d)).run w).1 = .ok (.ok s) ↔
      Denotes d s.log.verbosity.name s.log.verbosity.level ∧
      readField "log_dir" none readLogDirectory rest = .ok (.ok s.log.directory) ∧
      ∃ q, askedIn? (.table others) = some q ∧ (q.run w).1 = .ok s.store.dataDirectory := by
  rw [ofDatum_eq_ok_iff, askedIn?_withLevel]
  simp only [withLevel, Datum.table.injEq, exists_eq_left', logIn_withLevel, and_assoc]

/-- A value is accepted for the level exactly if it says one of the four levels, whatever else the document
says that would be accepted beside null. It sets that level and nothing else. -/
theorem level_accepted_iff (w : World) (others rest : List (Text × Datum)) (d : Datum) (s : Settings) :
    ((ofDatum (withLevel others rest d)).run w).1 = .ok (.ok s) ↔
      (s.log.verbosity.name, s.log.verbosity.level) ∈ levels ∧
      Denotes d s.log.verbosity.name s.log.verbosity.level ∧
      ((ofDatum (withLevel others rest .null)).run w).1 =
        .ok (.ok ⟨s.store, ⟨.info, s.log.directory⟩⟩) := by
  have hlevel : (s.log.verbosity.name, s.log.verbosity.level) ∈ levels := by
    cases s.log.verbosity <;> decide
  have hnull : Denotes .null Verbosity.info.name Verbosity.info.level := rfl
  rw [ofDatum_withLevel, ofDatum_withLevel]
  simp only [hlevel, hnull, true_and]

/-- The dotless ı makes a difference: "ınfo" is accepted, though it is the name of no level without regard
to the case of the letters of ASCII. -/
theorem dotless_accepted :
    ((ofDatum (withLevel [] [] (.string "ınfo"))).run homeWorld).1 =
      .ok (.ok ⟨⟨.ofText "/h/.walletlabels"⟩, ⟨.info, none⟩⟩) ∧
    ∀ e ∈ levels, (Text.trim "ınfo").lowerAscii ≠ e.1.lowerAscii :=
  ⟨by cbv, by decide +kernel⟩

end Settings

end LabelBook
