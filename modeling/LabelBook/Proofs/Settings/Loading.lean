import LabelBook.Proofs.Asking
import LabelBook.Proofs.Steps

/-!
Loading settings. A file of settings that can be read gives settings or a complaint about a value, unless
one of three things happens: the document in it is nested too deep for its reader, it asks for a directory
of the labels that begins in a home directory which cannot be found, or a value in it that is to be shown is
nested too deep for that. These come through as they are.
-/

namespace LabelBook

open Program

namespace Program

variable {α β : Type} {w : World}

/-- A program that changes nothing and fails with nothing but complaints about values and the want of a
home directory. -/
structure Seeks (q : Program α) : Prop where
  asks : q.Asks
  failing : q.FailsAs fun f => f.isValue = true ∨ f = .homeless

theorem seeks_pure (a : α) : (pure a : Program α).Seeks := ⟨asks_pure a, failsAs_pure a⟩

theorem seeks_fail {f : Failure} (h : f.isValue = true ∨ f = .homeless) :
    (fail f : Program α).Seeks := ⟨asks_fail f, failsAs_fail h⟩

theorem Seeks.bind {q : Program α} {k : α → Program β} (hq : q.Seeks) (hk : ∀ a, (k a).Seeks) :
    (q >>= k).Seeks :=
  ⟨hq.asks.bind fun a => (hk a).asks, hq.failing.bind fun a => (hk a).failing⟩

theorem seeks_environment? (name : Text) : (environment? name).Seeks :=
  ⟨(homely_environment? name).asks, fun _ _ h => by cases h⟩

theorem seeks_home? (account : Option Text) : (home? account).Seeks :=
  ⟨(homely_home? account).asks, fun _ _ h => by cases h⟩

theorem seeks_checkAccount (name : Text) : (checkAccount name).Seeks := by
  unfold checkAccount
  split
  · exact seeks_fail (.inl rfl)
  · split
    · exact seeks_fail (.inl rfl)
    · exact seeks_pure ()

theorem seeks_homeOf (account : Text) : (homeOf account).Seeks := by
  unfold homeOf
  split
  · refine (seeks_environment? _).bind fun t => ?_
    split
    · exact seeks_pure _
    · exact seeks_home? _
  · exact (seeks_checkAccount _).bind fun _ => seeks_home? _

theorem seeks_expandHome (p : Path) : (expandHome p).Seeks := by
  unfold expandHome
  split
  · refine (seeks_homeOf _).bind fun t => ?_
    split
    · exact seeks_fail (.inr rfl)
    · dsimp only
      split
      · exact seeks_fail (.inr rfl)
      · exact seeks_pure _
  · exact seeks_pure _

/-- What becomes of a program that concerns a value: a complaint about the value is an answer, and any
other failure stays one. -/
theorem run_violationOf (q : Program α) :
    (Settings.violationOf q).run w = (Settings.judged (q.run w).1, (q.run w).2) := by
  rw [Settings.violationOf, run_outcome_bind]
  exact run_ofExcept _

end Program

namespace Settings

variable {α β : Type} {w : World} {p : Path} {content : Octets} {f : Failure}

/-! ### The directory of the labels -/

theorem seeks_defaultDirectory : defaultDirectory.Seeks := by
  unfold defaultDirectory
  refine (seeks_environment? _).bind fun t => ?_
  split
  · exact seeks_expandHome _
  · exact (seeks_expandHome _).bind fun _ => seeks_pure _

theorem seeks_directoryNamed (t : Text) : (directoryNamed t).Seeks := by
  unfold directoryNamed
  dsimp only
  split
  · exact seeks_defaultDirectory
  · exact seeks_expandHome _

/-- The directory that the part of a document about the labels asks for, if it comes to that. -/
def askedOf? : Datum → Option (Program Path)
  | .table fields =>
    match Datum.get? "data_dir" fields with
    | none => some defaultDirectory
    | some d => some (directoryOf d)
  | _ => none

/-- The directory of the labels that a document asks for, if it comes to that. -/
def askedIn? : Datum → Option (Program Path)
  | .table fields =>
    match Datum.get? "store" fields with
    | none => some defaultDirectory
    | some d => askedOf? d
  | _ => none

/-- A directory that is asked for and begins in a home directory which cannot be found. -/
def Homeless (w : World) (asked : Option (Program Path)) : Prop :=
  ∃ q, asked = some q ∧ (q.run w).1 = .error .homeless

/-- The value of a name in a table. -/
def valueUnder? (name : Text) : Datum → Option Datum
  | .table fields => Datum.get? name fields
  | _ => none

/-- A value that is there and nested too deep to be shown. -/
def TooDeep (value : Option Datum) : Prop := ∃ v ∈ value, v.text = .error .tooDeep

/-- The failures, none of a value, to find a directory that is asked for by a value, if there is one. -/
def Amiss (asked : Option (Program Path)) (value : Option Datum) (w : World) (f : Failure) : Prop :=
  f = .homeless ∧ Homeless w asked ∨ f = .unshowable .tooDeep ∧ TooDeep value

/-- A program that changes nothing, with those of the failures it ends with that are none of a value. -/
structure Strays (S : World → Failure → Prop) (q : Program α) : Prop where
  asks : q.Asks
  ends : ∀ w f, f.isValue = false → ((q.run w).1 = .error f ↔ S w f)

theorem Strays.congr {S T : World → Failure → Prop} {q : Program α} (hq : Strays S q)
    (h : ∀ w f, S w f ↔ T w f) : Strays T q :=
  ⟨hq.asks, fun w f hf => (hq.ends w f hf).trans (h w f)⟩

theorem strays_pure (a : α) : Strays (fun _ _ => False) (pure a : Program α) :=
  ⟨asks_pure a, fun _ _ _ => iff_of_false (fun h => by cases h) id⟩

theorem strays_ofExcept (r : Except Failure α) :
    Strays (fun _ f => r = .error f) (Program.ofExcept r) :=
  ⟨asks_ofExcept r, fun w f _ => by rw [run_ofExcept]⟩

/-- The second step is only come to if the first does not fail. -/
theorem Strays.bind {S T : World → Failure → Prop} {q : Program α} {k : α → Program β}
    (hq : Strays S q) (hk : ∀ a, Strays T (k a)) :
    Strays (fun w f => S w f ∨ (∃ a, (q.run w).1 = .ok a) ∧ T w f) (q >>= k) := by
  refine ⟨hq.asks.bind fun a => (hk a).asks, fun w f hf => ?_⟩
  rw [← hq.ends w f hf, run_bind, hq.asks.run w]
  rcases (q.run w).1 with g | a
  · simp
  · simpa using (hk a).ends w f hf

/-- A step before one that does not fail. -/
theorem Strays.before {S : World → Failure → Prop} {q : Program α} {k : α → Program β}
    (hq : Strays S q) (hk : ∀ a, ∃ b, k a = pure b) : Strays S (q >>= k) := by
  refine (hq.bind (T := fun _ _ => False) fun a => ?_).congr fun w f => by simp
  obtain ⟨b, hb⟩ := hk a
  rw [hb]
  exact strays_pure b

/-- What is judged as a value keeps the failures that are none of a value. -/
theorem judged_eq_error_iff {r : Except Failure α} (h : f.isValue = false) :
    judged r = .error f ↔ r = .error f := by
  rcases r with g | a
  · by_cases hg : g.isValue = true
    · have hne : g ≠ f := fun heq => absurd (heq ▸ hg) (by simp [h])
      simp [judged, hg, hne]
    · simp [judged, hg]
  · simp [judged]

theorem strays_violationOf {S : World → Failure → Prop} {q : Program α} (hq : Strays S q) :
    Strays S (violationOf q) := by
  refine ⟨asks_violationOf hq.asks, fun w f hf => ?_⟩
  rw [run_violationOf, ← hq.ends w f hf]
  exact judged_eq_error_iff hf

theorem strays_of_seeks {q : Program Path} (hq : q.Seeks) (value : Option Datum)
    (shallow : ¬ TooDeep value) : Strays (Amiss (some q) value) q := by
  refine ⟨hq.asks, fun w f hf => ⟨fun h => ?_, ?_⟩⟩
  · obtain hvalue | rfl := hq.failing w f h
    · exact absurd hvalue (by simp [hf])
    · exact .inl ⟨rfl, q, rfl, h⟩
  · rintro (⟨rfl, _, ⟨⟩, h⟩ | ⟨-, hdeep⟩)
    · exact h
    · exact absurd hdeep shallow

theorem not_tooDeep_none : ¬ TooDeep none := by
  rintro ⟨v, ⟨⟩, -⟩

theorem tooDeep_some {d : Datum} : TooDeep (some d) ↔ d.text = .error .tooDeep := by simp [TooDeep]

/-! ### Reading a document -/

/-- A value has a text, or is null, or cannot be shown. -/
theorem directoryOf_cases (d : Datum) : d = .null ∨
    (∃ t, d.text = .ok t ∧ directoryOf d = directoryNamed t) ∨
      ∃ why, d.text = .error why ∧ directoryOf d = fail (.unshowable why) := by
  by_cases hnull : d = .null
  · exact .inl hnull
  have hof : directoryOf d = Program.ofExcept (shown d) >>= directoryNamed := by
    rw [directoryOf]
    exact hnull
  rw [hof, shown]
  rcases d.text with why | t
  · exact .inr (.inr ⟨why, rfl, rfl⟩)
  · exact .inr (.inl ⟨t, rfl, rfl⟩)

theorem strays_directoryOf (d : Datum) : Strays (Amiss (some (directoryOf d)) (some d)) (directoryOf d) := by
  obtain rfl | ⟨t, htext, hof⟩ | ⟨why, htext, hof⟩ := directoryOf_cases d
  · exact strays_of_seeks seeks_defaultDirectory _ fun h => by cases tooDeep_some.mp h
  · rw [hof]
    exact strays_of_seeks (seeks_directoryNamed t) _ fun h => by cases htext.symm.trans (tooDeep_some.mp h)
  · refine ⟨asks_directoryOf d, fun w f hf => ?_⟩
    rw [hof, Amiss, tooDeep_some, htext]
    have hlost : ¬ Homeless w (some (fail (.unshowable why))) := by
      rintro ⟨_, ⟨⟩, ⟨⟩⟩
    cases why with
    | tooLong => exact iff_of_false (by rintro ⟨⟩; cases hf) (by simp [hlost])
    | tooDeep => simp [hlost, eq_comm]

theorem strays_readDirectory (d : Datum) :
    Strays (Amiss (some (directoryOf d)) (some d)) (readDirectory d) :=
  strays_violationOf (strays_directoryOf d)

theorem strays_defaultStore : Strays (Amiss (some defaultDirectory) none) defaultStore :=
  (strays_of_seeks seeks_defaultDirectory none not_tooDeep_none).before fun _ => ⟨_, rfl⟩

/-- What asks for no directory and does not fail. -/
theorem strays_nowhere (a : α) : Strays (Amiss none none) (pure a : Program α) :=
  (strays_pure a).congr fun w f => by simp [Amiss, Homeless, TooDeep]

theorem strays_readStore (d : Datum) :
    Strays (Amiss (askedOf? d) (valueUnder? "data_dir" d)) (readStore d) := by
  cases d with
  | table fields =>
    simp only [askedOf?, valueUnder?, readStore]
    rcases Datum.get? "data_dir" fields with - | d
    · exact strays_defaultStore.before fun _ => ⟨_, rfl⟩
    · refine (strays_readDirectory d).before fun r => ?_
      rcases r with e | q <;> exact ⟨_, rfl⟩
  | _ => exact strays_nowhere _

/-- A value in a part of a document. -/
def said? (part name : Text) (d : Datum) : Option Datum := (valueUnder? part d).bind (valueUnder? name)

theorem strays_storeIn (fields : List (Text × Datum)) :
    Strays (Amiss (askedIn? (.table fields)) (said? "store" "data_dir" (.table fields)))
      (storeIn fields) := by
  simp only [askedIn?, said?, valueUnder?, storeIn]
  rcases Datum.get? "store" fields with - | d
  · exact strays_defaultStore.before fun _ => ⟨_, rfl⟩
  · exact strays_readStore d

/-- Of a value that is read by its text it comes through that it is nested too deep. -/
theorem judged_shown_error_iff {d : Datum} {g : Text → α} :
    judged ((shown d).map g) = .error f ↔ f = .unshowable .tooDeep ∧ d.text = .error .tooDeep := by
  unfold shown
  rcases d.text with (_ | _) | t <;>
    simp [judged, Except.map, Except.mapError, Failure.isValue, eq_comm]

/-- A level is null or of two words, or is read by its text. -/
theorem levelWord_cases (d : Datum) :
    (∃ t, levelWord d = .ok t ∧ d.text ≠ .error .tooDeep) ∨
      ∃ g : Text → Text, levelWord d = (shown d).map g := by
  cases d with
  | null | bool => exact .inl ⟨_, rfl, fun h => by cases h⟩
  | int n => exact .inr ⟨fun _ => Level.name n, rfl⟩
  | _ => exact .inr ⟨fun t => upperToAscii t.trim, rfl⟩

theorem readVerbosity_error_iff {d : Datum} :
    readVerbosity d = .error f ↔ f = .unshowable .tooDeep ∧ d.text = .error .tooDeep := by
  have hjudged : readVerbosity d = .error f ↔ judged (levelWord d) = .error f := by
    unfold readVerbosity
    rcases judged (levelWord d) with g | r <;> simp [Except.map]
  rw [hjudged]
  obtain ⟨t, hword, hshallow⟩ | ⟨g, hword⟩ := levelWord_cases d
  · rw [hword]
    exact iff_of_false (fun h => by cases h) fun h => hshallow h.2
  · rw [hword]
    exact judged_shown_error_iff

theorem readLogDirectory_of_ne {d : Datum} (h : d ≠ .null) :
    readLogDirectory d = judged ((shown d).map logDirectoryNamed) := by
  rw [readLogDirectory]
  exact h

theorem readLogDirectory_error_iff {d : Datum} :
    readLogDirectory d = .error f ↔ f = .unshowable .tooDeep ∧ d.text = .error .tooDeep := by
  by_cases hnull : d = .null
  · subst hnull
    exact iff_of_false (fun h => by cases h) (fun h => by cases h.2)
  · rw [readLogDirectory_of_ne hnull]
    exact judged_shown_error_iff

theorem readField_error_iff (name : Text) (absent : α) (fields : List (Text × Datum))
    {read : Datum → Except Failure (Except Violation α)}
    (h : ∀ d, read d = .error f ↔ f = .unshowable .tooDeep ∧ d.text = .error .tooDeep) :
    readField name absent read fields = .error f ↔
      f = .unshowable .tooDeep ∧ TooDeep (Datum.get? name fields) := by
  unfold readField
  rcases Datum.get? name fields with - | d
  · simp [TooDeep]
  · rw [tooDeep_some, ← h]
    dsimp only
    rcases read d with g | r <;> simp [Except.map]

/-- A part of a document about the log with a value that is nested too deep. -/
def DeepLog (d : Datum) : Prop :=
  TooDeep (said? "logging" "level" d) ∨ TooDeep (said? "logging" "log_dir" d)

theorem readLog_error_iff {fields : List (Text × Datum)} : readLog (.table fields) = .error f ↔
    f = .unshowable .tooDeep ∧
      (TooDeep (Datum.get? "level" fields) ∨ TooDeep (Datum.get? "log_dir" fields)) := by
  have hlevel := fun f => readField_error_iff (f := f) "level" .info fields
    fun _ => readVerbosity_error_iff
  have hdirectory := fun f => readField_error_iff (f := f) "log_dir" none fields
    fun _ => readLogDirectory_error_iff
  rw [and_or_left, ← hlevel, ← hdirectory, readLog]
  rcases hl : readField "level" Verbosity.info readVerbosity fields with g | v
  · obtain rfl := ((hlevel g).mp hl).1
    rcases hd : readField "log_dir" none readLogDirectory fields with g | o
    · obtain rfl := ((hdirectory g).mp hd).1
      simp [bind, Except.bind]
    · simp [bind, Except.bind]
  · rcases readField "log_dir" none readLogDirectory fields with g | o <;>
      simp [bind, Except.bind, pure, Except.pure]

theorem logIn_error_iff {fields : List (Text × Datum)} :
    logIn fields = .error f ↔ f = .unshowable .tooDeep ∧ DeepLog (.table fields) := by
  simp only [logIn, DeepLog, said?, valueUnder?]
  rcases Datum.get? "logging" fields with - | d
  · simp [TooDeep]
  · cases d with
    | table entries => exact readLog_error_iff
    | _ => exact iff_of_false (fun h => by cases h) (by simp [TooDeep, valueUnder?])

/-- The failures, none of a value, to read settings from a document. The part about the labels is read
first. -/
inductive Stray (w : World) : Datum → Failure → Prop
  | homeless {d : Datum} (lost : Homeless w (askedIn? d)) : Stray w d .homeless
  | deepDirectory {d : Datum} (deep : TooDeep (said? "store" "data_dir" d)) :
      Stray w d (.unshowable .tooDeep)
  | deepLog {fields : List (Text × Datum)} {r : Except (List Issue) StoreSettings}
      (read : ((storeIn fields).run w).1 = .ok r) (deep : DeepLog (.table fields)) :
      Stray w (.table fields) (.unshowable .tooDeep)

theorem strays_ofDatum (d : Datum) : Strays (fun w => Stray w d) (ofDatum d) := by
  cases d with
  | table fields =>
    have hlog : ∀ store, Strays (fun _ f => logIn fields = .error f)
        (Program.ofExcept (logIn fields) >>= fun log => pure (ofParts store log)) :=
      fun store => (strays_ofExcept _).before fun _ => ⟨_, rfl⟩
    refine ((strays_storeIn fields).bind hlog).congr fun w f => ⟨?_, fun h => ?_⟩
    · rintro ((⟨rfl, lost⟩ | ⟨rfl, deep⟩) | ⟨⟨r, read⟩, h⟩)
      · exact .homeless lost
      · exact .deepDirectory deep
      · obtain ⟨rfl, deep⟩ := logIn_error_iff.mp h
        exact .deepLog read deep
    · cases h with
      | homeless lost => exact .inl (.inl ⟨rfl, lost⟩)
      | deepDirectory deep => exact .inl (.inr ⟨rfl, deep⟩)
      | deepLog read deep => exact .inr ⟨⟨_, read⟩, logIn_error_iff.mpr ⟨rfl, deep⟩⟩
  | _ =>
    refine (strays_pure _).congr fun w f => iff_of_false id ?_
    rintro (⟨q, ⟨⟩, -⟩ | ⟨v, ⟨⟩, -⟩)

/-! ### Files -/

/-- The document in the content of a file. -/
def documentIn (p : Path) (content : Octets) : Except Failure Datum :=
  if isToml p then readToml content else readJson content

theorem documentIn_json {t : Text} (json : isToml p = false)
    (decoded : Encoding.decodeDocument content = .ok t) :
    documentIn p content = ((Json.parseDecoded t).mapError Failure.json).map .ofJson := by
  rw [documentIn, if_neg (by simp [json]), readJson, decoded]

theorem documentIn_toml {t : Text} (toml : isToml p = true) (decoded : Utf8.decode content = .ok t) :
    documentIn p content = (Toml.parse t).mapError Failure.toml := by
  rw [documentIn, if_pos toml, readToml, decoded]

/-- What makes the settings in a file end with a failure that is none of a value: a document that is
nested too deep for its reader, or one of which such a failure comes. -/
inductive Escape (w : World) (p : Path) (content : Octets) : Failure → Prop
  | deepJson {t : Text} {inObject : Bool} (json : isToml p = false)
      (decoded : Encoding.decodeDocument content = .ok t)
      (deep : Json.parseDecoded t = .error (.tooDeep inObject)) :
      Escape w p content (.json (.tooDeep inObject))
  | deepToml {t : Text} (toml : isToml p = true) (decoded : Utf8.decode content = .ok t)
      (deep : Toml.parse t = .error .tooDeep) : Escape w p content (.toml .tooDeep)
  | document {d : Datum} {f : Failure} (document : documentIn p content = .ok d) (stray : Stray w d f) :
      Escape w p content f

theorem Stray.not_value {d : Datum} (h : Stray w d f) : f.isValue = false := by
  cases h <;> rfl

theorem Escape.not_value (h : Escape w p content f) : f.isValue = false := by
  cases h with
  | deepJson | deepToml => rfl
  | document _ stray => exact stray.not_value

theorem Escape.not_system (h : Escape w p content f) : f.isSystem = false := by
  cases h with
  | deepJson | deepToml => rfl
  | document _ stray => cases stray <;> rfl

theorem documentIn_error (h : documentIn p content = .error f) :
    f.isValue = true ∨ Escape w p content f := by
  unfold documentIn at h
  split at h
  · next hp =>
    unfold readToml at h
    split at h
    · exact .inl (Except.error.inj h ▸ rfl)
    · next t ht =>
      rcases hparse : Toml.parse t with e | d
      · rw [hparse] at h
        obtain rfl := Except.error.inj h
        cases e with
        | tooDeep => exact .inr (.deepToml hp ht hparse)
        | _ => exact .inl rfl
      · rw [hparse] at h
        cases h
  · next hp =>
    unfold readJson at h
    split at h
    · exact .inl (Except.error.inj h ▸ rfl)
    · next t ht =>
      rcases hparse : Json.parseDecoded t with e | v
      · rw [hparse] at h
        obtain rfl := Except.error.inj h
        cases e with
        | tooDeep inObject => exact .inr (.deepJson (Bool.eq_false_iff.mpr hp) ht hparse)
        | _ => exact .inl rfl
      · rw [hparse] at h
        cases h

/-- The settings in a file that can be read are those of the document in it. -/
theorem run_load (readable : w.read p = .ok content) : (load p).run w =
    (((documentIn p content).bind fun d => ((ofDatum d).run w).1).bind fun
      | .ok s => .ok s
      | .error r => .error (.settings r), w) := by
  have hread : (Program.read p).run w = (.ok content, w) := by
    rw [run_read, readable]
    rfl
  rw [load, run_bind_ok hread]
  rw [run_bind, run_ofExcept, ← documentIn]
  rcases documentIn p content with f | d
  · rfl
  · show (ofDatum d >>= _).run w = ((((ofDatum d).run w).1).bind _, w)
    rw [run_bind, (asks_ofDatum d).run w]
    rcases ((ofDatum d).run w).1 with f | r | s <;> rfl

/-- What is no failure of a value comes through as it is. -/
theorem Escape.run_load (readable : w.read p = .ok content) (h : Escape w p content f) :
    (load p).run w = (.error f, w) := by
  have hdocument : ∀ {g}, documentIn p content = .error g → (load p).run w = (.error g, w) := by
    intro g hg
    rw [Settings.run_load readable, hg]
    rfl
  cases h with
  | deepJson json decoded deep =>
    exact hdocument (by rw [documentIn_json json decoded, deep]; rfl)
  | deepToml toml decoded deep =>
    exact hdocument (by rw [documentIn_toml toml decoded, deep]; rfl)
  | document document stray =>
    rw [Settings.run_load readable, document]
    have hstray := ((strays_ofDatum _).ends w f stray.not_value).mpr stray
    show ((((ofDatum _).run w).1).bind _, w) = _
    rw [hstray]
    rfl

/-- Every other failure to load settings from a file that can be read is one of a value. -/
theorem load_error (readable : w.read p = .ok content) (h : ((load p).run w).1 = .error f) :
    f.isValue = true ∨ Escape w p content f := by
  rw [run_load readable] at h
  rcases hdocument : documentIn p content with g | d
  · rw [hdocument] at h
    obtain rfl := Except.error.inj h
    exact documentIn_error hdocument
  · rw [hdocument] at h
    change (((ofDatum d).run w).1).bind _ = _ at h
    rcases hvalue : ((ofDatum d).run w).1 with g | r | s
    · rw [hvalue] at h
      obtain rfl := Except.error.inj h
      rcases hg : g.isValue with _ | _
      · exact .inr (.document hdocument (((strays_ofDatum d).ends w g hg).mp hvalue))
      · exact .inl rfl
    · rw [hvalue] at h
      exact .inl (Except.error.inj h ▸ rfl)
    · rw [hvalue] at h
      cases h

end Settings

end LabelBook
