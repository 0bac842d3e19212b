import LabelBook.Proofs.CommandLine.Explicit

/-!
Command lines that name a file of settings. Once there is a directory for the case that the settings name
none, the file is loaded before anything else is done. So a command line is carried out with the settings
in the file, or the file is complained about and nothing is done; a failure that is none of a value, as
loading lets them through, ends the program instead.
-/

namespace LabelBook.CommandLine

open Program

variable {w : World} {i : Invocation} {file : Text} {content : Octets} {f : Failure}

/-- The complaint about a file of settings. -/
def cannotLoad (file : Text) (f : Failure) : Text :=
  complaint mainUsage programName (Text.concat ["cannot load settings ", file, ": ", f.message])

theorem run_settingsIn_ok {s : Settings} (h : (Settings.load (.ofText file)).run w = (.ok s, w)) :
    (settingsIn file).run w = (.ok (.ok s), w) := by
  rw [settingsIn, run_outcome_bind, h]
  rfl

theorem run_settingsIn_value (h : (Settings.load (.ofText file)).run w = (.error f, w))
    (value : f.isValue = true) : (settingsIn file).run w = (.ok (.error (cannotLoad file f)), w) := by
  rw [settingsIn, run_outcome_bind, h]
  dsimp only
  rw [if_pos (by simp [value])]
  rfl

theorem run_settingsIn_escape (readable : w.read (.ofText file) = .ok content)
    (h : Settings.Escape w (.ofText file) content f) : (settingsIn file).run w = (.error f, w) := by
  have hsystem : f.isSystem = false := h.not_system
  rw [settingsIn, run_outcome_bind, h.run_load readable]
  dsimp only
  rw [if_neg (by simp [h.not_value, hsystem])]
  rfl

/-- What a command line that names a file of settings is meant to come to: it is carried out with the
settings in the file, or it ends with a status of 2, the file is complained about, and nothing else is
done. -/
inductive Configured (w : World) (i : Invocation) (file : Text) : Except Failure Nat × World → Prop
  | carriedOut {s : Settings} (loaded : (Settings.load (.ofText file)).run w = (.ok s, w)) :
      Configured w i file ((i.runWith s).run w)
  | refused {f : Failure} (failed : (Settings.load (.ofText file)).run w = (.error f, w))
      (value : f.isValue = true) :
      Configured w i file (.ok 2, { w with warned := cannotLoad file f :: w.warned })

section

variable {d : Path} (usual : (Settings.defaultDirectory.run w).1 = .ok d)
  (names : i.settings = some file) (given : file ≠ [])
include usual names given

/-- With a directory for the case that none is named, an invocation turns to its file of settings. -/
theorem Invocation.run_settingsIn : i.run.run w = (settingsIn file >>= fun
    | .ok s => i.runWith s
    | .error complaint => do
      Program.warn complaint
      return 2).run w := by
  obtain ⟨c, t, rfl⟩ := List.exists_cons_of_ne_nil given
  have hdirectory : Settings.defaultDirectory.run w = (.ok d, w) :=
    Prod.ext usual (Settings.asks_defaultDirectory w)
  have hdefault : Settings.default.run w = (.ok ⟨⟨d⟩, Settings.defaultLog⟩, w) := by
    rw [Settings.default, Settings.defaultStore, run_bind_ok (run_bind_ok hdirectory _)]
    rfl
  obtain ⟨settings, directory, command⟩ := i
  obtain rfl : settings = some (c :: t) := names
  exact run_bind_ok hdefault _

theorem Invocation.run_escape (readable : w.read (.ofText file) = .ok content)
    (h : Settings.Escape w (.ofText file) content f) : i.run.run w = (.error f, w) := by
  rw [run_settingsIn usual names given, run_bind_error (run_settingsIn_escape readable h)]

theorem Invocation.run_configured_or_escape (readable : w.read (.ofText file) = .ok content) :
    Configured w i file (i.run.run w) ∨ ∃ f, Settings.Escape w (.ofText file) content f := by
  rw [run_settingsIn usual names given]
  have hload := (Settings.asks_load (.ofText file)).run w
  rcases hresult : ((Settings.load (.ofText file)).run w).1 with f | s
  · rw [hresult] at hload
    rcases Settings.load_error readable hresult with value | escape
    · rw [run_bind_ok (run_settingsIn_value hload value)]
      exact .inl (.refused hload value)
    · exact .inr ⟨f, escape⟩
  · rw [hresult] at hload
    rw [run_bind_ok (run_settingsIn_ok hload)]
    exact .inl (.carriedOut hload)

end

/-- A file of settings that can be read gives settings or a failure of a value, and a command line that names
it is carried out with them or ends with a status of 2, a complaint and nothing else done, exactly if the
document in it is not too deep for its reader, asks for no directory of the labels that cannot be found, and
has no value nested too deep where one is shown. Such a failure ends the command line, and nothing has been
done; so does, before the file is looked at, the want of a directory for the case that none is named. -/
theorem settings_load_or_complain (readable : w.read (.ofText file) = .ok content) :
    (∃ r, (Settings.load (.ofText file)).run w = (r, w) ∧
      ((∀ f, r = .error f → f.isValue = true) ↔
        ¬ ∃ f, Settings.Escape w (.ofText file) content f) ∧
      ∀ f, Settings.Escape w (.ofText file) content f → r = .error f) ∧
    ∀ args i, demand args = .run i → i.settings = some file → file ≠ [] →
      (∀ d, (Settings.defaultDirectory.run w).1 = .ok d →
        (Configured w i file ((run args).run w) ↔
          ¬ ∃ f, Settings.Escape w (.ofText file) content f) ∧
        ∀ f, Settings.Escape w (.ofText file) content f → (run args).run w = (.error f, w)) ∧
      ∀ f, (Settings.defaultDirectory.run w).1 = .error f → (run args).run w = (.error f, w) := by
  refine ⟨⟨_, (Settings.asks_load _).run w, ⟨?_, fun none f hf => ?_⟩, fun f escape => ?_⟩, ?_⟩
  · rintro values ⟨f, escape⟩
    have hvalue := values f (by rw [escape.run_load readable])
    cases hvalue.symm.trans escape.not_value
  · exact (Settings.load_error readable hf).resolve_right fun escape => none ⟨f, escape⟩
  · rw [escape.run_load readable]
  · intro args i hdemand names given
    have hrun : run args = i.run := by rw [run, hdemand]
    rw [hrun]
    refine ⟨fun d usual => ⟨⟨?_, ?_⟩, fun f => Invocation.run_escape usual names given readable⟩,
      fun f lost => Invocation.run_homeless lost⟩
    · rintro configured ⟨f, escape⟩
      have hload := escape.run_load readable
      generalize i.run.run w = outcome at configured
      cases configured with
      | carriedOut loaded => cases loaded.symm.trans hload
      | refused failed value =>
        obtain rfl := Except.error.inj (Prod.mk.inj (failed.symm.trans hload)).1
        cases value.symm.trans escape.not_value
    · exact (Invocation.run_configured_or_escape usual names given readable).resolve_right

/-- A world with a file of settings. -/
def settingsWorld (name : Text) (document : List Char) : World :=
  ⟨⟨[([name], .file 0 (.ofOctets (document.flatMap Utf8.ofChar)))], [], 1⟩, [], [("HOME", "/h")],
    [], none, 0, [], [], .initial⟩

theorem settingsWorld_read {name : Text} (isName : Tree.IsName name)
    (short : Tree.nameLength name ≤ Tree.maxNameLength)
    (handed : Path.handedOver ⟨.here, [name]⟩ = .ok (Path.text ⟨.here, [name]⟩)) (document : List Char) :
    (settingsWorld name document).read ⟨.here, [name]⟩ = .ok (document.flatMap Utf8.ofChar) := by
  have spot : (settingsWorld name document).Spot ⟨.here, [name]⟩ (Tree.maxLinks, []) name :=
    World.spot_here isName short handed
  have hget : (settingsWorld name document).tree.get? [name] =
      some (.file 0 (.ofOctets (document.flatMap Utf8.ofChar))) := by
    simp [settingsWorld, Tree.get?]
  have hlocate := spot.locate_of_no_link (fun target => by rw [List.nil_append, hget]; simp) .target
  rw [World.read_of_locate hlocate, Tree.read, List.nil_append, hget]
  exact congrArg Except.ok (Content.octets_ofOctets _)

theorem settingsWorld_read_json (document : List Char) :
    (settingsWorld "s" document).read (.ofText "s") = .ok (document.flatMap Utf8.ofChar) :=
  settingsWorld_read ⟨by decide, by decide, by decide⟩ (by decide) (by decide +kernel) document

theorem settingsWorld_read_toml (document : List Char) :
    (settingsWorld "s.toml" document).read (.ofText "s.toml") =
      .ok (document.flatMap Utf8.ofChar) :=
  settingsWorld_read ⟨by decide, by decide, by decide⟩ (by decide) (by decide +kernel) document

theorem settingsWorld_usual (name : Text) (document : List Char) :
    (Settings.defaultDirectory.run (settingsWorld name document)).1 = .ok (.ofText "/h/.walletlabels") := by
  cbv

/-- A document that asks for a directory in the home directory of an account. -/
def strangersDirectory : List Char := "\x7b\"store\": \x7b\"data_dir\": \"~nobody/x\"\x7d\x7d".toList

/-- A document that gives tables within tables for the directory, by the parts of one key. -/
def tablesForDirectory : List Char :=
  "[store]\ndata_dir".toList ++ (List.replicate Datum.maxDepth ['.', 'a']).flatten ++ " = 1".toList

set_option maxRecDepth 20000 in
theorem tablesForDirectory_tooDeep : ∃ d, Toml.parse (.ofChars tablesForDirectory) = .ok d ∧
    Settings.TooDeep (Settings.said? "store" "data_dir" d) := by
  have hdeep : ((Toml.parse (.ofChars tablesForDirectory)).toOption.bind
      (Settings.said? "store" "data_dir")).any (fun v => v.text = .error .tooDeep) = true := by
    decide +kernel
  rcases hparse : Toml.parse (.ofChars tablesForDirectory) with e | d
  · rw [hparse] at hdeep
    cases hdeep
  · rw [hparse] at hdeep
    obtain ⟨v, hv, htext⟩ := (Option.any_eq_true _ _).mp hdeep
    exact ⟨d, rfl, v, hv, of_decide_eq_true htext⟩

theorem strangersDirectory_escape : Settings.Escape (settingsWorld "s" strangersDirectory) (.ofText "s")
    (strangersDirectory.flatMap Utf8.ofChar) .homeless := by
  have hdocument : Settings.documentIn (.ofText "s") (strangersDirectory.flatMap Utf8.ofChar) =
      .ok (.table [("store", .table [("data_dir", .string "~nobody/x")])]) := by
    rw [Settings.documentIn_json (t := .ofChars strangersDirectory) (by cbv) (by decide +kernel)]
    cbv
  exact .document hdocument (.homeless ⟨_, rfl, by cbv⟩)

theorem tablesForDirectory_escape :
    Settings.Escape (settingsWorld "s.toml" tablesForDirectory) (.ofText "s.toml")
      (tablesForDirectory.flatMap Utf8.ofChar) (.unshowable .tooDeep) := by
  obtain ⟨d, hparse, deep⟩ := tablesForDirectory_tooDeep
  refine .document (d := d) ?_ (.deepDirectory deep)
  rw [Settings.documentIn_toml (by cbv) (Utf8.decodeFrom_flatMap _ 0 []), List.reverse_nil,
    List.nil_append, hparse]
  rfl

/-- What is no document lets nothing through. -/
theorem no_escape_of_no_document :
    ¬ ∃ f, Settings.Escape (settingsWorld "s" ['?']) (.ofText "s") (['?'].flatMap Utf8.ofChar) f := by
  have hnone : Settings.documentIn (.ofText "s") (['?'].flatMap Utf8.ofChar) =
      .error (.json (.malformed .value 0 1 1)) := by
    rw [Settings.documentIn_json (t := .ofChars ['?']) (by cbv) (by decide +kernel)]
    cbv
  rintro ⟨f, escape⟩
  have hload := escape.run_load (settingsWorld_read_json ['?'])
  rw [Settings.run_load (settingsWorld_read_json ['?']), hnone] at hload
  cases Except.error.inj (Prod.mk.inj hload).1
  cases escape.not_value

/-- A command line that lists the labels, with a file of settings. -/
def listWithSettings (file : Text) : List Text := ["--settings", file, "list"]

/-- A home directory that is not there lets its failure through, and so do tables that are nested too deep
to be shown; a document that is none gives a status of 2. -/
theorem settings_load_or_complain_homeless :
    (Settings.load (.ofText "s")).run (settingsWorld "s" strangersDirectory) =
        (.error .homeless, settingsWorld "s" strangersDirectory) ∧
    (run (listWithSettings "s")).run (settingsWorld "s" strangersDirectory) =
        (.error .homeless, settingsWorld "s" strangersDirectory) ∧
    (Settings.load (.ofText "s.toml")).run (settingsWorld "s.toml" tablesForDirectory) =
        (.error (.unshowable .tooDeep), settingsWorld "s.toml" tablesForDirectory) ∧
    (run (listWithSettings "s.toml")).run (settingsWorld "s.toml" tablesForDirectory) =
        (.error (.unshowable .tooDeep), settingsWorld "s.toml" tablesForDirectory) ∧
    Configured (settingsWorld "s" ['?']) ⟨some "s", none, .list none⟩ "s"
      ((run (listWithSettings "s")).run (settingsWorld "s" ['?'])) := by
  have hdemand : demand (listWithSettings "s") = .run ⟨some "s", none, .list none⟩ := by cbv
  have hdemand' : demand (listWithSettings "s.toml") = .run ⟨some "s.toml", none, .list none⟩ := by cbv
  obtain ⟨⟨r, hstranger, -, escapes⟩, hmain⟩ :=
    settings_load_or_complain (settingsWorld_read_json strangersDirectory)
  obtain ⟨⟨r', htables, -, escapes'⟩, hmain'⟩ :=
    settings_load_or_complain (settingsWorld_read_toml tablesForDirectory)
  obtain ⟨-, hmain''⟩ := settings_load_or_complain (settingsWorld_read_json ['?'])
  refine ⟨?_, ?_, ?_, ?_, ?_⟩
  · rw [hstranger, escapes _ strangersDirectory_escape]
  · exact ((hmain _ _ hdemand rfl (by decide)).1 _ (settingsWorld_usual _ _)).2 _
      strangersDirectory_escape
  · rw [htables, escapes' _ tablesForDirectory_escape]
  · exact ((hmain' _ _ hdemand' rfl (by decide)).1 _ (settingsWorld_usual _ _)).2 _
      tablesForDirectory_escape
  · exact ((hmain'' _ _ hdemand rfl (by decide)).1 _ (settingsWorld_usual _ _)).1.mpr
      no_escape_of_no_document

end LabelBook.CommandLine
