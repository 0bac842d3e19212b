import LabelBook.Proofs.Files.Home
import LabelBook.Proofs.Files.Spelling
import LabelBook.Proofs.Settings.Level

/-!
Settings read again. Settings can be written out as a document, the directories by their texts and the
level by its name. Values are trimmed before they are taken as paths, and what is left out of a path then
can uncover blanks at the ends of its text, or a tilde; so the document says the same settings only under
a condition, which is given here as it is.

    w /  ↦  w␣  ↦  w        ./ ~  ↦  ␣~  ↦  the home directory        ./ /  ↦  ␣  ↦  the default one
-/

namespace LabelBook

namespace Settings

open Program

variable {w : World} {p : Path} {d : Datum} {s : Settings} {fields : List (Text × Datum)}

/-! ### Directories that are found -/

/-- What holds of a directory of the labels that is found: it has proper names, and if home directories are
told from the root on, it does not begin at home any more. -/
structure Found (w : World) (p : Path) : Prop where
  proper : p.Proper
  apart : w.RootedHomes → ¬ p.BeginsAtHome

theorem found_expandHome {q : Path} (proper : p.Proper) (h : ((expandHome p).run w).1 = .ok q) :
    Found w q := by
  refine ⟨proper_expandHome proper h, fun homes hq => ?_⟩
  by_cases begins : p.BeginsAtHome
  · exact rooted_expandHome homes begins h hq.here
  · rw [expandHome_of_not begins] at h
    exact begins (Except.ok.inj h ▸ hq)

theorem proper_labels : Path.ProperName ".walletlabels" := ⟨by decide, by decide, by decide⟩

theorem found_belowHome (h : ((belowHome [".walletlabels"]).run w).1 = .ok p) : Found w p := by
  have hbegins : (Path.ofText "~").BeginsAtHome := ⟨[], [], by decide⟩
  rw [belowHome, run_bind_pure] at h
  rcases hhome : ((expandHome (.ofText "~")).run w).1 with f | home
  · rw [hhome] at h
    cases h
  · rw [hhome] at h
    obtain rfl := Except.ok.inj h
    refine ⟨fun n hn => ?_, fun homes hp => rooted_expandHome homes hbegins hhome hp.here⟩
    rcases List.mem_append.mp hn with hn | hn
    · exact proper_expandHome (Path.ofText_proper _) hhome n hn
    · exact List.mem_singleton.mp hn ▸ proper_labels

theorem found_defaultDirectory (h : (defaultDirectory.run w).1 = .ok p) : Found w p := by
  have hask : (environment? directoryVariable).run w =
      (.ok (w.environment.lookup directoryVariable), w) := rfl
  rw [defaultDirectory, run_bind_ok hask] at h
  split at h
  · exact found_expandHome (Path.ofText_proper _) h
  · exact found_belowHome h

theorem found_directoryNamed {t : Text} (h : ((directoryNamed t).run w).1 = .ok p) : Found w p := by
  unfold directoryNamed at h
  dsimp only at h
  split at h
  · exact found_defaultDirectory h
  · exact found_expandHome (Path.ofText_proper _) h

theorem found_directoryOf (h : ((directoryOf d).run w).1 = .ok p) : Found w p := by
  obtain rfl | ⟨t, -, hof⟩ | ⟨why, -, hof⟩ := directoryOf_cases d
  · exact found_defaultDirectory h
  · exact found_directoryNamed (hof ▸ h)
  · rw [hof] at h
    cases h

theorem found_of_askedOf {q : Program Path} (asked : askedOf? d = some q) (h : (q.run w).1 = .ok p) :
    Found w p := by
  unfold askedOf? at asked
  split at asked
  · split at asked
    · exact found_defaultDirectory (Option.some.inj asked ▸ h)
    · exact found_directoryOf (Option.some.inj asked ▸ h)
  · cases asked

theorem found_of_asked {q : Program Path} (asked : askedIn? d = some q) (h : (q.run w).1 = .ok p) :
    Found w p := by
  unfold askedIn? at asked
  split at asked
  · split at asked
    · exact found_defaultDirectory (Option.some.inj asked ▸ h)
    · exact found_of_askedOf asked h
  · cases asked

theorem readLogDirectory_proper {o : Option Path} (h : readLogDirectory d = .ok (.ok o)) :
    ∀ p ∈ o, p.Proper := by
  by_cases hnull : d = .null
  · subst hnull
    obtain rfl := Except.ok.inj (Except.ok.inj h)
    simp
  · rw [readLogDirectory_of_ne hnull, judged_eq_ok_iff] at h
    rcases hshown : shown d with f | t <;> rw [hshown] at h
    · cases h
    · obtain rfl := Except.ok.inj h
      unfold logDirectoryNamed
      dsimp only
      split
      · simp
      · rintro p ⟨⟩
        exact Path.ofText_proper _

theorem logIn_proper {l : LogSettings} (h : logIn fields = .ok (.ok l)) : ∀ p ∈ l.directory, p.Proper := by
  have hnone : ∀ p ∈ (none : Option Path), p.Proper := by simp
  unfold logIn at h
  split at h
  · exact Except.ok.inj (Except.ok.inj h) ▸ hnone
  · next d _ =>
    cases d with
    | table entries =>
      rcases readField_eq_ok_iff.mp (readLog_eq_ok_iff.mp h).2 with ⟨-, habsent⟩ | ⟨d, -, hread⟩
      · exact habsent ▸ hnone
      · exact readLogDirectory_proper hread
    | _ => cases h

/-! ### The document of settings -/

/-- The value that says the directory of the log files. -/
def said : Option Path → Datum
  | none => .null
  | some p => .string p.text

/-- The document that says settings for the log: the level by its name, the directory by its text. -/
def logDocument (l : LogSettings) : Datum :=
  .table [("level", .string l.verbosity.name), ("log_dir", said l.directory)]

/-- The document that says settings. -/
def document (s : Settings) : Datum :=
  .table [("store", .table [("data_dir", .string s.store.dataDirectory.text)]),
    ("logging", logDocument s.log)]

theorem readVerbosity_name (v : Verbosity) : readVerbosity (.string v.name) = .ok (.ok v) :=
  readVerbosity_string.mpr (by cases v <;> decide +kernel)

theorem readLog_logDocument {l l' : LogSettings} : readLog (logDocument l) = .ok (.ok l') ↔
    l'.verbosity = l.verbosity ∧ readLogDirectory (said l.directory) = .ok (.ok l'.directory) := by
  rw [logDocument, readLog_eq_ok_iff, readField_eq_ok_iff, readField_eq_ok_iff, get?_cons_self,
    get?_cons_ne (by decide), get?_cons_self]
  simp [readVerbosity_name, eq_comm]

theorem askedIn?_document :
    askedIn? s.document = some (directoryNamed s.store.dataDirectory.text) := by
  rw [document, askedIn?, get?_cons_self]
  dsimp only
  rw [askedOf?, get?_cons_self]
  rfl

/-- The settings that are read again keep the level, and have the directories that the texts of the old
ones name. -/
theorem ofDatum_document {s' : Settings} : ((ofDatum s.document).run w).1 = .ok (.ok s') ↔
    s'.log.verbosity = s.log.verbosity ∧
      readLogDirectory (said s.log.directory) = .ok (.ok s'.log.directory) ∧
      ((directoryNamed s.store.dataDirectory.text).run w).1 = .ok s'.store.dataDirectory := by
  have hlog : logIn [("store", .table [("data_dir", .string s.store.dataDirectory.text)]),
      ("logging", logDocument s.log)] = .ok (.ok s'.log) ↔ _ := readLog_logDocument
  rw [ofDatum_eq_ok_iff, askedIn?_document]
  simp only [document, Datum.table.injEq, exists_eq_left', hlog, Option.some.injEq, and_assoc]

/-- The ways in which a directory of the labels is found by its own text: the text spells it, unless it
begins at home; or the text is blank, and it is the default one; or what is left of the text begins at
home, and leads back. -/
inductive Returns (w : World) (p : Path) : Prop
  | spelled (trimmed : p.text.trim = p.text) (apart : ¬ p.BeginsAtHome)
  | default (blank : p.text.trim = []) (found : (defaultDirectory.run w).1 = .ok p)
  | home (begins : (Path.ofText p.text.trim).BeginsAtHome)
      (found : ((expandHome (.ofText p.text.trim)).run w).1 = .ok p)

theorem ofText_trim_iff (proper : p.Proper) (h : p.text.trim ≠ []) :
    Path.ofText p.text.trim = p ↔ p.text.trim = p.text :=
  Path.ofText_part_iff proper (Text.trim_sublist _) h

theorem directoryNamed_text_iff (proper : p.Proper) :
    ((directoryNamed p.text).run w).1 = .ok p ↔ Returns w p := by
  unfold directoryNamed
  dsimp only
  -- a text that is not blank is spelled out, unless what is left of it begins at home
  split
  · next hempty =>
    have hblank := List.isEmpty_iff.mp hempty
    refine ⟨.default hblank, fun h => ?_⟩
    cases h with
    | spelled trimmed apart => exact absurd (trimmed.symm.trans hblank) p.text_ne_nil
    | default blank found => exact found
    | home begins found =>
      rw [hblank] at begins
      obtain ⟨account, rest, h⟩ := begins
      cases h
  · next hempty =>
    have hleft : p.text.trim ≠ [] := by simpa using hempty
    by_cases begins : (Path.ofText p.text.trim).BeginsAtHome
    · refine ⟨.home begins, fun h => ?_⟩
      cases h with
      | spelled trimmed apart => exact absurd ((ofText_trim_iff proper hleft).mpr trimmed ▸ begins) apart
      | default blank found => exact absurd blank hleft
      | home _ found => exact found
    · rw [expandHome_of_not begins, run_done, Except.ok.injEq]
      refine ⟨fun h => .spelled ((ofText_trim_iff proper hleft).mp h) (h ▸ begins), fun h => ?_⟩
      cases h with
      | spelled trimmed apart => exact (ofText_trim_iff proper hleft).mpr trimmed
      | default blank found => exact absurd blank hleft
      | home h found => exact absurd h begins

/-- If home directories are told from the root on, what begins at home leads to the root, and the text of
that does not begin at home when it is trimmed; so the third way is none. -/
theorem returns_iff (homes : w.RootedHomes) (found : Found w p) :
    Returns w p ↔ p.text.trim = p.text ∨ p.text.trim = [] ∧ (defaultDirectory.run w).1 = .ok p := by
  constructor
  · intro h
    cases h with
    | spelled trimmed apart => exact .inl trimmed
    | default blank found => exact .inr ⟨blank, found⟩
    | home begins found =>
      have hrooted := rooted_expandHome homes begins found
      exact absurd begins.here (Path.anchorOf_trim_text hrooted)
  · rintro (trimmed | ⟨blank, hdefault⟩)
    · exact .spelled trimmed (found.apart homes)
    · exact .default blank hdefault

theorem readLogDirectory_said_iff {o : Option Path} (proper : ∀ p ∈ o, p.Proper) :
    readLogDirectory (said o) = .ok (.ok o) ↔ ∀ p ∈ o, p.text.trim = p.text := by
  cases o with
  | none => simp [said, readLogDirectory]
  | some p =>
    have hread : readLogDirectory (said (some p)) =
        .ok (.ok (if p.text.trim.isEmpty then none else some (.ofText p.text.trim))) := rfl
    simp only [Option.mem_some_iff, forall_eq'] at proper ⊢
    rw [hread, Except.ok.injEq, Except.ok.injEq]
    split
    · next hempty =>
      have hblank := List.isEmpty_iff.mp hempty
      exact iff_of_false (by simp) fun h => p.text_ne_nil (h.symm.trans hblank)
    · next hempty => rw [Option.some.injEq, ofText_trim_iff proper (by simpa using hempty)]

/-- Accepted settings are read again from the document that says them exactly if the directory of the
labels is found by its own text and the text of the directory of the log files has no blanks at its ends.
The level stays in any case. If home directories are told from the root on, the text of the directory of
the labels must have no blanks at its ends either, unless it is blank and the directory is the default. -/
theorem reread_iff (accepted : ((ofDatum d).run w).1 = .ok (.ok s)) :
    (((ofDatum s.document).run w).1 = .ok (.ok s) ↔
      Returns w s.store.dataDirectory ∧ ∀ p ∈ s.log.directory, p.text.trim = p.text) ∧
    (∀ s', ((ofDatum s.document).run w).1 = .ok (.ok s') → s'.log.verbosity = s.log.verbosity) ∧
    (w.RootedHomes → (Returns w s.store.dataDirectory ↔
      s.store.dataDirectory.text.trim = s.store.dataDirectory.text ∨
        s.store.dataDirectory.text.trim = [] ∧
          (defaultDirectory.run w).1 = .ok s.store.dataDirectory)) := by
  obtain ⟨fields, rfl, hlog, q, asked, hq⟩ := ofDatum_eq_ok_iff.mp accepted
  have hfound := found_of_asked asked hq
  refine ⟨?_, fun s' h => (ofDatum_document.mp h).1, fun homes => returns_iff homes hfound⟩
  rw [ofDatum_document, directoryNamed_text_iff hfound.proper,
    readLogDirectory_said_iff (logIn_proper hlog)]
  simp only [true_and, and_comm]

/-- The text "w /" gives the directory "w ", and the text of that gives "w". -/
theorem reread_spaced :
    ((ofDatum (.table [("store", .table [("data_dir", .string "w /")])])).run homeWorld).1 =
        .ok (.ok ⟨⟨⟨.here, ["w "]⟩⟩, ⟨.info, none⟩⟩) ∧
      homeWorld.RootedHomes ∧ ¬ Returns homeWorld ⟨.here, ["w "]⟩ ∧
      ((ofDatum (document ⟨⟨⟨.here, ["w "]⟩⟩, ⟨.info, none⟩⟩)).run homeWorld).1 =
        .ok (.ok ⟨⟨⟨.here, ["w"]⟩⟩, ⟨.info, none⟩⟩) := by
  have haccepted : ((ofDatum (.table [("store", .table [("data_dir", .string "w /")])])).run homeWorld).1 =
      .ok (.ok ⟨⟨⟨.here, ["w "]⟩⟩, ⟨.info, none⟩⟩) := by cbv
  have hhomes : homeWorld.RootedHomes :=
    ⟨⟨"/h", by decide, by decide⟩, fun name t h => absurd h (by simp [homeWorld])⟩
  obtain ⟨-, -, hreturns⟩ := reread_iff haccepted
  refine ⟨haccepted, hhomes, ?_, by cbv⟩
  rw [hreturns hhomes]
  rintro (htrimmed | ⟨hblank, -⟩)
  · exact absurd htrimmed (by decide +kernel)
  · exact absurd hblank (by decide +kernel)

end Settings

end LabelBook
