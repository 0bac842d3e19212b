import LabelBook.Proofs.CommandLine.Failing

/-!
Command lines that end with another status than that of success. Before a command is carried out its
settings are looked for and the log is set up; afterwards a failure is logged. None of this touches the
file of the labels, unless the directory of the log has to be made in its place.
-/

namespace LabelBook

open Log (At GoesTo Keeps Fresh Room)
open Program Store

variable {L m : Location} {w v : World} {directory : Path} {settings : Settings}

/-- A place at which a directory is made for the log, the directory of the log or one above it. -/
def Log.TakesPlace (asked : Option Path) (w : World) (m : Location) : Prop :=
  w.tree.get? m = none ∧ ((Log.directory asked).run w).2.tree.get? m = some .directory

/-- Setting up the log as settings say. -/
def Settings.setUp (settings : Settings) : Program Unit :=
  Log.setUp settings.log.verbosity.level settings.log.directory

/-- The world in which a command is carried out: the log has been set up. -/
def Settings.prepared (settings : Settings) (w : World) : World := (settings.setUp.run w).2

namespace CommandLine

variable {i : Invocation} {r : Except Failure Nat}

/-! ### Settings -/

/-- The settings that an invocation goes by. -/
inductive Invocation.Finds (i : Invocation) (w : World) : Settings → Prop
  | named {usual settings : Settings} {c : CodePoint} {t : Text} (file : i.settings = some (c :: t))
    (default : Settings.default.run w = (.ok usual, w))
    (load : (Settings.load (.ofText (c :: t))).run w = (.ok settings, w)) : Finds i w settings
  | usual {settings : Settings} (file : ∀ c t, i.settings ≠ some (c :: t))
    (default : Settings.default.run w = (.ok settings, w)) : Finds i w settings

theorem Invocation.Finds.run (finds : i.Finds w settings) :
    i.run.run w = (i.runWith settings).run w := by
  unfold Invocation.run
  cases finds with
  | named file default load =>
    rw [run_bind_ok default, file]
    have hsettings : ∀ t, (Settings.load (.ofText t)).run w = (.ok settings, w) →
        (settingsIn t).run w = (.ok (.ok settings), w) := by
      intro t load
      rw [settingsIn, run_outcome_bind, load]
      rfl
    exact run_bind_ok (hsettings _ load) _
  | usual file default =>
    rw [run_bind_ok default]
    split
    · next c t heq => exact absurd heq (file c t)
    · rfl

theorem run_settingsIn_error {t : Text} {f : Failure}
    (hload : (Settings.load (.ofText t)).run w = (.error f, w)) :
    ∃ x, (settingsIn t).run w = (x, w) ∧ ∀ s, x ≠ .ok (.ok s) := by
  rw [settingsIn, run_outcome_bind, hload]
  dsimp only
  split
  · exact ⟨_, rfl, fun _ h => by cases h⟩
  · exact ⟨_, rfl, fun _ h => by cases h⟩

/-- An invocation that finds no settings touches nothing. -/
theorem Invocation.run_lost (lost : ∀ settings, ¬ i.Finds w settings) (hrun : i.run.run w = (r, v)) :
    v.tree = w.tree := by
  unfold Invocation.run at hrun
  have hdefault := Settings.asks_default.run w
  rcases husual : (Settings.default.run w).1 with f | usual
  · rw [husual] at hdefault
    rw [run_bind_error hdefault] at hrun
    rw [← (Prod.mk.inj hrun).2]
  rw [husual] at hdefault
  rw [run_bind_ok hdefault] at hrun
  split at hrun
  · next c t file =>
    have hload := (Settings.asks_load (.ofText (c :: t))).run w
    rcases hsettings : ((Settings.load (.ofText (c :: t))).run w).1 with f | settings
    · rw [hsettings] at hload
      obtain ⟨x, hx, hnone⟩ := run_settingsIn_error hload
      rcases x with g | ⟨complaint | settings⟩
      · rw [run_bind_error hx] at hrun
        rw [← (Prod.mk.inj hrun).2]
      · rw [run_bind_ok hx] at hrun
        rw [← (Prod.mk.inj hrun).2]
      · exact absurd rfl (hnone settings)
    · rw [hsettings] at hload
      exact absurd (.named file hdefault hload) (lost settings)
  · next file => exact absurd (.usual (fun c t h => file c t h) hdefault) (lost usual)

/-! ### Reporting -/

/-- A report of something else than success is about a command that did not end well, and adds to the
log at most. -/
theorem run_report {q : Program (Option Nat)} (hrun : (report q).run w = (r, v)) (hr : r ≠ .ok 0) :
    ∃ r' u, q.run w = (r', u) ∧ Unsuccessful r' ∧ ∀ L, GoesTo L u → Keeps L (At L) u v := by
  unfold report at hrun
  rw [run_outcome_bind] at hrun
  rcases hq : q.run w with ⟨f | status, u⟩
  · refine ⟨_, u, rfl, by rintro _ ⟨⟩, ?_⟩
    intro L goes
    have hlog : ∀ t, (do Program.log .error t; return 1 : Program Nat).run u = (r, v) →
        Keeps L (At L) u v := by
      intro t ht
      have hlead := (goes.leads_log (fun _ => id) .error t).bind (T := fun _ _ => True)
        fun _ _ _ _ => (.pure trivial : (pure 1 : Program Nat).Leads _ _ _)
      have hstep := hlead.step
      rwa [ht] at hstep
    rw [hq] at hrun
    dsimp only at hrun
    split at hrun
    · exact hlog _ hrun
    · split at hrun
      · exact hlog _ hrun
      · exact (Prod.mk.inj hrun).2 ▸ refl_of _ u
  · rw [hq] at hrun
    obtain ⟨rfl, rfl⟩ := Prod.mk.inj hrun
    refine ⟨_, u, rfl, fun s hs h => hr ?_, fun _ _ => refl_of _ u⟩
    rw [Except.ok.inj hs, h]

/-! ### Running -/

/-- An invocation that writes labels over their own file though their text cannot be encoded. -/
def Invocation.Spoils (i : Invocation) (settings : Settings) (w : World) (p : Path) (m : Location) :
    Prop :=
  (settings.setUp.run w).1 = .ok () ∧ i.command.WritesTo (settings.prepared w) m ∧
    Unencodable (settings.prepared w) p

theorem homely_directoryFor (given : Option Text) (settings : Option Settings) :
    (directoryFor given settings).Homely := by
  unfold directoryFor
  split
  · exact homely_expandHome _
  · split
    · exact homely_done _
    · exact Settings.homely_defaultDirectory

/-- In the world in which a command is carried out the file of the labels is what it was, unless a
directory has been made for the log in its place. -/
theorem prepared_place (fresh : Fresh w) (room : Room settings.log.directory w) (k : Location) :
    ¬ Log.TakesPlace settings.log.directory w (k ++ [fileName]) ∧
        (settings.prepared w).tree.get? (k ++ [fileName]) = w.tree.get? (k ++ [fileName]) ∨
      Log.TakesPlace settings.log.directory w (k ++ [fileName]) ∧
        (settings.prepared w).tree.get? (k ++ [fileName]) = some .directory := by
  obtain ⟨L, grows, changes, -⟩ := fresh.run_setUp room settings.log.verbosity.level
  have hlog := changes.tree.same _ (fileName_apart k).1
  rcases grows.tree.kept (k ++ [fileName]) with heq | ⟨hnone, hmade⟩
  · refine .inl ⟨fun h => ?_, hlog.trans heq⟩
    rw [h.1, h.2] at heq
    cases heq
  · exact .inr ⟨⟨hnone, hmade⟩, hlog.trans hmade⟩

theorem prepared_locate (fresh : Fresh w) (room : Room settings.log.directory w) {p : Path}
    (h : w.locate .entry p = .ok m) : (settings.prepared w).locate .entry p = .ok m := by
  obtain ⟨L, grows, changes, -⟩ := fresh.run_setUp room settings.log.verbosity.level
  exact changes.locate_iff.mpr (grows.locate_ok h)

theorem prepared_link_iff (fresh : Fresh w) (room : Room settings.log.directory w) {target : Text} :
    (settings.prepared w).tree.get? m = some (.link target) ↔ w.tree.get? m = some (.link target) := by
  obtain ⟨L, grows, changes, -⟩ := fresh.run_setUp room settings.log.verbosity.level
  exact changes.tree.ways.link_iff.trans grows.tree.link_iff

/-- An invocation that does not end well has not got past setting up the log, or its command has not
ended well. -/
theorem runWith_cases (hrun : (i.runWith settings).run w = (r, v)) (hr : r ≠ .ok 0) :
    (settings.setUp.run w).1 ≠ .ok () ∧ v = settings.prepared w ∨
      (settings.setUp.run w).1 = .ok () ∧ ∃ r' u,
        (i.command.run (directoryFor i.directory (some settings))).run (settings.prepared w) = (r', u) ∧
        Unsuccessful r' ∧ ∀ L, GoesTo L u → Keeps L (At L) u v := by
  change (settings.setUp >>= fun _ => report _).run w = (r, v) at hrun
  unfold Settings.prepared
  rcases hsetUp : settings.setUp.run w with ⟨f | _, u⟩
  · rw [run_bind_error hsetUp] at hrun
    exact .inl ⟨by simp, (Prod.mk.inj hrun).2.symm⟩
  · rw [run_bind_ok hsetUp] at hrun
    exact .inr ⟨rfl, run_report hrun hr⟩

/-- What becomes of the file of the labels when an invocation that has found its settings does not end
well. -/
theorem runWith_unchanged_iff (fresh : Fresh w) (room : Room settings.log.directory w)
    (found : (directoryFor i.directory (some settings)).run w = (.ok directory, w))
    (unlinked : (settings.prepared w).Unlinked directory)
    (hrun : (i.runWith settings).run w = (r, v)) (hr : r ≠ .ok 0)
    (hm : w.locate .entry (directory.child fileName) = .ok m ∨
      v.locate .entry (directory.child fileName) = .ok m) :
    v.tree.get? m = w.tree.get? m ↔ ¬ Log.TakesPlace settings.log.directory w m ∧
      ¬ i.Spoils settings w (directory.child fileName) m := by
  have hm' : (settings.prepared w).locate .entry (directory.child fileName) = .ok m ∨
      v.locate .entry (directory.child fileName) = .ok m :=
    hm.imp_left (prepared_locate fresh room)
  rcases runWith_cases hrun hr with ⟨hfailed, rfl⟩ | ⟨hok, r', u, hcommand, hr', hreport⟩
  · rw [or_self] at hm'
    obtain ⟨k, -, rfl, -⟩ := unlinked.spot fileName_isName hm'
    rcases prepared_place fresh room k.2 with ⟨hfree, hsame⟩ | ⟨htaken, hmade⟩
    · exact iff_of_true hsame ⟨hfree, fun spoils => hfailed spoils.1⟩
    · rw [hmade, htaken.1]
      exact iff_of_false (by simp) fun h => h.1 htaken
  · obtain ⟨L, -, -, hgoes⟩ := fresh.run_setUp room settings.log.verbosity.level
    have site : Site L (directoryFor i.directory (some settings)) directory (settings.prepared w) :=
      ⟨hgoes hok, (homely_directoryFor _ _).after found (run_sameHomes _ w), unlinked⟩
    have keeps := site.run_unsuccessful hcommand hr'
    have keeps' := hreport L (keeps.goes site.goes)
    rw [keeps'.locate_iff, keeps.locate_iff, or_self] at hm'
    have hunchanged := site.unchanged_iff hm' hcommand hr'
    obtain ⟨k, -, rfl, -⟩ := unlinked.spot fileName_isName hm'
    rw [keeps'.tree.same _ (fileName_apart k.2).1]
    rcases prepared_place fresh room k.2 with ⟨hfree, hsame⟩ | ⟨htaken, hmade⟩
    · rw [← hsame, hunchanged, and_iff_right hfree, Invocation.Spoils, and_iff_right hok]
    · rw [htaken.1, keeps.tree.ways.directory_iff.mpr hmade]
      exact iff_of_false (by simp) fun h => h.1 htaken

/-- A command line that ends otherwise than with success leaves the file of the labels as it was, byte
for byte or absent, wherever the path to it leads before or afterwards. There are two exceptions: a
directory is made for the log where the file is absent, and labels that have no octets are exported over
their own file. Without a command to carry out or settings for it nothing is touched at all.

Two things are assumed of the world. There is room for the log: through a link under the name of one of
its files it would write to what the link leads to, which can be the labels, and a directory that it moves
on takes along what is in it. All other directories under those names are allowed; the log cannot be set up
there, or its files are not moved. And the world is orderly: a file with a second name could be emptied
under that name, by an export or by the log. -/
theorem run_unchanged_iff {args : List Text} (fresh : Fresh w) (hrun : (run args).run w = (r, v))
    (hr : r ≠ .ok 0) :
    ((∀ i settings, demand args = .run i → ¬ i.Finds w settings) → v.tree = w.tree) ∧
      ∀ i settings directory m, demand args = .run i → i.Finds w settings →
        Room settings.log.directory w →
        (directoryFor i.directory (some settings)).run w = (.ok directory, w) →
        (settings.prepared w).Unlinked directory →
        (w.locate .entry (directory.child fileName) = .ok m ∨
          v.locate .entry (directory.child fileName) = .ok m) →
        (v.tree.get? m = w.tree.get? m ↔ ¬ Log.TakesPlace settings.log.directory w m ∧
          ¬ i.Spoils settings w (directory.child fileName) m) := by
  unfold CommandLine.run at hrun
  constructor
  · intro lost
    split at hrun
    · next i hdemand => exact Invocation.run_lost (fun settings => lost i settings hdemand) hrun
    · exact (Prod.mk.inj hrun).2 ▸ rfl
    · exact (Prod.mk.inj hrun).2 ▸ rfl
  · intro i settings directory m hdemand finds room found unlinked hm
    rw [hdemand] at hrun
    exact runWith_unchanged_iff fresh room found unlinked (finds.run ▸ hrun) hr hm

/-- A world with a label file whose label is a surrogate on its own, and the log beside it. -/
def loggedWorld : World :=
  { loneWorld with environment := [("HOME", "/"), ("WALLETLABELS_LOG_DIR", "/")] }

/-- The settings that are found there. -/
def usualSettings : Settings := ⟨⟨⟨.root, [".walletlabels"]⟩⟩, Settings.defaultLog⟩

/-- A command line that exports labels over their own file. -/
def ownExport : List Text := ["--data-dir", ".", "export", "labels.jsonl"]

theorem loggedWorld_get? {l : Location} {e : Entry} (h : loggedWorld.tree.get? l = some e) :
    l = [] ∧ e = .directory ∨ l = [fileName] ∧ ∃ content, e = .file 0 content := by
  by_cases hl : l = []
  · subst hl
    exact .inl ⟨rfl, (Option.some.inj h).symm⟩
  · have hget := (fileWorld_get? _ hl).symm.trans h
    split at hget
    · next heq => exact .inr ⟨heq, _, (Option.some.inj hget).symm⟩
    · cases hget

theorem loggedWorld_fresh : Fresh loggedWorld := by
  refine ⟨⟨⟨(fileWorld_sound _).tree, fun l m number c c' hl hm => ?_, fun l number c hl => ?_⟩, rfl⟩,
    fun n hn => absurd hn List.not_mem_nil, rfl⟩
  · rcases loggedWorld_get? hl with ⟨-, h⟩ | ⟨rfl, -⟩
    · cases h
    · rcases loggedWorld_get? hm with ⟨-, h⟩ | ⟨rfl, -⟩
      · cases h
      · rfl
  · rcases loggedWorld_get? hl with ⟨-, h⟩ | ⟨-, content, h⟩
    · cases h
    · cases h
      decide

theorem loggedWorld_room : Room none loggedWorld := by
  have hdirectory : (Log.directory none).run loggedWorld = (.ok (.ofRoot []), loggedWorld) := by cbv
  rw [Log.room_iff hdirectory (World.locate_root loggedWorld)]
  refine .of_plain fun n hn => ?_
  rcases hget : loggedWorld.tree.get? ([] ++ [n]) with _ | e
  · exact .inl hget
  · rcases loggedWorld_get? hget with ⟨h, -⟩ | ⟨-, content, rfl⟩
    · cases h
    · exact .inr ⟨0, content, hget⟩

theorem loggedWorld_unlinked : (usualSettings.prepared loggedWorld).Unlinked ⟨.here, []⟩ := by
  intro d n target _ h
  rw [prepared_link_iff loggedWorld_fresh loggedWorld_room] at h
  rcases loggedWorld_get? h with ⟨-, h⟩ | ⟨-, content, h⟩ <;> cases h

set_option maxRecDepth 20000 in
theorem run_ownExport : ∃ v, (run ownExport).run loggedWorld = (.ok 1, v) ∧
    v.tree.get? [fileName] = some (.file 0 (.ofOctets [])) := by
  have heval : ((run ownExport).run loggedWorld).1 = .ok 1 ∧
      ((run ownExport).run loggedWorld).2.tree.get? [fileName] = some (.file 0 (.ofOctets [])) := by
    cbv
  exact ⟨_, Prod.ext heval.1 rfl, heval.2⟩

/-- The command line ends with a status of 1, and nothing is left in the file: it is the second of the
exceptions. -/
theorem run_unchanged_iff_ownExport : ∃ v, (run ownExport).run loggedWorld = (.ok 1, v) ∧
    v.tree.get? [fileName] = some (.file 0 (.ofOctets [])) ∧
    Invocation.Spoils ⟨none, some ".", .exportFile (some (.string "labels.jsonl"))⟩ usualSettings
      loggedWorld ⟨.here, [fileName]⟩ [fileName] := by
  obtain ⟨v, hrun, hemptied⟩ := run_ownExport
  have hdemand : demand ownExport =
      .run ⟨none, some ".", .exportFile (some (.string "labels.jsonl"))⟩ := by cbv
  have hsettings : Settings.default.run loggedWorld = (.ok usualSettings, loggedWorld) := by cbv
  have hdirectory : (directoryFor (some ".") (some usualSettings)).run loggedWorld =
      (.ok ⟨.here, []⟩, loggedWorld) := by cbv
  have spot : loggedWorld.Spot ⟨.here, [fileName]⟩ (Tree.maxLinks, []) fileName :=
    World.spot_here fileName_isName (by decide) (by decide +kernel)
  have hiff := (run_unchanged_iff loggedWorld_fresh hrun (by simp)).2 _ _ _ _ hdemand
    (.usual (fun _ _ h => by cases h) hsettings) loggedWorld_room hdirectory loggedWorld_unlinked
    (.inl spot.locate_entry)
  refine ⟨v, hrun, hemptied, ?_⟩
  by_contra hspoils
  have hfree : ¬ Log.TakesPlace usualSettings.log.directory loggedWorld [fileName] :=
    fun h => by cases h.1
  have hsame := hiff.mpr ⟨hfree, hspoils⟩
  rw [List.nil_append, hemptied] at hsame
  have hfile : loggedWorld.tree.get? [fileName] =
      some (.file 0 (.ofOctets (loneLine.map fun c => UInt8.ofNat c.toNat))) :=
    fileWorld_get? _ (by simp)
  have hcontent := congrArg Content.octets (Entry.file.inj (Option.some.inj (hsame.trans hfile))).2
  rw [Content.octets_ofOctets, Content.octets_ofOctets] at hcontent
  cases hcontent

end CommandLine

end LabelBook
