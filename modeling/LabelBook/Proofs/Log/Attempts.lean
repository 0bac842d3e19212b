import LabelBook.Proofs.Log.Again
import LabelBook.Proofs.Requests

/-!
Attempts to set up the log. A call first finds the directory of the log files, and until it has it the log
is not touched. Then it adds one outlet after the other, and an outlet that has been added stays even if the
next file cannot be opened; with an outlet the log counts as set up, so that no later call adds what is
missing. Calls can be made at any time: what the world has come to in between makes no difference to the
outlets that are there.
-/

namespace LabelBook

open Request (OnFiles Outside)
open Program

/-! ### What finding files does to the log -/

/-- A world that has the log of another. -/
def World.SameLog (w v : World) : Prop := v.logger = w.logger

instance : IsPreorder World World.SameLog where
  refl _ := rfl
  trans _ _ _ h h' := Eq.trans h' h

/-- What is done outside leaves the log as it is. -/
theorem Program.Only.logger {α : Type} {q : Program α} {names : List Text}
    (h : q.Only (Outside names)) (w : World) : (q.run w).2.logger = w.logger :=
  h.leads (R := World.SameLog) (fun _ w h => w.answer_logger h) w

/-- What works on files is done outside. -/
theorem Program.Only.logger_files {α : Type} {q : Program α} (h : q.Only OnFiles) (w : World) :
    (q.run w).2.logger = w.logger :=
  Only.logger (h.mono fun _ => OnFiles.outside : q.Only (Outside [])) w

/-- A world that differs from another in its log at most. -/
def World.Relogged (w v : World) : Prop := ∃ l, v = { w with logger := l }

theorem World.answer_relogged {r : Request} {names : List Text} (h : r.Outside names) {w v : World}
    (same : w.Relogged v) :
    (v.answer r).1 = (w.answer r).1 ∧ (w.answer r).2.Relogged (v.answer r).2 := by
  obtain ⟨l, rfl⟩ := same
  have hfiles : r.OnFiles → World.answer r { w with logger := l } =
      ((w.answer r).1, { (w.answer r).2 with logger := l }) := by
    intro h
    have hanswer : World.answer r { w with logger := l } =
        ((w.answer r).1, { (w.answer r).2 with environment := w.environment, logger := l }) :=
      answer_dressed h
    have hsteady : (w.answer r).2.environment = w.environment := (w.answer_steady r).1.environment
    rw [hanswer, ← hsteady]
  cases r with
  | environment _ => exact ⟨rfl, l, rfl⟩
  | home account => cases account <;> exact ⟨rfl, l, rfl⟩
  | _ =>
    rw [hfiles h]
    exact ⟨rfl, l, rfl⟩

namespace Log

/-! ### One call -/

/-- The directory of the log files, found, and made if need be. -/
def found (asked : Option Path) : Program Path := do Program.resolve (← directory asked)

/-- The outlet to the console. -/
def consoleOutlet (level : Level) : Outlet := ⟨level, .console⟩

/-- The outlet to a log file in a directory, opened. -/
def fileOutlet (layout : Layout) (dir : Path) (name : Text) (s : Stream) : Outlet :=
  ⟨.debug, .file ⟨layout, (dir.child name).absolute dir, limit, backups, false, some s⟩⟩

/-- The outlet to the log file for people. -/
abbrev textOutlet (dir : Path) (s : Stream) : Outlet := fileOutlet .lines dir textName s

/-- The outlet to the log file for programs. -/
abbrev jsonOutlet (dir : Path) (s : Stream) : Outlet := fileOutlet .json dir jsonName s

/-- A log with outlets behind those it has. -/
def adding (l : Logger) (os : List Outlet) : Logger := { l with outlets := l.outlets ++ os }

variable {w v : World} {level : Level} {asked : Option Path} {r : Except Failure Unit}

theorem found_only (asked : Option Path) :
    (found asked).Only (Outside ["HOME", directoryVariable]) :=
  (only_directory (by simp) (by simp) asked).bind fun _ => only_attempt trivial

theorem run_found (asked : Option Path) (w : World) : (found asked).run w =
    match (directory asked).run w with
    | (.error f, u) => (.error f, u)
    | (.ok p, u) => ((u.resolve p).mapError .refused, u) := by
  unfold found
  rw [run_bind]
  rcases (directory asked).run w with ⟨f | p, u⟩
  · rfl
  · exact run_resolve p

/-- Opening a log file leaves the log as it is, whether the file is opened or not. -/
theorem openFile_cases {layout : Layout} {L : Location} {name : Text} {s : Except Failure LogFile}
    (h : (openFile layout ((Path.ofRoot L).child name) limit backups false).run w = (s, v)) :
    v.logger = w.logger ∧ ((∃ f, s = .error f) ∨ ∃ t, s = .ok ⟨layout,
      ((Path.ofRoot L).child name).absolute (.ofRoot L), limit, backups, false, some t⟩) := by
  have hlog := (only_openFile layout ((Path.ofRoot L).child name) limit backups false).logger_files w
  rw [h] at hlog
  refine ⟨hlog, ?_⟩
  obtain ⟨f, -, rfl⟩ | ⟨here, u, -, h⟩ := run_bind_cases h
  · exact .inl ⟨f, rfl⟩
  simp only [Bool.false_eq_true, if_false, LogFile.openIfClosed, Option.isSome_none] at h
  obtain ⟨f, -, rfl⟩ | ⟨t, x, -, h⟩ := run_bind_cases h
  · exact .inl ⟨f, rfl⟩
  · obtain ⟨rfl, -⟩ := Prod.mk.inj h
    exact .inr ⟨t, rfl⟩

/-- The same for the log file for programs, before which its directory is made once more. -/
theorem openJsonFile_cases {L : Location} {s : Except Failure LogFile}
    (h : (openJsonFile ((Path.ofRoot L).child jsonName) limit backups false).run w = (s, v)) :
    v.logger = w.logger ∧ ((∃ f, s = .error f) ∨ ∃ t, s = .ok ⟨.json,
      ((Path.ofRoot L).child jsonName).absolute (.ofRoot L), limit, backups, false, some t⟩) := by
  have hlog := (only_ensureTree ((Path.ofRoot L).child jsonName).parent).logger_files w
  obtain ⟨f, hmake, rfl⟩ | ⟨_, u, hmake, h⟩ := run_bind_cases h
  · rw [hmake] at hlog
    exact ⟨hlog, .inl ⟨f, rfl⟩⟩
  · rw [hmake] at hlog
    obtain ⟨hopen, hcases⟩ := openFile_cases h
    exact ⟨hopen.trans hlog, hcases⟩

theorem run_addOutlet_bind {α : Type} {o : Outlet} {k : Unit → Program α} :
    (addOutlet o >>= k).run w = (k ()).run { w with logger := adding w.logger [o] } := rfl

theorem adding_adding (l : Logger) (os more : List Outlet) :
    adding (adding l os) more = adding l (os ++ more) := by
  rw [adding, adding, adding, List.append_assoc]

/-- The outlets are added one after another, as far as their files can be opened. -/
theorem addOutlets_cases {L : Location} (h : (addOutlets level L).run w = (r, v)) :
    (∃ f, r = .error f ∧ (v.logger = adding w.logger [consoleOutlet level] ∨
      ∃ s, v.logger = adding w.logger [consoleOutlet level, textOutlet (.ofRoot L) s])) ∨
    ∃ s t, r = .ok () ∧ v.logger = { adding w.logger
      [consoleOutlet level, textOutlet (.ofRoot L) s, jsonOutlet (.ofRoot L) t] with level := .debug } := by
  unfold addOutlets at h
  rw [run_addOutlet_bind] at h
  obtain ⟨f, htext, rfl⟩ | ⟨file, w₁, htext, h⟩ := run_bind_cases h
  · exact .inl ⟨f, rfl, .inl (openFile_cases htext).1⟩
  obtain ⟨hlog₁, ⟨f, hf⟩ | ⟨s, hs⟩⟩ := openFile_cases htext
  · cases hf
  obtain rfl := Except.ok.inj hs
  have hlog₂ : adding w₁.logger [textOutlet (.ofRoot L) s] =
      adding w.logger [consoleOutlet level, textOutlet (.ofRoot L) s] := by
    rw [hlog₁]
    exact adding_adding w.logger _ _
  rw [run_addOutlet_bind] at h
  obtain ⟨f, hjson, rfl⟩ | ⟨file, w₂, hjson, h⟩ := run_bind_cases h
  · exact .inl ⟨f, rfl, .inr ⟨s, (openJsonFile_cases hjson).1.trans hlog₂⟩⟩
  obtain ⟨hlog₃, ⟨f, hf⟩ | ⟨t, ht⟩⟩ := openJsonFile_cases hjson
  · cases hf
  obtain rfl := Except.ok.inj ht
  obtain ⟨rfl, rfl⟩ := Prod.mk.inj h
  have hlog₄ : adding w₂.logger [jsonOutlet (.ofRoot L) t] = adding w.logger
      [consoleOutlet level, textOutlet (.ofRoot L) s, jsonOutlet (.ofRoot L) t] := by
    rw [hlog₃.trans hlog₂, adding_adding]
    rfl
  exact .inr ⟨s, t, rfl, congrArg (fun l : Logger => { l with level := .debug }) hlog₄⟩

/-- Without the directory of the log files the log is as it was; with it the outlets are added. -/
theorem setUp_cases (bare : w.logger.outlets = []) (h : (setUp level asked).run w = (r, v)) :
    (∃ f, (found asked).run w = (.error f, v) ∧ r = .error f ∧ v.logger = w.logger) ∨
    ∃ L u, (found asked).run w = (.ok (.ofRoot L), u) ∧ u.logger = w.logger ∧
      (addOutlets level L).run u = (r, v) := by
  have hlog := (found_only asked).logger w
  have hfound := run_found asked w
  rw [run_setUp_bare bare] at h
  rcases hdir : (directory asked).run w with ⟨f | p, u⟩
  · rw [hdir] at h hfound
    obtain ⟨rfl, rfl⟩ := Prod.mk.inj h
    rw [hfound] at hlog
    exact .inl ⟨f, hfound, rfl, hlog⟩
  rw [hdir] at h hfound
  dsimp only [World.resolve] at h hfound
  rcases hplace : u.locate .target p with e | L
  · rw [hplace] at h hfound
    obtain ⟨rfl, rfl⟩ := Prod.mk.inj h
    rw [hfound] at hlog
    exact .inl ⟨.refused e, hfound, rfl, hlog⟩
  · rw [hplace] at h hfound
    rw [hfound] at hlog
    exact .inr ⟨L, u, hfound, hlog, h⟩

/-- With an outlet the log counts as set up. -/
theorem run_setUp_again (ready : w.logger.outlets ≠ []) : (setUp level asked).run w = (.ok (), w) := by
  unfold setUp
  rw [run_bind_ok run_logger, if_pos (by simp [ready])]
  rfl

/-! ### Calls -/

/-- A call that sets up the log: the level and the directory it asks for, and the world it is made in, but
for the log there. -/
structure Attempt where
  level : Level
  asked : Option Path
  scene : World

namespace Attempt

variable {a : Attempt} {l : Logger} {dir : Path}

/-- What a call ends with that meets a log, and the world after it. -/
def on (a : Attempt) (l : Logger) : Except Failure Unit × World :=
  (setUp a.level a.asked).run { a.scene with logger := l }

/-- A call that finds a directory for the log files. -/
def Finds (a : Attempt) (dir : Path) : Prop := ∃ v, (found a.asked).run a.scene = (.ok dir, v)

/-- A call that finds no directory for the log files. -/
def Unplaced (a : Attempt) : Prop := ∃ f v, (found a.asked).run a.scene = (.error f, v)

/-- What is left of a log when a call has found a directory and a file could not be opened: there is the
outlet to the console, and with it perhaps the text file. -/
def Begins (a : Attempt) (l m : Logger) : Prop := ∃ dir, a.Finds dir ∧
  (m = adding l [consoleOutlet a.level] ∨ ∃ s, m = adding l [consoleOutlet a.level, textOutlet dir s])

/-- What a call makes of a log when all goes well: there are the three outlets. -/
def Finishes (a : Attempt) (l m : Logger) : Prop := ∃ dir s t, a.Finds dir ∧
  m = { adding l [consoleOutlet a.level, textOutlet dir s, jsonOutlet dir t] with level := .debug }

/-- The log after one call and another. -/
def after (l : Logger) (calls : List Attempt) : Logger := calls.foldl (fun l a => (a.on l).2.logger) l

theorem Finds.not_unplaced (h : a.Finds dir) : ¬ a.Unplaced := by
  rintro ⟨f, v, hf⟩
  obtain ⟨u, hu⟩ := h
  cases hu.symm.trans hf

/-- The directory does not depend on the log. -/
theorem found_scene {d : Except Failure Path} (h : (found a.asked).run { a.scene with logger := l } = (d, v)) :
    ∃ u, (found a.asked).run a.scene = (d, u) := by
  have same : a.scene.Relogged { a.scene with logger := l } := ⟨l, rfl⟩
  have halike := ((found_only a.asked).alike
    (fun _ _ _ hr same => World.answer_relogged hr same) same).1
  rw [h] at halike
  exact ⟨((found a.asked).run a.scene).2, Prod.ext halike.symm rfl⟩

theorem Begins.ready {m : Logger} (h : a.Begins l m) : m.outlets ≠ [] := by
  obtain ⟨dir, -, rfl | ⟨s, rfl⟩⟩ := h <;> simp [adding]

theorem Finishes.ready {m : Logger} (h : a.Finishes l m) : m.outlets ≠ [] := by
  obtain ⟨dir, s, t, -, rfl⟩ := h
  simp [adding]

theorem Begins.not_unplaced {m : Logger} (h : a.Begins l m) : ¬ a.Unplaced := h.choose_spec.1.not_unplaced

theorem Finishes.not_unplaced {m : Logger} (h : a.Finishes l m) : ¬ a.Unplaced := by
  obtain ⟨dir, s, t, hdir, -⟩ := h
  exact hdir.not_unplaced

theorem on_cases (bare : l.outlets = []) (h : a.on l = (r, v)) :
    (a.Unplaced ∧ (∃ f, r = .error f) ∧ v.logger = l) ∨
    ((∃ f, r = .error f) ∧ a.Begins l v.logger) ∨ (r = .ok () ∧ a.Finishes l v.logger) := by
  obtain ⟨f, hfound, rfl, hlog⟩ | ⟨L, u, hfound, hlog, h⟩ := setUp_cases bare h
  · obtain ⟨u, hu⟩ := found_scene hfound
    exact .inl ⟨⟨f, u, hu⟩, ⟨f, rfl⟩, hlog⟩
  · obtain ⟨x, hx⟩ := found_scene hfound
    have hcases := addOutlets_cases h
    rw [hlog] at hcases
    obtain ⟨f, rfl, hpart⟩ | ⟨s, t, rfl, hall⟩ := hcases
    · exact .inr (.inl ⟨⟨f, rfl⟩, .ofRoot L, ⟨x, hx⟩, hpart⟩)
    · exact .inr (.inr ⟨rfl, .ofRoot L, s, t, ⟨x, hx⟩, hall⟩)

theorem on_again (ready : l.outlets ≠ []) : a.on l = (.ok (), { a.scene with logger := l }) :=
  run_setUp_again ready

/-- What is set up, in part or as a whole, stays as it is. -/
theorem after_ready (ready : l.outlets ≠ []) : ∀ calls, after l calls = l
  | [] => rfl
  | a :: calls => by
    have hone : (a.on l).2.logger = l := by rw [on_again ready]
    rw [after, List.foldl_cons, hone]
    exact after_ready ready calls

theorem after_append (l : Logger) (before later : List Attempt) :
    after l (before ++ later) = after (after l before) later := List.foldl_append

/-- A call leaves a log without outlets as it is, or with outlets. -/
theorem on_bare (bare : l.outlets = []) (a : Attempt) :
    (a.Unplaced ∧ (a.on l).2.logger = l) ∨ (¬ a.Unplaced ∧ (a.on l).2.logger.outlets ≠ []) := by
  obtain ⟨hnone, -, hlog⟩ | ⟨-, hpart⟩ | ⟨-, hall⟩ := on_cases bare (Prod.eta (a.on l)).symm
  · exact .inl ⟨hnone, hlog⟩
  · exact .inr ⟨hpart.not_unplaced, hpart.ready⟩
  · exact .inr ⟨hall.not_unplaced, hall.ready⟩

/-- A log has got no outlets as long as no call has found a directory, and is then as it was. -/
theorem after_bare (bare : l.outlets = []) (calls : List Attempt) :
    ((∀ b ∈ calls, b.Unplaced) ∧ after l calls = l) ∨
      ((∃ b ∈ calls, ¬ b.Unplaced) ∧ (after l calls).outlets ≠ []) := by
  induction calls with
  | nil => exact .inl ⟨fun _ hb => absurd hb List.not_mem_nil, rfl⟩
  | cons a calls ih =>
    have hcons : after l (a :: calls) = after (a.on l).2.logger calls := rfl
    rw [hcons]
    obtain ⟨hnone, hlog⟩ | ⟨hsome, hlog⟩ := on_bare bare a
    · rw [hlog]
      obtain ⟨hall, hafter⟩ | ⟨⟨b, hb, hsome⟩, hafter⟩ := ih
      · exact .inl ⟨List.forall_mem_cons.mpr ⟨hnone, hall⟩, hafter⟩
      · exact .inr ⟨⟨b, List.mem_cons_of_mem a hb, hsome⟩, hafter⟩
    · rw [after_ready hlog]
      exact .inr ⟨⟨a, List.mem_cons_self, hsome⟩, hlog⟩

/-- A call that fails leaves a log without outlets as it is exactly if it finds no directory. One that has
found a directory and then fails over a file leaves the outlet to the console, and with it perhaps the text
file: no later call adds anything to them, though it ends well. As long as no call has found a directory the
log has no outlets, and a call that succeeds then gives it the three outlets, with its own level and
directory, that no later call changes. -/
theorem first_found_lasts (l : Logger) (bare : l.outlets = []) :
    (∀ (a : Attempt) (f : Failure) (v : World), a.on l = (.error f, v) →
      ((v.logger.outlets = l.outlets ∧ v.logger.level = l.level) ↔ a.Unplaced) ∧
      (a.Unplaced → v.logger = l) ∧
      (¬ a.Unplaced → a.Begins l v.logger ∧ ∀ (later : List Attempt) (b : Attempt),
        after v.logger later = v.logger ∧ b.on v.logger = (.ok (), { b.scene with logger := v.logger }))) ∧
    ∀ before, ((after l before).outlets = [] ↔ ∀ b ∈ before, b.Unplaced) ∧
      ∀ (a : Attempt) later, (after l before).outlets = [] → (a.on (after l before)).1 = .ok () →
        a.Finishes l (after l (before ++ a :: later)) := by
  refine ⟨fun a f v h => ?_, fun before => ⟨?_, fun a later hnone hok => ?_⟩⟩
  · obtain ⟨hnone, -, hlog⟩ | ⟨-, hpart⟩ | ⟨hok, -⟩ := on_cases bare h
    · exact ⟨⟨fun _ => hnone, fun _ => ⟨congrArg _ hlog, congrArg _ hlog⟩⟩, fun _ => hlog,
        fun hsome => absurd hnone hsome⟩
    · have hsome := hpart.not_unplaced
      exact ⟨⟨fun hsame => absurd (hsame.1.trans bare) hpart.ready, fun hnone => absurd hnone hsome⟩,
        fun hnone => absurd hnone hsome,
        fun _ => ⟨hpart, fun later b => ⟨after_ready hpart.ready later, on_again hpart.ready⟩⟩⟩
    · cases hok
  · obtain ⟨hall, hafter⟩ | ⟨⟨b, hb, hsome⟩, hafter⟩ := after_bare bare before
    · exact ⟨fun _ => hall, fun _ => by rw [hafter, bare]⟩
    · exact ⟨fun h => absurd h hafter, fun h => absurd (h b hb) hsome⟩
  · obtain ⟨-, hafter⟩ | ⟨-, hafter⟩ := after_bare bare before
    · rw [hafter] at hok
      have hsplit : after l (before ++ a :: later) = after (a.on l).2.logger later := by
        rw [after_append, hafter]
        rfl
      obtain ⟨-, ⟨f, hf⟩, -⟩ | ⟨⟨f, hf⟩, -⟩ | ⟨-, hall⟩ := on_cases bare (Prod.eta (a.on l)).symm
      · cases hf.symm.trans hok
      · cases hf.symm.trans hok
      · rw [hsplit, after_ready hall.ready]
        exact hall
    · exact absurd hnone hafter

/-- A world with a directory where one log file should be, and a file. -/
def litteredScene : World :=
  ⟨⟨[(["logs"], .directory), (["logs", textName], .directory), (["notes"], .file 0 .empty)], [], 1⟩, [],
    [], [], none, 0, [], [], .initial⟩

/-- A call there for warnings, with a directory of choice. -/
def litteredCall (dir : Text) : Attempt := ⟨.warning, some (.ofText dir), litteredScene⟩

set_option maxRecDepth 20000 in
/-- Where a directory stands for the text file the outlet to the console stays alone, whatever is called
later, and the log has no level of its own, as before. A call whose directory cannot be made, as a file
stands there, leaves the log as it was; the next that succeeds adds all outlets. -/
theorem first_found_lasts_littered : Logger.initial.outlets = [] ∧ Logger.initial.level = .notSet ∧
    (∃ f v, (litteredCall "logs").on .initial = (.error f, v) ∧
      v.logger = adding .initial [consoleOutlet .warning] ∧ v.logger.level = .notSet ∧
      ∀ later, after v.logger later = adding .initial [consoleOutlet .warning]) ∧
    (∃ f v, (litteredCall "notes").on .initial = (.error f, v) ∧ v.logger = .initial) ∧
    ∀ later, (litteredCall "new").Finishes .initial
      (after .initial ([litteredCall "notes"] ++ litteredCall "new" :: later)) := by
  obtain ⟨hfails, hlater⟩ := first_found_lasts .initial rfl
  have hnotes : (litteredCall "notes").Unplaced := ⟨_, _, by cbv⟩
  refine ⟨rfl, rfl, ?_, ?_, fun later => ?_⟩
  · have hlog : ((litteredCall "logs").on .initial).2.logger =
        adding .initial [consoleOutlet .warning] := by cbv
    obtain ⟨f, hf⟩ : ∃ f, ((litteredCall "logs").on .initial).1 = .error f := ⟨_, by cbv⟩
    have hrun : (litteredCall "logs").on .initial = (.error f, ((litteredCall "logs").on .initial).2) :=
      Prod.ext hf rfl
    obtain ⟨hsame, -, hbegun⟩ := hfails _ _ _ hrun
    have hsome : ¬ (litteredCall "logs").Unplaced := by
      rw [← hsame, hlog]
      rintro ⟨⟨⟩, -⟩
    refine ⟨f, _, hrun, hlog, congrArg Logger.level hlog, fun later => ?_⟩
    rw [((hbegun hsome).2 later (litteredCall "new")).1, hlog]
  · obtain ⟨f, hf⟩ : ∃ f, ((litteredCall "notes").on .initial).1 = .error f := ⟨_, by cbv⟩
    have hrun : (litteredCall "notes").on .initial = (.error f, ((litteredCall "notes").on .initial).2) :=
      Prod.ext hf rfl
    exact ⟨f, _, hrun, (hfails _ _ _ hrun).2.1 hnotes⟩
  · obtain ⟨hnone, hfinishes⟩ := hlater [litteredCall "notes"]
    refine hfinishes _ later (hnone.mpr ?_) ?_
    · intro b hb
      rw [List.mem_singleton.mp hb]
      exact hnotes
    · cbv

end Attempt

end Log

end LabelBook
