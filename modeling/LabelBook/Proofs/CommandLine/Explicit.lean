import LabelBook.Proofs.CommandLine.Answering
import LabelBook.Proofs.Requests
import LabelBook.Proofs.Settings.Loading

/-!
Command lines that name the directory of the labels. The settings are looked for all the same, and with
them a directory for the case that none is named: if there is none, that is the end of it. Otherwise the
variable that names it makes no difference to anything: programs that are run in two worlds that differ in
it come to the same, step by step, and settings that differ in it serve a command in the same way.
-/

namespace LabelBook

open Request (OnFiles Outside Inner Knows)
open Program

/-! ### A variable that is not asked for -/

/-- A world that differs from another in one variable of the environment at most. -/
structure World.DiffersIn (name : Text) (w v : World) : Prop where
  rest : v = { w with environment := v.environment }
  others : ∀ n, n ≠ name → v.environment.lookup n = w.environment.lookup n

variable {name : Text} {names : List Text} {w v : World}

/-- Worlds that differ in a variable answer whoever does not ask for it alike. -/
theorem World.DiffersIn.answer {r : Request} (differ : w.DiffersIn name v) (h : r.Knows names)
    (hname : name ∉ names) :
    (v.answer r).1 = (w.answer r).1 ∧ (w.answer r).2.DiffersIn name (v.answer r).2 := by
  obtain ⟨e, rfl⟩ : ∃ e, v = { w with environment := e } := ⟨_, differ.rest⟩
  have hfiles : r.OnFiles → (World.answer r { w with environment := e }).1 = (w.answer r).1 ∧
      (w.answer r).2.DiffersIn name (World.answer r { w with environment := e }).2 := by
    intro h
    have hanswer : World.answer r { w with environment := e } =
        ((w.answer r).1, { (w.answer r).2 with environment := e, logger := w.logger }) :=
      World.answer_dressed h
    have hsteady : (w.answer r).2.environment = w.environment := (w.answer_steady r).1.environment
    have hlog : (w.answer r).2.logger = w.logger :=
      World.answer_logger (h.outside : r.Outside []) w
    rw [hanswer, ← hlog]
    exact ⟨rfl, rfl, fun n hn => hsteady ▸ differ.others n hn⟩
  cases r with
  | environment n =>
    refine ⟨differ.others n ?_, differ⟩
    rintro rfl
    exact hname h
  | home account => cases account <;> exact ⟨rfl, differ⟩
  | now | logger => exact ⟨rfl, differ⟩
  | print _ | warn _ | setLogger _ => exact ⟨rfl, rfl, differ.others⟩
  | _ => exact hfiles h

theorem Program.Only.differing {α : Type} {q : Program α} (h : q.Only (Knows names)) (hname : name ∉ names)
    (differ : w.DiffersIn name v) :
    (q.run v).1 = (q.run w).1 ∧ (q.run w).2.DiffersIn name (q.run v).2 :=
  h.alike (fun _ _ _ hr differ => differ.answer hr hname) differ

/-! ### Programs that are alike -/

/-- Results that are the same failure, or values that stand in a relation. -/
inductive Alike {ε α : Type} (R : α → α → Prop) : Except ε α → Except ε α → Prop
  | error (e : ε) : Alike R (.error e) (.error e)
  | ok {a b : α} (related : R a b) : Alike R (.ok a) (.ok b)

namespace Program

variable {α β : Type} {R : α → α → Prop} {T : β → β → Prop} {p q : Program α}

/-- Programs that change nothing, one run in a world and one in another, and fail in the same way or come
to values that stand in a relation. -/
inductive Matches (R : α → α → Prop) (w v : World) (p q : Program α) : Prop
  | fails (f : Failure) (left : p.run w = (.error f, w)) (right : q.run v = (.error f, v))
  | ends (a b : α) (left : p.run w = (.ok a, w)) (right : q.run v = (.ok b, v)) (related : R a b)

theorem matches_pure {a b : α} (h : R a b) : Matches R w v (pure a) (pure b) := .ends a b rfl rfl h

theorem matches_fail (f : Failure) : Matches R w v (fail f) (fail f) := .fails f rfl rfl

theorem matches_ofExcept (r : Except Failure α) : Matches Eq w v (ofExcept r) (ofExcept r) := by
  rcases r with f | a
  · exact matches_fail f
  · exact matches_pure rfl

theorem Matches.imp {R' : α → α → Prop} (h : Matches R w v p q) (himp : ∀ a b, R a b → R' a b) :
    Matches R' w v p q := by
  cases h with
  | fails f left right => exact .fails f left right
  | ends a b left right related => exact .ends a b left right (himp a b related)

theorem Matches.bind {k l : α → Program β} (h : Matches R w v p q)
    (hnext : ∀ a b, R a b → Matches T w v (k a) (l b)) : Matches T w v (p >>= k) (q >>= l) := by
  cases h with
  | fails f left right => exact .fails f (run_bind_error left k) (run_bind_error right l)
  | ends a b left right related =>
    cases hnext a b related with
    | fails f left' right' =>
      exact .fails f ((run_bind_ok left k).trans left') ((run_bind_ok right l).trans right')
    | ends c d left' right' related' =>
      exact .ends c d ((run_bind_ok left k).trans left') ((run_bind_ok right l).trans right') related'

theorem Matches.outcome (h : Matches R w v p q) : Matches (Alike R) w v p.outcome q.outcome := by
  cases h with
  | fails f left right =>
    exact .ends (.error f) (.error f) (by rw [run_outcome, left]) (by rw [run_outcome, right]) (.error f)
  | ends a b left right related =>
    exact .ends (.ok a) (.ok b) (by rw [run_outcome, left]) (by rw [run_outcome, right]) (.ok related)

/-- A program that changes nothing and does not ask for the variable in which the worlds differ. -/
theorem Only.matches {q : Program α} (h : q.Only (Knows names)) (hname : name ∉ names) (asks : q.Asks)
    (differ : w.DiffersIn name v) : Matches Eq w v q q := by
  have hsame := (h.differing hname differ).1
  have hleft := asks.run w
  have hright := asks.run v
  rw [hsame] at hright
  generalize (q.run w).1 = r at hleft hright
  rcases r with f | a
  · exact .fails f hleft hright
  · exact .ends a a hleft hright rfl

end Program

/-! ### Settings -/

namespace Settings

open Program

/-- The directory of the labels is found in both worlds when nothing is said, whichever it is. -/
abbrev FindsDefault (w v : World) : Prop :=
  Matches (fun _ _ => True) w v defaultDirectory defaultDirectory

/-- The variables that are asked for besides. -/
def otherVariables : List Text := ["HOME", Log.directoryVariable]

theorem directoryVariable_apart : directoryVariable ∉ otherVariables := by decide

theorem matches_expandHome (differ : w.DiffersIn directoryVariable v) (p : Path) :
    Matches Eq w v (expandHome p) (expandHome p) := by
  have honly : (expandHome p).Only (Knows otherVariables) :=
    (only_expandHome List.mem_cons_self p).mono fun _ h => h.inner.knows
  exact honly.matches directoryVariable_apart (homely_expandHome p).asks differ

section

variable {α : Type} {R : α → α → Prop} {p q : Program α}

theorem matches_violationOf (h : Matches R w v p q) :
    Matches (Alike R) w v (violationOf p) (violationOf q) := by
  unfold violationOf
  refine h.outcome.bind ?_
  rintro _ _ (f | related)
  · unfold judged
    dsimp only
    split
    · exact matches_pure (.error _)
    · exact matches_fail f
  · exact matches_pure (.ok related)

end

/-- Settings that differ in the directory of the labels at most. -/
def SameLog (s s' : Settings) : Prop := s'.log = s.log

/-- The faults of both parts are told alike. -/
theorem alike_ofParts {store store' : Except (List Issue) StoreSettings}
    (log : Except (List Issue) LogSettings) (h : Alike (fun _ _ => True) store store') :
    Alike SameLog (ofParts store log) (ofParts store' log) := by
  obtain issues | - := h <;> rcases log with issues' | l
  · exact .error _
  · exact .error _
  · exact .error _
  · exact .ok rfl

variable (differ : w.DiffersIn directoryVariable v) (usual : FindsDefault w v)
include usual

theorem matches_defaultStore : Matches (fun _ _ => True) w v defaultStore defaultStore :=
  usual.bind fun _ _ _ => matches_pure trivial

theorem matches_default : Matches SameLog w v default default :=
  (matches_defaultStore usual).bind fun _ _ _ => matches_pure rfl

include differ

theorem matches_directoryNamed (t : Text) :
    Matches (fun _ _ => True) w v (directoryNamed t) (directoryNamed t) := by
  unfold directoryNamed
  dsimp only
  split
  · exact usual
  · exact (matches_expandHome differ _).imp fun _ _ _ => trivial

theorem matches_directoryOf (d : Datum) :
    Matches (fun _ _ => True) w v (directoryOf d) (directoryOf d) := by
  obtain rfl | ⟨t, -, hof⟩ | ⟨why, -, hof⟩ := directoryOf_cases d
  · exact usual
  · rw [hof]
    exact matches_directoryNamed differ usual t
  · rw [hof]
    exact matches_fail _

theorem matches_readDirectory (d : Datum) :
    Matches (Alike fun _ _ => True) w v (readDirectory d) (readDirectory d) :=
  matches_violationOf (matches_directoryOf differ usual d)

theorem matches_readStore (d : Datum) :
    Matches (Alike fun _ _ => True) w v (readStore d) (readStore d) := by
  unfold readStore
  split
  · split
    · exact (matches_defaultStore usual).bind fun _ _ _ => matches_pure (.ok trivial)
    · refine (matches_readDirectory differ usual _).bind ?_
      rintro _ _ (e | -)
      · exact matches_pure (.error _)
      · exact matches_pure (.ok trivial)
  · exact matches_pure (.error _)

theorem matches_storeIn (fields : List (Text × Datum)) :
    Matches (Alike fun _ _ => True) w v (storeIn fields) (storeIn fields) := by
  unfold storeIn
  split
  · exact (matches_defaultStore usual).bind fun _ _ _ => matches_pure (.ok trivial)
  · exact matches_readStore differ usual _

/-- What is said about the log is read alike, and so are the faults. -/
theorem matches_ofDatum (d : Datum) : Matches (Alike SameLog) w v (ofDatum d) (ofDatum d) := by
  unfold ofDatum
  split
  · refine (matches_storeIn differ usual _).bind fun store store' hstore => ?_
    refine (matches_ofExcept _).bind ?_
    rintro log _ rfl
    exact matches_pure (alike_ofParts log hstore)
  · exact matches_pure (.error _)

theorem matches_load (p : Path) : Matches SameLog w v (load p) (load p) := by
  have hread : Matches Eq w v (Program.read p) (Program.read p) := by
    have honly : (Program.read p).Only (Knows otherVariables) := only_attempt trivial
    exact honly.matches directoryVariable_apart (asks_read p) differ
  unfold load
  refine hread.bind ?_
  rintro content _ rfl
  have hdatum : Matches Eq w v
      (Program.ofExcept (if isToml p then readToml content else readJson content))
      (Program.ofExcept (if isToml p then readToml content else readJson content)) :=
    matches_ofExcept _
  refine hdatum.bind ?_
  rintro d _ rfl
  refine (matches_ofDatum differ usual d).bind ?_
  rintro _ _ (r | hsame)
  · exact matches_fail _
  · exact matches_pure hsame

end Settings

namespace CommandLine

open Settings (directoryVariable otherVariables directoryVariable_apart FindsDefault SameLog)

variable {i : Invocation}

theorem matches_settingsIn (differ : w.DiffersIn directoryVariable v) (usual : FindsDefault w v)
    (t : Text) : Matches (Alike SameLog) w v (settingsIn t) (settingsIn t) := by
  unfold settingsIn
  refine (Settings.matches_load differ usual _).outcome.bind ?_
  rintro _ _ (f | hsame)
  · dsimp only
    split
    · exact matches_pure (.error _)
    · exact matches_fail f
  · exact matches_pure (.ok hsame)

/-- An invocation that names the directory of the labels. -/
def Invocation.Explicit (i : Invocation) : Prop := ∃ c t, i.directory = some (c :: t)

/-- Settings that say the same about the log serve it in the same way. -/
theorem Invocation.Explicit.runWith_congr (explicit : i.Explicit) {s s' : Settings} (h : SameLog s s') :
    i.runWith s' = i.runWith s := by
  obtain ⟨c, t, hdirectory⟩ := explicit
  unfold runWith
  rw [show s'.log = s.log from h, hdirectory]
  rfl

theorem Invocation.Explicit.only_runWith (explicit : i.Explicit) (s : Settings) :
    (i.runWith s).Only (Knows otherVariables) := by
  obtain ⟨c, t, hdirectory⟩ := explicit
  have hhome : ("HOME" : Text) ∈ otherVariables := List.mem_cons_self
  have hd : (directoryFor i.directory (some s)).Only (Knows otherVariables) := by
    rw [hdirectory]
    exact (only_expandHome hhome _).mono fun _ h => h.inner.knows
  have hsetUp := Log.only_setUp hhome (List.mem_cons_of_mem _ List.mem_cons_self)
    s.log.verbosity.level s.log.directory
  exact (hsetUp.mono fun _ => Inner.knows).bind fun _ => only_report (i.command.only_run hd)

/-- Runs that end alike: with the same status or failure, in worlds that are the same but for the variable
of the directory of the labels. -/
def SameEnd (a b : Except Failure Nat × World) : Prop :=
  b.1 = a.1 ∧ a.2.DiffersIn directoryVariable b.2

theorem sameEnd_of_only {q : Program Nat} (h : q.Only (Knows otherVariables))
    (differ : w.DiffersIn directoryVariable v) : SameEnd (q.run w) (q.run v) :=
  h.differing directoryVariable_apart differ

theorem Invocation.Explicit.run_alike (explicit : i.Explicit)
    (differ : w.DiffersIn directoryVariable v) (usual : FindsDefault w v) :
    SameEnd (i.run.run w) (i.run.run v) := by
  have hwith : ∀ {s s' : Settings}, SameLog s s' →
      SameEnd ((i.runWith s).run w) ((i.runWith s').run v) := by
    intro s s' hsame
    rw [explicit.runWith_congr hsame]
    exact sameEnd_of_only (explicit.only_runWith s) differ
  unfold Invocation.run
  cases Settings.matches_default usual with
  | fails f left right =>
    rw [run_bind_error left, run_bind_error right]
    exact ⟨rfl, differ⟩
  | ends s s' left right hsame =>
    rw [run_bind_ok left, run_bind_ok right]
    split
    · next c t _ =>
      cases matches_settingsIn differ usual (c :: t) with
      | fails f left right =>
        rw [run_bind_error left, run_bind_error right]
        exact ⟨rfl, differ⟩
      | ends x x' left right halike =>
        rw [run_bind_ok left, run_bind_ok right]
        cases halike with
        | error complaint =>
          have hwarn : (do Program.warn complaint; return 2 : Program Nat).Only (Knows otherVariables) :=
            Only.bind (only_ask trivial only_done) fun _ => only_pure _
          exact sameEnd_of_only hwarn differ
        | ok hsame => exact hwith hsame
    · exact hwith hsame

/-- Without a directory for the case that none is named, an invocation ends before anything is done. -/
theorem Invocation.run_homeless {f : Failure} (lost : (Settings.defaultDirectory.run w).1 = .error f) :
    i.run.run w = (.error f, w) := by
  have hrun : Settings.defaultDirectory.run w = (.error f, w) :=
    Prod.ext lost (Settings.asks_defaultDirectory w)
  unfold Invocation.run Settings.default Settings.defaultStore
  exact run_bind_error (run_bind_error (run_bind_error hrun _) _) _

/-- A command line that asks for nothing to be carried out asks for no variable. -/
theorem only_run_idle {args : List Text} (idle : ∀ i, demand args ≠ .run i) :
    (run args).Only (Knows otherVariables) := by
  unfold run
  split
  · next i hi => exact absurd hi (idle i)
  · exact Only.bind (only_ask trivial only_done) fun _ => only_pure _
  · exact Only.bind (only_ask trivial only_done) fun _ => only_pure _

/-- A command line that names the directory of the labels, in two worlds that differ in the variable of
the default directory. If there is a default directory in both, or nothing is to be carried out, it ends
alike in both: with the same status or failure, the same output, and the same files. Where there is
none it ends with the failure to find one, and nothing has been done. -/
theorem explicit_directory {args : List Text}
    (explicit : ∀ i, demand args = .run i → i.Explicit) (differ : w.DiffersIn directoryVariable v) :
    let a := (run args).run w
    let b := (run args).run v
    ((∃ p q, Settings.defaultDirectory.run w = (.ok p, w) ∧
      Settings.defaultDirectory.run v = (.ok q, v)) → SameEnd a b) ∧
    ((∀ i, demand args ≠ .run i) → SameEnd a b) ∧
    ∀ i f, demand args = .run i →
      ((Settings.defaultDirectory.run w).1 = .error f → a = (.error f, w)) ∧
      ((Settings.defaultDirectory.run v).1 = .error f → b = (.error f, v)) := by
  intro a b
  have hidle : (∀ i, demand args ≠ .run i) → SameEnd a b :=
    fun idle => sameEnd_of_only (only_run_idle idle) differ
  have hrun : ∀ i, demand args = .run i → run args = i.run := by
    intro i hi
    rw [run, hi]
  refine ⟨?_, hidle, fun i f hi => ?_⟩
  · rintro ⟨p, q, hp, hq⟩
    by_cases hi : ∃ i, demand args = .run i
    · obtain ⟨i, hi⟩ := hi
      show SameEnd ((run args).run w) ((run args).run v)
      rw [hrun i hi]
      exact (explicit i hi).run_alike differ (.ends p q hp hq trivial)
    · exact hidle (not_exists.mp hi)
  · show (_ → (run args).run w = _) ∧ (_ → (run args).run v = _)
    rw [hrun i hi]
    exact ⟨Invocation.run_homeless, Invocation.run_homeless⟩

/-- A command line that lists the labels of a directory that it names. -/
def namedList : List Text := ["--data-dir", "d", "list"]

/-- The world with a label file, with a value for the variable of the default directory. -/
def variedWorld (t : Text) : World :=
  { housedWorld with environment := (directoryVariable, t) :: housedWorld.environment }

theorem variedWorld_differs (t : Text) : housedWorld.DiffersIn directoryVariable (variedWorld t) := by
  refine ⟨rfl, fun n hn => ?_⟩
  have hne : (n == directoryVariable) = false := by simpa using hn
  rw [variedWorld, List.lookup_cons, hne]

set_option maxRecDepth 20000 in
/-- The list is the same whether the variable is set to a directory or not; with the home directory of an
account that is not there it fails, though the list could be told without it. -/
theorem explicit_directory_homeless :
    SameEnd ((run namedList).run housedWorld) ((run namedList).run (variedWorld "x")) ∧
    ((run namedList).run housedWorld).1 = .ok 0 ∧
    (run namedList).run (variedWorld "~nobody/x") = (.error .homeless, variedWorld "~nobody/x") := by
  have hdemand : demand namedList = .run ⟨none, some "d", .list none⟩ := by cbv
  have explicit : ∀ i, demand namedList = .run i → i.Explicit := by
    intro i hi
    rw [hdemand] at hi
    cases hi
    exact ⟨_, _, rfl⟩
  obtain ⟨hsame, -, -⟩ := explicit_directory explicit (variedWorld_differs "x")
  obtain ⟨-, -, hlost⟩ := explicit_directory explicit (variedWorld_differs "~nobody/x")
  refine ⟨hsame ⟨_, _, by cbv, by cbv⟩, by cbv, (hlost _ _ hdemand).2 (by cbv)⟩

end CommandLine

end LabelBook
