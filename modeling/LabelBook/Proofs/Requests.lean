import LabelBook.CommandLine.Run
import LabelBook.Proofs.Running

/-!
What programs ask for. Whatever the answers are, a program makes requests of some kinds only: what works on
files asks for nothing else; directories are found with the help of a few variables and of the accounts; the
log and the stores besides look at the time and at the log, and write nothing but lines of the log to the
console. What no request of a kind does, no program of such requests does; and worlds that answer them alike
are not told apart.
-/

namespace LabelBook

/-! ### Kinds of requests -/

/-- A line of the log on the console. -/
def IsLogLine (t : Text) : Prop := ∃ e : Event, e.consoleLine = .ok t

namespace Request

/-- A request that concerns files. -/
def OnFiles : Request → Prop
  | read _ | write .. | openFile _ | extend .. | sizeOf _ | rename .. | remove _ | makeDirectory _
  | species _ | resolve _ => True
  | now | environment _ | home _ | print _ | warn _ | logger | setLogger _ => False

/-- A request that concerns files, home directories, or some variables of the environment. -/
def Outside (names : List Text) : Request → Prop
  | environment name => name ∈ names
  | home _ => True
  | r => r.OnFiles

/-- A request that leaves the environment alone but for some variables. -/
def Knows (names : List Text) : Request → Prop
  | environment name => name ∈ names
  | _ => True

/-- A request as it is made on the way, by what is not a command: nothing is written to the console but
lines of the log, and of the environment only some variables are looked at. -/
def Inner (names : List Text) : Request → Prop
  | print _ => False
  | warn t => IsLogLine t
  | r => r.Knows names

variable {r : Request} {names : List Text}

theorem OnFiles.outside (h : r.OnFiles) : r.Outside names := by
  cases r <;> first | exact h.elim | trivial

theorem Outside.inner (h : r.Outside names) : r.Inner names := by
  cases r <;> first | exact h | exact h.elim

theorem OnFiles.inner (h : r.OnFiles) : r.Inner names := h.outside.inner

theorem Inner.knows (h : r.Inner names) : r.Knows names := by
  cases r <;> first | exact h | trivial

end Request

/-! ### What files have nothing to do with -/

namespace World

variable {w : World} {environment : List (Text × Text)} {l : Logger}

theorem change_dressed (aim : Tree.Aim) (p : Path) (f : Location → Except Reason Tree) :
    World.change { w with environment := environment, logger := l } aim p f =
      ((w.change aim p f).1,
        { (w.change aim p f).2 with environment := environment, logger := l }) := by
  have hlocate : World.locate { w with environment := environment, logger := l } aim p =
      w.locate aim p := rfl
  unfold World.change
  rw [hlocate]
  split
  · rfl
  · split <;> rfl

/-- Requests that concern files have nothing to do with the environment and the log. -/
theorem answer_dressed {r : Request} (h : r.OnFiles) :
    World.answer r { w with environment := environment, logger := l } =
      ((w.answer r).1, { (w.answer r).2 with environment := environment, logger := l }) := by
  cases r with
  | write _ _ | remove _ | makeDirectory _ => exact change_dressed _ _ _
  | openFile p =>
    have hlocate : World.locate { w with environment := environment, logger := l } .writing p =
        w.locate .writing p := rfl
    simp only [World.answer, World.openFile, hlocate]
    split
    · rfl
    · split <;> rfl
  | rename source target =>
    have hlocate : ∀ p, World.locate { w with environment := environment, logger := l } .entry p =
        w.locate .entry p := fun _ => rfl
    simp only [World.answer, World.rename, hlocate]
    split
    · rfl
    · rfl
    · split
      · rfl
      · split <;> rfl
  | read _ | extend _ _ | sizeOf _ | species _ | resolve _ => rfl
  | now | environment _ | home _ | print _ | warn _ | logger | setLogger _ => exact h.elim

/-- A request from outside leaves the log as it is. -/
theorem answer_logger {r : Request} {names : List Text} (h : r.Outside names) (w : World) :
    (w.answer r).2.logger = w.logger := by
  have hfiles : r.OnFiles → (w.answer r).2.logger = w.logger := fun h =>
    congrArg (World.logger ∘ Prod.snd) (answer_dressed h (w := w) (l := w.logger))
  cases r with
  | environment _ => rfl
  | home account => cases account <;> rfl
  | _ => exact hfiles h

end World

namespace Program

open Request (OnFiles Outside Inner Knows)

variable {α β : Type} {P Q : Request → Prop} {q : Program α} {names : List Text}

/-- A program whose requests, whatever the answers to them are, all have some property. -/
def Only (P : Request → Prop) : Program α → Prop
  | done _ | fail _ => True
  | ask r next => P r ∧ ∀ a, (next a).Only P

theorem only_done (a : α) : (done a).Only P := trivial

theorem only_pure (a : α) : (pure a : Program α).Only P := trivial

theorem only_fail (f : Failure) : (fail f : Program α).Only P := trivial

theorem only_ask {r : Request} {next : r.Answer → Program α} (h : P r)
    (hnext : ∀ a, (next a).Only P) : (ask r next).Only P := ⟨h, hnext⟩

theorem Only.mono (h : q.Only P) (himp : ∀ r, P r → Q r) : q.Only Q := by
  induction q with
  | done a | fail f => trivial
  | ask r next ih => exact ⟨himp r h.1, fun a => ih a (h.2 a)⟩

theorem Only.bind {k : α → Program β} (hq : q.Only P) (hk : ∀ a, (k a).Only P) :
    (q >>= k).Only P := by
  induction q with
  | done a => exact hk a
  | fail f => trivial
  | ask r next ih => exact ⟨hq.1, fun a => ih a (hq.2 a)⟩

theorem Only.orElse {k : Failure → Program α} (hq : q.Only P) (hk : ∀ f, (k f).Only P) :
    (q.orElse k).Only P := by
  induction q with
  | done a => trivial
  | fail f => exact hk f
  | ask r next ih => exact ⟨hq.1, fun a => ih a (hq.2 a)⟩

theorem Only.outcome (hq : q.Only P) : q.outcome.Only P :=
  (hq.bind fun _ => only_done _).orElse fun _ => only_done _

theorem only_ofExcept (r : Except Failure α) : (ofExcept r).Only P := by
  cases r <;> trivial

/-- A step that is taken under a condition, before others. -/
theorem Only.optional {c : Prop} [Decidable c] {q : Program Unit} {k : Unit → Program β}
    (hq : q.Only P) (hk : ∀ u, (k u).Only P) : (if c then q >>= k else k ()).Only P := by
  split
  · exact hq.bind hk
  · exact hk ()

theorem only_attempt {r : Request} {answer : r.Answer → Except Refusal α} (h : P r) :
    (attempt r answer).Only P := by
  refine only_ask h fun a => ?_
  split
  · exact only_done _
  · exact only_fail _

/-- A step for each of some things, one after another. -/
theorem only_forIn {γ : Type} {k : γ → Program Unit} (hk : ∀ c, (k c).Only P) : ∀ cs : List γ,
    (forIn cs PUnit.unit fun c _ => do
      k c
      return ForInStep.yield PUnit.unit : Program PUnit).Only P
  | [] => trivial
  | c :: cs => by
    rw [List.forIn_cons]
    refine ((hk c).bind fun _ => only_pure _).bind fun step => ?_
    split
    · exact only_pure _
    · exact only_forIn hk cs

/-! ### What follows for the worlds -/

/-- What every request of a kind leads to, a program of such requests leads to. -/
theorem Only.leads {R : World → World → Prop} [IsPreorder World R] (h : q.Only P)
    (hstep : ∀ r w, P r → R w (w.answer r).2) (w : World) : R w (q.run w).2 := by
  induction q generalizing w with
  | done a | fail f => exact refl_of R w
  | ask r next ih =>
    rw [run_ask]
    exact trans_of R (hstep r w h.1) (ih _ (h.2 _) _)

/-- Worlds that answer requests of a kind alike, and stay alike, are the same to a program of such
requests. -/
theorem Only.alike {S : World → World → Prop} (h : q.Only P)
    (hstep : ∀ r w v, P r → S w v → (v.answer r).1 = (w.answer r).1 ∧ S (w.answer r).2 (v.answer r).2)
    {w v : World} (same : S w v) : (q.run v).1 = (q.run w).1 ∧ S (q.run w).2 (q.run v).2 := by
  induction q generalizing w v with
  | done a | fail f => exact ⟨rfl, same⟩
  | ask r next ih =>
    obtain ⟨hanswer, same'⟩ := hstep r w v h.1 same
    rw [run_ask, run_ask, hanswer]
    exact ih _ (h.2 _) same'

/-! ### Files -/

theorem only_isDirectory (p : Path) : (isDirectory p).Only OnFiles := by
  refine only_ask trivial fun a => ?_
  split
  · exact only_done _
  · split
    · exact only_done _
    · exact only_fail _
  · exact only_done _

theorem only_exists? (p : Path) : (exists? p).Only OnFiles := by
  refine only_ask trivial fun a => ?_
  split
  · exact only_done _
  · split
    · exact only_done _
    · exact only_fail _
  · exact only_done _

theorem only_species? (p : Path) : (species? p).Only OnFiles :=
  only_ask trivial fun a => by split <;> exact only_done _

theorem only_unlessDirectory (p : Path) (f : Failure) :
    (do if ← isDirectory p then done () else fail f : Program Unit).Only OnFiles := by
  refine (only_isDirectory p).bind fun b => ?_
  split
  · exact only_done _
  · exact only_fail _

theorem only_ensureDirectory (p : Path) : (ensureDirectory p).Only OnFiles := by
  refine (only_attempt trivial).orElse fun f => ?_
  split
  · exact only_unlessDirectory p f
  · exact only_fail _

theorem only_ensureDirectories : ∀ (depth : Nat) (p : Path), (ensureDirectories depth p).Only OnFiles
  | 0, p => only_ensureDirectory p
  | depth + 1, p => by
    unfold ensureDirectories
    refine (only_attempt trivial).orElse fun f => ?_
    split
    · split
      · exact only_fail _
      · exact (only_ensureDirectories depth p.parent).bind fun _ => only_ensureDirectory p
    · exact only_unlessDirectory p _
    · exact only_fail _

theorem only_ensureTree (p : Path) : (ensureTree p).Only OnFiles := only_ensureDirectories _ p

/-! ### Home directories -/

theorem only_checkAccount (name : Text) : (checkAccount name).Only P := by
  unfold checkAccount
  split
  · exact only_fail _
  · split
    · exact only_fail _
    · exact only_done _

theorem only_homeOf (hhome : ("HOME" : Text) ∈ names) (account : Text) :
    (homeOf account).Only (Outside names) := by
  have hask : ∀ account, (home? account).Only (Outside names) := fun _ => only_ask trivial only_done
  unfold homeOf
  split
  · refine Only.bind (only_ask hhome only_done) fun t => ?_
    split
    · exact only_pure _
    · exact hask _
  · exact (only_checkAccount _).bind fun _ => hask _

theorem only_expandHome (hhome : ("HOME" : Text) ∈ names) (p : Path) : (expandHome p).Only (Outside names) := by
  unfold expandHome
  split
  · refine (only_homeOf hhome _).bind fun t => ?_
    split
    · exact only_fail _
    · dsimp only
      split
      · exact only_fail _
      · exact only_pure _
  · exact only_done _

theorem only_belowHome (hhome : ("HOME" : Text) ∈ names) (ns : List Text) :
    (belowHome ns).Only (Outside names) :=
  (only_expandHome hhome _).bind fun _ => only_pure _

end Program

open Program
open Request (OnFiles Outside Inner Knows)

variable {names : List Text}

/-! ### Events -/

namespace LogFile

variable (f : LogFile)

theorem only_shift (source target : Path) : (shift source target).Only OnFiles := by
  unfold shift
  refine (only_species? _).bind fun _ => ?_
  split
  · refine (only_species? _).bind fun _ => ?_
    exact Only.optional (only_attempt trivial) fun _ => only_attempt trivial
  · exact only_pure _

theorem only_shiftOlder : ∀ i, (f.shiftOlder i).Only OnFiles
  | 0 => only_pure _
  | i + 1 => (only_shift _ _).bind fun _ => only_shiftOlder i

theorem only_openIfClosed : f.openIfClosed.Only OnFiles := by
  unfold openIfClosed
  split
  · exact only_pure _
  · exact (only_attempt trivial).bind fun _ => only_pure _

theorem only_rotate : f.rotate.Only OnFiles := by
  have hanew : (if f.lazy then pure { f with stream := none }
      else openIfClosed { f with stream := none } : Program LogFile).Only OnFiles := by
    split
    · exact only_pure _
    · exact only_openIfClosed _
  unfold rotate
  dsimp only
  split
  · refine (only_shiftOlder f _).bind fun _ => (only_species? _).bind fun _ => ?_
    refine Only.optional (only_attempt trivial) fun _ => (only_species? _).bind fun _ => ?_
    exact Only.optional (only_attempt trivial) fun _ => hanew
  · exact hanew

theorem only_isFull (n : Nat) : (f.isFull n).Only OnFiles := by
  unfold isFull
  split
  · exact Only.bind (only_ask trivial only_done) fun _ => only_pure _
  · exact only_pure _

theorem only_makeRoom (n : Nat) : (f.makeRoom n).Only OnFiles := by
  unfold makeRoom
  refine (only_species? _).bind fun _ => ?_
  split
  · exact only_pure _
  · refine (only_openIfClosed f).bind fun g => (only_isFull g n).bind fun _ => ?_
    split
    · exact only_rotate g
    · exact only_pure _

theorem only_add (t : Text) : (f.add t).Only OnFiles := by
  unfold add
  refine (only_makeRoom f _).bind fun g => (only_openIfClosed g).bind fun g => ?_
  split
  · exact (only_attempt trivial).bind fun _ => only_pure _
  · exact only_pure _

theorem only_emit (e : Event) : (f.emit e).Only (Inner names) := by
  unfold emit
  refine Only.bind (only_ask trivial only_done) fun now => Only.orElse ?_ fun _ => only_pure _
  split
  · exact (only_add f _).mono fun _ => OnFiles.inner
  · exact (only_openIfClosed f).mono fun _ => OnFiles.inner

end LogFile

theorem Outlet.only_emit (o : Outlet) (e : Event) : (o.emit e).Only (Inner names) := by
  unfold emit
  split
  · exact only_pure _
  · split
    · split
      · next t ht => exact Only.bind (only_ask ⟨e, ht⟩ only_done) fun _ => only_pure _
      · exact only_pure _
    · next f _ => exact (f.only_emit e).bind fun _ => only_pure _

theorem Outlet.only_emitAll (e : Event) : ∀ os, (Outlet.emitAll e os).Only (Inner names)
  | [] => only_pure _
  | o :: os => (o.only_emit e).bind fun _ => (only_emitAll e os).bind fun _ => only_pure _

theorem Program.only_logger : logger.Only (Inner names) := only_ask trivial only_done

theorem Program.only_setLogger (l : Logger) : (setLogger l).Only (Inner names) :=
  only_ask trivial only_done

theorem Program.only_logEvent (e : Event) : (logEvent e).Only (Inner names) := by
  unfold logEvent
  refine only_logger.bind fun l => ?_
  split
  · exact (Outlet.only_emitAll e _).bind fun _ => only_setLogger _
  · exact only_pure _

theorem Program.only_log (level : Level) (message : Text) :
    (log level message).Only (Inner names) := only_logEvent _

/-! ### Setting up the log -/

namespace Log

theorem only_directory (hhome : ("HOME" : Text) ∈ names) (hdir : directoryVariable ∈ names)
    (asked : Option Path) : (directory asked).Only (Outside names) := by
  have hmake : ∀ p, (do Program.ensureTree p; return p : Program Path).Only (Outside names) :=
    fun p => ((only_ensureTree p).mono fun _ => OnFiles.outside).bind fun _ => only_pure _
  unfold directory
  dsimp only
  split
  · exact (only_expandHome hhome _).bind hmake
  · refine Only.bind (only_ask hdir only_done) fun t => ?_
    split
    · exact (only_expandHome hhome _).bind hmake
    · exact (only_belowHome hhome _).bind hmake

theorem only_addOutlet (o : Outlet) : (addOutlet o).Only (Inner names) :=
  only_logger.bind fun _ => only_setLogger _

theorem only_openFile (layout : Layout) (p : Path) (limit backups : Int) (lazy : Bool) :
    (openFile layout p limit backups lazy).Only OnFiles := by
  unfold openFile
  refine (only_attempt trivial).bind fun here => ?_
  dsimp only
  split
  · exact only_pure _
  · exact LogFile.only_openIfClosed _

theorem only_openJsonFile (p : Path) (limit backups : Int) (lazy : Bool) :
    (openJsonFile p limit backups lazy).Only OnFiles :=
  (only_ensureTree _).bind fun _ => only_openFile _ _ _ _ _

theorem only_setUp (hhome : ("HOME" : Text) ∈ names) (hdir : directoryVariable ∈ names) (level : Level)
    (asked : Option Path) : (setUp level asked).Only (Inner names) := by
  have hfile : ∀ {q : Program LogFile}, q.Only OnFiles → q.Only (Inner names) :=
    fun h => h.mono fun _ => OnFiles.inner
  have hresolve : ∀ p, (Program.resolve p).Only (Inner names) := fun _ => only_attempt trivial
  unfold setUp
  refine only_logger.bind fun l => ?_
  split
  · exact only_pure _
  · have hdirectory := (only_directory hhome hdir asked).mono fun _ => Outside.inner
    refine hdirectory.bind fun p => (hresolve p).bind fun dir => ?_
    refine (only_addOutlet _).bind fun _ => (hfile (only_openFile _ _ _ _ _)).bind fun f => ?_
    refine (only_addOutlet _).bind fun _ => (hfile (only_openJsonFile _ _ _ _)).bind fun f => ?_
    refine (only_addOutlet _).bind fun _ => only_logger.bind fun l => ?_
    exact only_setLogger _

end Log

/-! ### Label files and stores -/

namespace LabelFile

theorem only_read (p : Path) : (LabelFile.read p).Only OnFiles := by
  unfold LabelFile.read
  exact ((only_attempt trivial).orElse fun _ => only_fail _).bind fun _ => only_ofExcept _

theorem only_write (c : Collection) (p : Path) : (LabelFile.write c p).Only OnFiles := by
  unfold LabelFile.write
  refine Only.orElse ?_ fun _ => only_fail _
  refine (only_ofExcept _).bind fun t => ?_
  unfold writeText
  refine (only_attempt trivial).bind fun _ => ?_
  split
  · exact only_fail _
  · exact only_attempt trivial

end LabelFile

namespace Store

theorem only_openIn (directory : Path) : (openIn directory).Only (Inner names) := by
  unfold openIn
  have hread : (LabelFile.read (directory.child fileName)).outcome.Only (Inner names) :=
    ((LabelFile.only_read _).mono fun _ => OnFiles.inner).outcome
  refine (only_log _ _).bind fun _ => hread.bind fun r => ?_
  split
  · exact (only_logEvent _).bind fun _ => only_pure _
  · exact (only_log _ _).bind fun _ => only_pure _
  · split <;> exact only_fail _

theorem only_discard (p : Path) : (discard p).Only (Inner names) := by
  unfold discard
  refine (only_attempt trivial).outcome.bind fun r => ?_
  split
  · exact only_pure _
  · split
    · exact only_log _ _
    · exact only_pure _
  · exact only_fail _

theorem only_replaceFile (s : Store) (p : Path) : (s.replaceFile p).Only (Inner names) := by
  unfold replaceFile
  have hwrite : (LabelFile.write s.collection p).outcome.Only (Inner names) :=
    ((LabelFile.only_write _ p).mono fun _ => OnFiles.inner).outcome
  refine hwrite.bind fun r => ?_
  split
  · exact (only_discard _).bind fun _ => only_fail _
  · refine (only_attempt trivial).outcome.bind fun r => ?_
    split
    · exact only_pure _
    · split
      · exact (only_discard _).bind fun _ => only_fail _
      · exact only_fail _

theorem only_hasNothingToSave (s : Store) : s.hasNothingToSave.Only OnFiles := by
  unfold hasNothingToSave
  split
  · exact (only_exists? _).bind fun _ => only_pure _
  · exact only_pure _

theorem only_save (s : Store) : s.save.Only (Inner names) := by
  unfold save
  refine ((only_hasNothingToSave s).mono fun _ => OnFiles.inner).bind fun b => ?_
  split
  · exact only_log _ _
  · split
    · exact only_fail _
    · refine Only.bind (only_ask trivial only_done) fun now => (only_log _ _).bind fun _ => ?_
      exact (only_replaceFile _ _).bind fun _ => only_logEvent _

end Store

/-! ### Commands -/

namespace CommandLine

variable {d : Program Path}

theorem only_print (t : Text) : (Program.print t).Only (Knows names) := only_ask trivial only_done

theorem only_openStore (hd : d.Only (Knows names)) : (openStore d).Only (Knows names) :=
  hd.bind fun _ => (Store.only_openIn _).mono fun _ => Inner.knows

theorem only_reportAbsent (t : Text) : (reportAbsent t).Only (Knows names) :=
  Only.bind (only_ask trivial only_done) fun _ => only_pure _

/-- A command knows no variable but those that the way to its directory asks for. -/
theorem Command.only_run (c : Command) (hd : d.Only (Knows names)) :
    (c.run d).Only (Knows names) := by
  have hopen := only_openStore hd
  have hsave : ∀ s : Store, s.save.Only (Knows names) :=
    fun s => s.only_save.mono fun _ => Inner.knows
  have hfiles : ∀ {α : Type} {q : Program α}, q.Only OnFiles → q.Only (Knows names) :=
    fun h => h.mono fun _ h => (OnFiles.inner h).knows
  unfold run
  cases c with
  | set kind ref label origin unspendable =>
    refine ((only_ofExcept _).bind fun r => hopen.bind fun s => (hsave _).bind fun _ => ?_).bind
      fun _ => only_pure _
    exact only_print _
  | get kind ref =>
    refine hopen.bind fun s => (only_ofExcept _).bind fun wanted => ?_
    split
    · exact only_reportAbsent _
    · split
      · exact only_reportAbsent _
      · exact (only_print _).bind fun _ => only_pure _
  | list kind =>
    refine (hopen.bind fun s => ?_).bind fun _ => only_pure _
    exact (only_forIn (fun r => only_print _) _).bind fun _ => only_pure _
  | importFile file =>
    refine ((only_ofExcept _).bind fun p => ?_).bind fun _ => only_pure _
    refine (hfiles (LabelFile.only_read _)).bind fun incoming => hopen.bind fun s => ?_
    exact (hsave _).bind fun _ => only_print _
  | exportFile file =>
    refine (hopen.bind fun s => (only_ofExcept _).bind fun name => ?_).bind fun _ => only_pure _
    refine (only_ofExcept _).bind fun p => ?_
    exact (hfiles (LabelFile.only_write _ _)).bind fun _ => only_print _

theorem only_report {q : Program (Option Nat)} (hq : q.Only (Knows names)) :
    (report q).Only (Knows names) := by
  have hlog : ∀ level message, (Program.log level message).Only (Knows names) :=
    fun _ _ => (only_log _ _).mono fun _ => Inner.knows
  unfold report
  refine hq.outcome.bind fun r => ?_
  split
  · exact only_pure _
  · split
    · exact (hlog _ _).bind fun _ => only_pure _
    · split
      · exact (hlog _ _).bind fun _ => only_pure _
      · exact only_fail _

end CommandLine

end LabelBook
