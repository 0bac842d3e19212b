import LabelBook.Log.Emit
import LabelBook.World
import Mathlib

/-!
Running programs on worlds. A program runs its parts one after another, and a failure ends it where it
happens. Logging to the console alone changes nothing but what has been written there and the log
itself: the files, the directory one is in and the time stay as they are.
-/

namespace LabelBook

namespace Program

variable {α β : Type} {w : World}

@[simp] theorem run_done (a : α) : (Program.done a).run w = (.ok a, w) := rfl

@[simp] theorem run_pure (a : α) : (pure a : Program α).run w = (.ok a, w) := rfl

@[simp] theorem run_fail (f : Failure) : (Program.fail f : Program α).run w = (.error f, w) := rfl

theorem run_ask (r : Request) (next : r.Answer → Program α) :
    (Program.ask r next).run w = (next (w.answer r).1).run (w.answer r).2 := rfl

theorem run_andThen (p : Program α) (k : α → Program β) : (p.andThen k).run w =
    match p.run w with
    | (.ok a, v) => (k a).run v
    | (.error f, v) => (.error f, v) := by
  induction p generalizing w with
  | done a => rfl
  | fail f => rfl
  | ask r next ih => rw [andThen, run_ask, ih, run_ask]

theorem run_bind (p : Program α) (k : α → Program β) : (p >>= k).run w =
    match p.run w with
    | (.ok a, v) => (k a).run v
    | (.error f, v) => (.error f, v) := run_andThen p k

theorem run_bind_ok {p : Program α} {a : α} {v : World} (h : p.run w = (.ok a, v))
    (k : α → Program β) : (p >>= k).run w = (k a).run v := by rw [run_bind, h]

theorem run_bind_error {p : Program α} {f : Failure} {v : World} (h : p.run w = (.error f, v))
    (k : α → Program β) : (p >>= k).run w = (.error f, v) := by rw [run_bind, h]

theorem run_orElse (p : Program α) (k : Failure → Program α) : (p.orElse k).run w =
    match p.run w with
    | (.ok a, v) => (.ok a, v)
    | (.error f, v) => (k f).run v := by
  induction p generalizing w with
  | done a => rfl
  | fail f => rfl
  | ask r next ih => rw [orElse, run_ask, ih, run_ask]

/-- The outcome of a program is what it ends with. -/
@[simp] theorem run_outcome (p : Program α) : p.outcome.run w = (.ok (p.run w).1, (p.run w).2) := by
  rw [outcome, run_orElse, run_andThen]
  rcases p.run w with ⟨_ | _, v⟩ <;> rfl

theorem run_outcome_bind (p : Program α) (k : Except Failure α → Program β) :
    (p.outcome >>= k).run w = (k (p.run w).1).run (p.run w).2 := by rw [run_bind, run_outcome]

@[simp] theorem run_ofExcept (e : Except Failure α) : (ofExcept e).run w = (e, w) := by
  cases e <;> rfl

theorem run_attempt (r : Request) (answer : r.Answer → Except Refusal α) :
    (attempt r answer).run w =
      ((answer (w.answer r).1).mapError .refused, (w.answer r).2) := by
  rw [attempt, run_ask]
  cases h : answer (w.answer r).1 <;> simp [Except.mapError]

theorem run_read (p : Path) : (read p).run w = ((w.read p).mapError .refused, w) := run_attempt _ _

theorem run_write (p : Path) (content : Octets) : (write p content).run w =
    ((w.change .writing p fun l => w.tree.write l content).1.mapError .refused,
      (w.change .writing p fun l => w.tree.write l content).2) := run_attempt _ _

theorem run_rename (source target : Path) : (rename source target).run w =
    ((w.rename source target).1.mapError .refused, (w.rename source target).2) := run_attempt _ _

theorem run_remove (p : Path) : (remove p).run w =
    ((w.change .entry p w.tree.remove).1.mapError .refused, (w.change .entry p w.tree.remove).2) :=
  run_attempt _ _

theorem run_resolve (p : Path) :
    (resolve p).run w = ((w.resolve p).mapError .refused, w) := run_attempt _ _

theorem run_now : now.run w = (.ok w.now, w) := rfl

theorem run_logger : logger.run w = (.ok w.logger, w) := rfl

/-! ### Programs that only ask -/

/-- A program that changes nothing. -/
def Asks (q : Program α) : Prop := ∀ w, (q.run w).2 = w

theorem Asks.run {q : Program α} (h : q.Asks) (w : World) : q.run w = ((q.run w).1, w) :=
  Prod.ext rfl (h w)

theorem asks_done (a : α) : (done a).Asks := fun _ => rfl

theorem asks_pure (a : α) : (pure a : Program α).Asks := fun _ => rfl

theorem asks_fail (f : Failure) : (fail f : Program α).Asks := fun _ => rfl

theorem Asks.ask {r : Request} {next : r.Answer → Program α} (hr : ∀ w : World, (w.answer r).2 = w)
    (hnext : ∀ a, (next a).Asks) : (ask r next).Asks := by
  intro w
  rw [run_ask, hnext, hr]

theorem Asks.bind {q : Program α} {k : α → Program β} (hq : q.Asks) (hk : ∀ a, (k a).Asks) :
    (q >>= k).Asks := by
  intro w
  rw [run_bind, hq.run w]
  rcases (q.run w).1 with f | a
  · rfl
  · exact hk a w

theorem Asks.outcome {q : Program α} (h : q.Asks) : q.outcome.Asks := by
  intro w
  rw [run_outcome]
  exact h w

theorem asks_ofExcept (r : Except Failure α) : (ofExcept r).Asks := by
  intro w
  rw [run_ofExcept]

theorem asks_now : now.Asks := fun _ => rfl

theorem asks_sizeOf (s : Stream) : (sizeOf s).Asks := fun _ => rfl

theorem asks_exists? (p : Path) : (exists? p).Asks :=
  .ask (fun _ => rfl) fun s => by
    split
    · exact asks_done _
    · split
      · exact asks_done _
      · exact asks_fail _
    · exact asks_done _

theorem asks_species? (p : Path) : (species? p).Asks :=
  .ask (fun _ => rfl) fun s => by split <;> exact asks_done _

theorem asks_isDirectory (p : Path) : (isDirectory p).Asks :=
  .ask (fun _ => rfl) fun s => by
    split
    · exact asks_done _
    · split
      · exact asks_done _
      · exact asks_fail _
    · exact asks_done _

end Program

/-! ### Logging to the console -/

/-- A log whose events go nowhere but to the console. -/
def World.Quiet (w : World) : Prop := ∀ o ∈ w.logger.outlets, o.sink = .console

/-- A world that differs from another in nothing but what has been told. -/
structure World.SameFiles (w v : World) : Prop where
  tree : v.tree = w.tree
  here : v.here = w.here
  now : v.now = w.now
  quiet : v.Quiet

theorem World.SameFiles.trans {u v w : World} (h : u.SameFiles v) (h' : v.SameFiles w) :
    u.SameFiles w :=
  ⟨h'.tree.trans h.tree, h'.here.trans h.here, h'.now.trans h.now, h'.quiet⟩

theorem Outlet.run_emit {o : Outlet} (h : o.sink = .console) (e : Event) (w : World) :
    ∃ told, (o.emit e).run w = (.ok o, { w with warned := told }) := by
  unfold Outlet.emit
  split
  · exact ⟨w.warned, rfl⟩
  · rw [h]
    dsimp only
    split
    · next t _ => exact ⟨t :: w.warned, rfl⟩
    · exact ⟨w.warned, rfl⟩

theorem Outlet.run_emitAll (e : Event) : ∀ {os : List Outlet} (w : World),
    (∀ o ∈ os, o.sink = .console) →
    ∃ told, (Outlet.emitAll e os).run w = (.ok os, { w with warned := told })
  | [], w, _ => ⟨w.warned, rfl⟩
  | o :: os, w, h => by
    obtain ⟨told, ho⟩ := Outlet.run_emit (h o List.mem_cons_self) e w
    obtain ⟨told', hos⟩ := Outlet.run_emitAll e { w with warned := told }
      fun p hp => h p (List.mem_cons_of_mem o hp)
    refine ⟨told', ?_⟩
    rw [emitAll, Program.run_bind_ok ho, Program.run_bind_ok hos]
    rfl

/-- Logging does not fail, and leaves the files alone if no outlet leads to one. -/
theorem Program.run_logEvent {w : World} (h : w.Quiet) (e : Event) :
    ∃ v, (Program.logEvent e).run w = (.ok (), v) ∧ w.SameFiles v := by
  unfold Program.logEvent
  rw [Program.run_bind_ok Program.run_logger]
  split
  · obtain ⟨told, ho⟩ := Outlet.run_emitAll e w h
    rw [Program.run_bind_ok ho]
    exact ⟨_, rfl, rfl, rfl, rfl, h⟩
  · exact ⟨w, rfl, rfl, rfl, rfl, h⟩

theorem Program.run_log {w : World} (h : w.Quiet) (level : Level) (message : Text) :
    ∃ v, (Program.log level message).run w = (.ok (), v) ∧ w.SameFiles v :=
  Program.run_logEvent h _

end LabelBook
