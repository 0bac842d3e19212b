import LabelBook.CommandLine.Run
import LabelBook.Proofs.Running

/-!
Programs that only ask. Finding home directories, the directory of the log files and the settings, and
reading a label file, leave the world as it is, whatever they come to.
-/

namespace LabelBook

namespace Program

theorem asks_read (p : Path) : (read p).Asks := by
  intro w
  rw [run_read]

end Program

/-! ### Home directories -/

/-- A world with the environment and the accounts of another. -/
structure World.SameHomes (w v : World) : Prop where
  environment : v.environment = w.environment
  accounts : v.accounts = w.accounts
  ownHome : v.ownHome = w.ownHome

theorem World.SameHomes.refl (w : World) : w.SameHomes w := ⟨rfl, rfl, rfl⟩

theorem World.SameHomes.trans {u v w : World} (h : u.SameHomes v) (h' : v.SameHomes w) :
    u.SameHomes w :=
  ⟨h'.environment.trans h.environment, h'.accounts.trans h.accounts, h'.ownHome.trans h.ownHome⟩

/-- Nothing that is asked for changes the environment or the accounts, or takes time. -/
theorem World.answer_steady (w : World) (r : Request) :
    w.SameHomes (w.answer r).2 ∧ (w.answer r).2.now = w.now := by
  have hsame : ∀ t, w.SameHomes { w with tree := t } ∧ { w with tree := t }.now = w.now :=
    fun _ => ⟨⟨rfl, rfl, rfl⟩, rfl⟩
  have hchange : ∀ aim p f, w.SameHomes (w.change aim p f).2 ∧ (w.change aim p f).2.now = w.now := by
    intro aim p f
    unfold World.change
    split
    · exact hsame w.tree
    · split
      · exact hsame w.tree
      · exact hsame _
  cases r with
  | write _ _ | remove _ | makeDirectory _ => exact hchange _ _ _
  | openFile p =>
    simp only [World.answer, World.openFile]
    split
    · exact hsame w.tree
    · split
      · exact hsame w.tree
      · exact hsame _
  | rename source target =>
    simp only [World.answer, World.rename]
    split
    · exact hsame w.tree
    · exact hsame w.tree
    · split
      · exact hsame w.tree
      · split
        · exact hsame w.tree
        · exact hsame _
  | home account => cases account <;> exact hsame w.tree
  | read _ | extend _ _ | sizeOf _ | species _ | resolve _ | now | environment _ | print _ | warn _
  | logger | setLogger _ => exact ⟨⟨rfl, rfl, rfl⟩, rfl⟩

namespace Program

variable {α β : Type}

/-- No program changes the environment or the accounts. -/
theorem run_sameHomes (q : Program α) : ∀ w : World, w.SameHomes (q.run w).2 := by
  induction q with
  | done a | fail f => exact World.SameHomes.refl
  | ask r next ih =>
    intro w
    rw [run_ask]
    exact (w.answer_steady r).1.trans (ih _ _)

/-- No program takes time. -/
theorem run_time (q : Program α) : ∀ w : World, (q.run w).2.now = w.now := by
  induction q with
  | done a | fail f => exact fun _ => rfl
  | ask r next ih =>
    intro w
    rw [run_ask]
    exact (ih _ _).trans (w.answer_steady r).2

theorem sameHomes_of_run {q : Program α} {r : Except Failure α} {w v : World}
    (h : q.run w = (r, v)) : w.SameHomes v := by
  have same := run_sameHomes q w
  rwa [h] at same

theorem now_of_run {q : Program α} {r : Except Failure α} {w v : World} (h : q.run w = (r, v)) :
    v.now = w.now := by
  have htime := run_time q w
  rwa [h] at htime

/-- A program that changes nothing, and whose value rests on the environment and the accounts alone. -/
def Homely (q : Program α) : Prop := ∀ w v : World, w.SameHomes v → q.run v = ((q.run w).1, v)

theorem Homely.asks {q : Program α} (h : q.Homely) : q.Asks := fun w => by rw [h w w (.refl w)]

/-- What such a program comes to stays what it is, whatever other programs have run. -/
theorem Homely.after {q : Program α} (h : q.Homely) {r : Except Failure α} {w v : World}
    (hrun : q.run w = (r, w)) (same : w.SameHomes v) : q.run v = (r, v) := by
  rw [h w v same, hrun]

theorem homely_done (a : α) : (done a).Homely := fun _ _ _ => rfl

theorem homely_pure (a : α) : (pure a : Program α).Homely := fun _ _ _ => rfl

theorem homely_fail (f : Failure) : (fail f : Program α).Homely := fun _ _ _ => rfl

theorem Homely.bind {q : Program α} {k : α → Program β} (hq : q.Homely) (hk : ∀ a, (k a).Homely) :
    (q >>= k).Homely := by
  intro w v same
  rw [run_bind, run_bind, hq w v same, hq w w (.refl w)]
  rcases (q.run w).1 with f | a
  · rfl
  · exact hk a w v same

theorem homely_environment? (name : Text) : (environment? name).Homely := by
  intro w v same
  simp only [environment?, run_ask, World.answer, run_done, same.environment]

theorem homely_home? (account : Option Text) : (home? account).Homely := by
  intro w v same
  cases account <;> simp only [home?, run_ask, World.answer, run_done, same.ownHome, same.accounts]

theorem homely_checkAccount (name : Text) : (checkAccount name).Homely := by
  unfold checkAccount
  split
  · exact homely_fail _
  · split
    · exact homely_fail _
    · exact homely_done _

theorem homely_homeOf (account : Text) : (homeOf account).Homely := by
  unfold homeOf
  split
  · refine (homely_environment? _).bind fun t => ?_
    split
    · exact homely_pure _
    · exact homely_home? _
  · exact (homely_checkAccount _).bind fun _ => homely_home? _

theorem homely_expandHome (p : Path) : (expandHome p).Homely := by
  unfold expandHome
  split
  · refine (homely_homeOf _).bind fun t => ?_
    split
    · exact homely_fail _
    · dsimp only
      split
      · exact homely_fail _
      · exact homely_pure _
  · exact homely_done _

theorem homely_belowHome (names : List Text) : (belowHome names).Homely :=
  (homely_expandHome _).bind fun _ => homely_pure _

end Program

/-! ### Settings -/

namespace Settings

open Program

theorem homely_defaultDirectory : defaultDirectory.Homely := by
  unfold defaultDirectory
  refine (homely_environment? _).bind fun t => ?_
  split
  · exact homely_expandHome _
  · exact homely_belowHome _

theorem asks_defaultDirectory : defaultDirectory.Asks := homely_defaultDirectory.asks

theorem asks_violationOf {α : Type} {q : Program α} (h : q.Asks) : (violationOf q).Asks :=
  h.outcome.bind fun _ => asks_ofExcept _

theorem asks_directoryNamed (t : Text) : (directoryNamed t).Asks := by
  unfold directoryNamed
  dsimp only
  split
  · exact asks_defaultDirectory
  · exact (homely_expandHome _).asks

theorem asks_directoryOf (d : Datum) : (directoryOf d).Asks := by
  unfold directoryOf
  split
  · exact asks_defaultDirectory
  · exact (asks_ofExcept _).bind asks_directoryNamed

theorem asks_readDirectory (d : Datum) : (readDirectory d).Asks := asks_violationOf (asks_directoryOf d)

theorem homely_defaultStore : defaultStore.Homely :=
  homely_defaultDirectory.bind fun _ => homely_pure _

theorem asks_defaultStore : defaultStore.Asks := homely_defaultStore.asks

theorem homely_default : default.Homely := homely_defaultStore.bind fun _ => homely_pure _

theorem asks_default : default.Asks := homely_default.asks

theorem asks_readStore (d : Datum) : (readStore d).Asks := by
  unfold readStore
  split
  · split
    · exact asks_defaultStore.bind fun _ => asks_pure _
    · refine (asks_readDirectory _).bind fun r => ?_
      split <;> exact asks_pure _
  · exact asks_pure _

theorem asks_storeIn (fields : List (Text × Datum)) : (storeIn fields).Asks := by
  unfold storeIn
  split
  · exact asks_defaultStore.bind fun _ => asks_pure _
  · exact asks_readStore _

theorem asks_ofDatum (d : Datum) : (ofDatum d).Asks := by
  unfold ofDatum
  split
  · exact (asks_storeIn _).bind fun _ => (asks_ofExcept _).bind fun _ => asks_pure _
  · exact asks_pure _

theorem asks_load (p : Path) : (load p).Asks := by
  unfold load
  refine (asks_read p).bind fun content => (asks_ofExcept _).bind fun d => (asks_ofDatum d).bind fun r => ?_
  split
  · exact asks_pure _
  · exact asks_fail _

end Settings

end LabelBook
