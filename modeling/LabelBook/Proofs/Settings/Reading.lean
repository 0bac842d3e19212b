import LabelBook.Proofs.Record.Acceptance
import LabelBook.Proofs.Settings.Loading

/-!
What is accepted as settings. A document is accepted exactly if it is a table, the directory of the
labels that it asks for is found, and its part about the log gives a level and a place for the log files.
-/

namespace LabelBook

theorem Except.bind_eq_ok_iff {ε α β : Type} {x : Except ε α} {f : α → Except ε β} {b : β} :
    x >>= f = .ok b ↔ ∃ a, x = .ok a ∧ f a = .ok b := by
  cases x <;> simp [bind, Except.bind]

theorem Except.map_ok_eq_ok_iff {ε δ α : Type} {x : Except ε α} {a : α} :
    x.map (Except.ok (ε := δ)) = .ok (.ok a) ↔ x = .ok a := by
  cases x <;> simp [Except.map]

namespace Program

variable {α β : Type} {w : World}

/-- A program before a step that cannot fail. -/
theorem run_bind_pure (q : Program α) (f : α → β) :
    ((q >>= fun a => (pure (f a) : Program β)).run w).1 = (q.run w).1.map f := by
  rw [run_bind]
  rcases q.run w with ⟨_ | _, _⟩ <;> rfl

end Program

namespace Settings

open Program

variable {α : Type} {w : World} {p : Path} {d : Datum} {fields : List (Text × Datum)}

/-! ### The part about the labels -/

theorem judged_eq_ok_iff {r : Except Failure α} {a : α} : judged r = .ok (.ok a) ↔ r = .ok a := by
  rcases r with f | b
  · unfold judged
    dsimp only
    split <;> simp
  · simp [judged]

theorem violationOf_eq_ok_iff {q : Program α} {a : α} :
    ((violationOf q).run w).1 = .ok (.ok a) ↔ (q.run w).1 = .ok a := by
  rw [run_violationOf]
  exact judged_eq_ok_iff

theorem defaultStore_eq_ok_iff {s : StoreSettings} :
    (defaultStore.run w).1 = .ok s ↔ (defaultDirectory.run w).1 = .ok s.dataDirectory := by
  rw [defaultStore, run_bind_pure]
  rcases (defaultDirectory.run w).1 with f | q
  · simp [Except.map]
  · obtain ⟨p⟩ := s
    simp [Except.map]

theorem readStore_eq_ok_iff {s : StoreSettings} : ((readStore d).run w).1 = .ok (.ok s) ↔
    ∃ q, askedOf? d = some q ∧ (q.run w).1 = .ok s.dataDirectory := by
  cases d with
  | table fields =>
    simp only [askedOf?, readStore]
    rcases Datum.get? "data_dir" fields with - | d
    · rw [run_bind_pure, Except.map_ok_eq_ok_iff, defaultStore_eq_ok_iff]
      simp
    · have hread := violationOf_eq_ok_iff (w := w) (q := directoryOf d) (a := s.dataDirectory)
      simp only [Option.some.injEq, exists_eq_left', ← hread]
      rw [← readDirectory, run_bind]
      rcases (readDirectory d).run w with ⟨f | e | p, v⟩
      · simp
      · simp
      · obtain ⟨q⟩ := s
        simp
  | _ => simp [askedOf?, readStore]

theorem storeIn_eq_ok_iff {s : StoreSettings} : ((storeIn fields).run w).1 = .ok (.ok s) ↔
    ∃ q, askedIn? (.table fields) = some q ∧ (q.run w).1 = .ok s.dataDirectory := by
  simp only [storeIn, askedIn?]
  rcases Datum.get? "store" fields with - | d
  · rw [run_bind_pure, Except.map_ok_eq_ok_iff, defaultStore_eq_ok_iff]
    simp
  · exact readStore_eq_ok_iff

/-! ### The part about the log -/

theorem readField_eq_ok_iff {name : Text} {absent a : α}
    {read : Datum → Except Failure (Except Violation α)} :
    readField name absent read fields = .ok (.ok a) ↔
      Datum.get? name fields = none ∧ a = absent ∨
        ∃ d, Datum.get? name fields = some d ∧ read d = .ok (.ok a) := by
  unfold readField
  rcases Datum.get? name fields with - | d
  · simp [eq_comm]
  · dsimp only
    rcases hread : read d with f | r
    · simp [hread, Except.map]
    · simp [hread, Except.map, Except.mapError_eq_ok_iff]

theorem logOf_eq_ok_iff {verbosity : Except Issue Verbosity} {directory : Except Issue (Option Path)}
    {l : LogSettings} :
    logOf verbosity directory = .ok l ↔ verbosity = .ok l.verbosity ∧ directory = .ok l.directory := by
  obtain ⟨v, o⟩ := l
  rcases verbosity with i | v' <;> rcases directory with j | o' <;> simp [logOf]

theorem readLog_eq_ok_iff {l : LogSettings} : readLog (.table fields) = .ok (.ok l) ↔
    readField "level" .info readVerbosity fields = .ok (.ok l.verbosity) ∧
      readField "log_dir" none readLogDirectory fields = .ok (.ok l.directory) := by
  simp only [readLog, Except.bind_eq_ok_iff, pure, Except.pure, Except.ok.injEq, logOf_eq_ok_iff]
  simp

/-! ### The document as a whole -/

theorem ofParts_eq_ok_iff {store : Except (List Issue) StoreSettings}
    {log : Except (List Issue) LogSettings} {s : Settings} :
    ofParts store log = .ok s ↔ store = .ok s.store ∧ log = .ok s.log := by
  obtain ⟨t, l⟩ := s
  rcases store with issues | t' <;> rcases log with issues' | l' <;> simp [ofParts]

theorem ofDatum_eq_ok_iff {s : Settings} : ((ofDatum d).run w).1 = .ok (.ok s) ↔
    ∃ fields, d = .table fields ∧ logIn fields = .ok (.ok s.log) ∧
      ∃ q, askedIn? d = some q ∧ (q.run w).1 = .ok s.store.dataDirectory := by
  cases d with
  | table fields =>
    have hstore : ((storeIn fields).run w).1 = .ok (.ok s.store) ↔ _ := storeIn_eq_ok_iff
    simp only [Datum.table.injEq, exists_eq_left', ← hstore]
    rw [ofDatum, run_bind]
    rcases (storeIn fields).run w with ⟨f | store, v⟩
    · simp
    · dsimp only
      rw [run_bind_pure, run_ofExcept]
      rcases logIn fields with f | log
      · simp [Except.map]
      · simp [Except.map, ofParts_eq_ok_iff, and_comm]
  | _ => simp [ofDatum]

/-- A world without files in which one has a home directory. -/
def homeWorld : World := ⟨⟨[], [], 0⟩, [], [("HOME", "/h")], [], none, 0, [], [], .initial⟩

end Settings

end LabelBook
