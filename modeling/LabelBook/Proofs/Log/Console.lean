import LabelBook.Proofs.Requests
import LabelBook.Proofs.Store.Failing

/-!
What is written to the console on the way. Standard output is left to the commands: neither files nor the
log write anything there, and on standard error they leave nothing but lines of the log.
-/

namespace LabelBook

open Request (Inner)

/-- A world in which nothing has been written to the console since another but lines of the log. -/
structure World.Mutters (w v : World) : Prop where
  printed : v.printed = w.printed
  warned : ∃ lines, (∀ t ∈ lines, IsLogLine t) ∧ v.warned = lines ++ w.warned

namespace World

variable {w v u : World} {names : List Text}

theorem Mutters.of_same (hprinted : v.printed = w.printed) (hwarned : v.warned = w.warned) :
    w.Mutters v := ⟨hprinted, [], by simp, hwarned⟩

instance : IsPreorder World Mutters where
  refl _ := .of_same rfl rfl
  trans u v w h h' := by
    obtain ⟨hprinted, lines, hlines, hwarned⟩ := h
    obtain ⟨hprinted', lines', hlines', hwarned'⟩ := h'
    refine ⟨hprinted'.trans hprinted, lines' ++ lines, ?_, ?_⟩
    · intro t ht
      exact (List.mem_append.mp ht).elim (hlines' t) (hlines t)
    · rw [hwarned', hwarned, List.append_assoc]

/-- A request that is made on the way leaves at most a line of the log. -/
theorem answer_mutters (w : World) {r : Request} (inner : r.Inner names) :
    w.Mutters (w.answer r).2 := by
  have hchange : ∀ aim p f, w.Mutters (w.change aim p f).2 := by
    intro aim p f
    rcases w.change_cases aim p f with ⟨e, he⟩ | ⟨l, t, -, -, he⟩ <;> rw [he] <;>
      exact .of_same rfl rfl
  cases r with
  | print t => exact inner.elim
  | warn t =>
    have hline : IsLogLine t := inner
    exact ⟨rfl, [t], by simpa using hline, rfl⟩
  | write _ _ | remove _ | makeDirectory _ => exact hchange _ _ _
  | openFile p =>
    show w.Mutters (w.openFile p).2
    rcases w.openFile_cases p with ⟨e, he⟩ | ⟨l, number, t, -, -, he⟩ <;> rw [he] <;>
      exact .of_same rfl rfl
  | rename source target =>
    show w.Mutters (w.rename source target).2
    rcases w.rename_cases source target with ⟨e, he⟩ | ⟨l, m, t, -, -, -, he⟩ <;> rw [he] <;>
      exact .of_same rfl rfl
  | home account => cases account <;> exact .of_same rfl rfl
  | read _ | extend _ _ | sizeOf _ | species _ | resolve _ | now | environment _ | logger
  | setLogger _ => exact .of_same rfl rfl

end World

/-- What is done on the way leaves nothing on the console but lines of the log. -/
theorem Program.Only.mutters {α : Type} {q : Program α} {names : List Text}
    (h : q.Only (Inner names)) (w : World) : w.Mutters (q.run w).2 :=
  h.leads (fun _ w => w.answer_mutters) w

theorem Log.mutters_setUp (level : Level) (asked : Option Path) (w : World) :
    w.Mutters ((setUp level asked).run w).2 :=
  (only_setUp (List.mem_pair.mpr (.inl rfl)) (List.mem_pair.mpr (.inr rfl)) level asked :
    (setUp level asked).Only (Inner ["HOME", directoryVariable])).mutters w

theorem Store.mutters_openIn (directory : Path) (w : World) :
    w.Mutters ((openIn directory).run w).2 :=
  (only_openIn directory : (openIn directory).Only (Inner [])).mutters w

theorem Store.mutters_save (s : Store) (w : World) : w.Mutters (s.save.run w).2 :=
  (only_save s : s.save.Only (Inner [])).mutters w

end LabelBook
