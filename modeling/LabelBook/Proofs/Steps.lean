import LabelBook.Proofs.Running

/-!
Programs step by step. A program leads from a world to worlds that stand in some relation to it, whether
it comes to a value or fails, and if it comes to a value then something holds. When the relation is a
preorder this is put together from the steps of the program: what was known at the start is known after
each step by way of the relation, and only what the steps themselves say has to be carried along. Of a
program that does something for good in the end one can say less: where it leads if it fails. And of a
program one can say what its failures are, wherever it is run.
-/

namespace LabelBook.Program

variable {α β : Type} {R S : World → World → Prop} {P Q : α → World → Prop} {T : β → World → Prop}
  {w : World} {q : Program α} {f : Failure}

/-- A program that leads from a world only to worlds in a relation to it, and if it comes to a value then
something holds of it. -/
structure Leads (R : World → World → Prop) (q : Program α) (Q : α → World → Prop) (w : World) : Prop where
  step : R w (q.run w).2
  value : ∀ a, (q.run w).1 = .ok a → Q a (q.run w).2

theorem Leads.of_run {r : Except Failure α} {v : World} (hrun : q.run w = (r, v)) (hstep : R w v)
    (hvalue : ∀ a, r = .ok a → Q a v) : q.Leads R Q w := by
  constructor
  · rw [hrun]
    exact hstep
  · rw [hrun]
    exact hvalue

theorem Leads.of_error {v : World} (hrun : q.run w = (.error f, v)) (hstep : R w v) :
    q.Leads R Q w := .of_run hrun hstep fun _ ha => by cases ha

/-- Only how a program runs counts. -/
theorem Leads.congr {q' : Program α} (hrun : q.run w = q'.run w) (h : q'.Leads R Q w) : q.Leads R Q w :=
  ⟨hrun ▸ h.step, hrun ▸ h.value⟩

theorem Leads.imp (h : q.Leads R P w) (himp : ∀ a v, P a v → Q a v) : q.Leads R Q w :=
  ⟨h.step, fun a ha => himp a _ (h.value a ha)⟩

theorem Leads.mono (h : q.Leads R Q w) (himp : ∀ v, R w v → S w v) : q.Leads S Q w :=
  ⟨himp _ h.step, h.value⟩

/-- A step whose failure is looked at. -/
theorem Leads.outcome (h : q.Leads R Q w) :
    q.outcome.Leads R (fun r v => ∀ a, r = .ok a → Q a v) w :=
  .of_run (run_outcome q) h.step fun _ hr => Except.ok.inj hr ▸ h.value

/-- A program that, if it fails, leads from a world to one in a relation to it. -/
def FailsIn (R : World → World → Prop) (q : Program α) (w : World) : Prop :=
  ∀ f v, q.run w = (.error f, v) → R w v

theorem Leads.failsIn (h : q.Leads R Q w) : q.FailsIn R w := by
  intro f v hrun
  have hstep := h.step
  rwa [hrun] at hstep

/-- A step that may fail, before others that do not. -/
theorem FailsIn.bind {k : α → Program β} (hq : q.FailsIn R w)
    (hk : ∀ a v, ∃ b u, (k a).run v = (.ok b, u)) : (q >>= k).FailsIn R w := by
  intro f u hrun
  rw [run_bind] at hrun
  rcases hq' : q.run w with ⟨g | a, v⟩
  · rw [hq'] at hrun
    obtain ⟨hfailure, rfl⟩ := Prod.mk.inj hrun
    exact hq g v hq'
  · rw [hq'] at hrun
    obtain ⟨b, x, hx⟩ := hk a v
    cases hx.symm.trans hrun

/-! ### Failures -/

/-- A program that fails with nothing but failures that have a property. -/
def FailsAs (F : Failure → Prop) (q : Program α) : Prop := ∀ w f, (q.run w).1 = .error f → F f

section FailsAs

variable {F G : Failure → Prop} {k : α → Program β}

theorem failsAs_pure (a : α) : (pure a : Program α).FailsAs F := fun _ _ h => by cases h

theorem failsAs_fail (h : F f) : (fail f : Program α).FailsAs F := fun _ _ hrun => Except.error.inj hrun ▸ h

theorem FailsAs.mono (h : q.FailsAs F) (himp : ∀ f, F f → G f) : q.FailsAs G :=
  fun w f hrun => himp f (h w f hrun)

theorem FailsAs.bind (hq : q.FailsAs F) (hk : ∀ a, (k a).FailsAs F) : (q >>= k).FailsAs F := by
  intro w f hrun
  rw [run_bind] at hrun
  rcases hvalue : q.run w with ⟨g | a, v⟩
  · rw [hvalue] at hrun
    exact Except.error.inj hrun ▸ hq w g (by rw [hvalue])
  · rw [hvalue] at hrun
    exact hk a v f hrun

theorem FailsAs.orElse {k : Failure → Program α} (hq : q.FailsAs F)
    (hk : ∀ f, F f → (k f).FailsAs G) : (q.orElse k).FailsAs G := by
  intro w f hrun
  rw [run_orElse] at hrun
  rcases hvalue : q.run w with ⟨g | a, v⟩
  · rw [hvalue] at hrun
    exact hk g (hq w g (by rw [hvalue])) v f hrun
  · rw [hvalue] at hrun
    cases hrun

/-- A step whose failure is looked at, before others. -/
theorem FailsAs.outcome_bind {k : Except Failure α → Program β} (hq : q.FailsAs F)
    (hok : ∀ a, (k (.ok a)).FailsAs G) (herror : ∀ f, F f → (k (.error f)).FailsAs G) :
    (q.outcome >>= k).FailsAs G := by
  intro w f hrun
  rw [run_outcome_bind] at hrun
  rcases hvalue : q.run w with ⟨g | a, v⟩
  · rw [hvalue] at hrun
    exact herror g (hq w g (by rw [hvalue])) v f hrun
  · rw [hvalue] at hrun
    exact hok a v f hrun

end FailsAs

variable [IsPreorder World R]

theorem Leads.pure {a : α} (h : Q a w) : (pure a : Program α).Leads R Q w :=
  .of_run rfl (refl_of R w) fun _ hb => Except.ok.inj hb ▸ h

theorem failsIn_fail : (fail f : Program α).FailsIn R w := by
  rintro g v ⟨⟩
  exact refl_of R w

theorem Leads.fail : (fail f : Program α).Leads R Q w := .of_error rfl (refl_of R w)

/-- Steps one after another. -/
theorem Leads.bind {k : α → Program β} (hq : q.Leads R Q w)
    (hk : ∀ a v, R w v → Q a v → (k a).Leads R T v) : (q >>= k).Leads R T w := by
  obtain ⟨hstep, hvalue⟩ := hq
  rcases hrun : q.run w with ⟨f | a, v⟩
  · rw [hrun] at hstep
    exact .of_error (run_bind_error hrun k) hstep
  · rw [hrun] at hstep hvalue
    obtain ⟨hstep', hvalue'⟩ := hk a v hstep (hvalue a rfl)
    exact .of_run (run_bind_ok hrun k) (trans_of R hstep hstep') hvalue'

/-- Steps one after another, of which the last may fail. -/
theorem Leads.bind_failsIn {k : α → Program β} (hq : q.Leads R Q w)
    (hk : ∀ a v, R w v → Q a v → (k a).FailsIn R v) : (q >>= k).FailsIn R w := by
  intro f u hrun
  obtain ⟨hstep, hvalue⟩ := hq
  rw [run_bind] at hrun
  rcases hq : q.run w with ⟨g | a, v⟩
  · rw [hq] at hrun hstep
    exact (Prod.mk.inj hrun).2 ▸ hstep
  · rw [hq] at hrun hstep hvalue
    exact trans_of R hstep (hk a v hstep (hvalue a rfl) f u hrun)

/-- A step with another in case it fails. -/
theorem Leads.orElse {k : Failure → Program α} (hq : q.Leads R Q w)
    (hk : ∀ f v, R w v → (k f).Leads R Q v) : (q.orElse k).Leads R Q w := by
  obtain ⟨hstep, hvalue⟩ := hq
  have horElse := run_orElse (w := w) q k
  rcases hrun : q.run w with ⟨f | a, v⟩
  · rw [hrun] at hstep horElse
    obtain ⟨hstep', hvalue'⟩ := hk f v hstep
    exact .of_run horElse (trans_of R hstep hstep') hvalue'
  · rw [hrun] at hstep hvalue horElse
    exact .of_run horElse hstep hvalue

/-- A step that is taken under a condition, before others. -/
theorem Leads.optional {c : Prop} [Decidable c] {q : Program Unit} {k : Unit → Program β}
    (hq : q.Leads R (fun _ _ => True) w) (hk : ∀ v, R w v → (k ()).Leads R T v) :
    (if c then q >>= k else k ()).Leads R T w := by
  split
  · exact hq.bind fun _ v hstep _ => hk v hstep
  · exact hk w (refl_of R w)

/-- A step for each of some things, one after another. -/
theorem leads_forIn {γ : Type} {k : γ → Program Unit}
    (hk : ∀ c v, (k c).Leads R (fun _ _ => True) v) : ∀ (cs : List γ) (w : World),
    (forIn cs PUnit.unit fun c _ => do
      k c
      return ForInStep.yield PUnit.unit : Program PUnit).Leads R (fun _ _ => True) w
  | [], _ => .pure trivial
  | c :: cs, w => by
    rw [List.forIn_cons]
    refine Leads.bind (Q := fun step _ => step = .yield PUnit.unit) ?_ ?_
    · exact (hk c w).bind fun _ _ _ _ => .pure rfl
    · rintro _ v - rfl
      exact leads_forIn hk cs v

/-! ### Programs that only ask -/

theorem Asks.leads (h : q.Asks) : q.Leads R (fun _ _ => True) w :=
  .of_run (h.run w) (refl_of R w) fun _ _ => trivial

theorem Asks.bind_failsIn {k : α → Program β} (h : q.Asks)
    (hk : ∀ a, q.run w = (.ok a, w) → (k a).FailsIn R w) : (q >>= k).FailsIn R w := by
  intro f v hrun
  rw [run_bind, h.run w] at hrun
  rcases hq : (q.run w).1 with g | a
  · rw [hq] at hrun
    exact (Prod.mk.inj hrun).2 ▸ refl_of R w
  · rw [hq] at hrun
    exact hk a (by rw [h.run w, hq]) f v hrun

end LabelBook.Program
