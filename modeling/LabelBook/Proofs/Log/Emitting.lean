import LabelBook.Proofs.Log.Files

/-!
Logging to files. Each step of writing an event to a file, and of making room for it, stays at the
places of the log files; what goes wrong is caught, so that an event is always dealt with, and
afterwards the outlets lead to the same files as before.
-/

namespace LabelBook

variable {L : Location} {w v : World} {t u : Tree} {may : Location → Prop} {f : LogFile} {e : Event}

/-- A log file of a directory, with the number of older files that all of them have. No directory and no
link stands at its place; if it is open, the open file is one of the log. -/
structure LogFile.In (L : Location) (t : Tree) (f : LogFile) : Prop where
  path : ∃ base ∈ Log.baseNames, f.path = .ofRoot (L ++ [base]) ∧ t.Plain (L ++ [base])
  backups : f.backups = Log.backups
  owned : ∀ s, f.stream = some s → Log.Owns L t s.number

/-- An outlet to the console or to a log file of a directory. -/
def Outlet.In (L : Location) (t : Tree) (o : Outlet) : Prop := ∀ f, o.sink = .file f → f.In L t

theorem LogFile.In.changed (h : f.In L t) (hchanged : Tree.Changed may t u)
    (hmay : (∀ m, may m → Log.At L m) ∨ ∀ m, may m → ¬ Log.At L m) : f.In L u :=
  have ⟨base, hbase, hpath, hplain⟩ := h.path
  ⟨⟨base, hbase, hpath, hchanged.ways.plain hplain⟩, h.backups,
    fun s hs => (h.owned s hs).changed hchanged hmay⟩

theorem LogFile.In.edits (h : f.In L w.tree) (hv : w.Edits (Log.At L) v) : f.In L v.tree :=
  h.changed hv.tree (Or.inl fun _ => id)

theorem LogFile.In.closed (h : f.In L t) : LogFile.In L t { f with stream := none } :=
  ⟨h.path, h.backups, fun _ hs => by cases hs⟩

theorem LogFile.older_eq {base : Text} (h : f.path = .ofRoot (L ++ [base])) (i : Nat) :
    f.older i = .ofRoot (L ++ [Log.olderName base i]) := by
  unfold LogFile.older Path.name
  rw [h]
  simp [Path.ofRoot, Log.olderName]

namespace Program

open Log World

/-! ### Moving on to other names -/

/-- A path that leads to no directory. -/
def Clear (w : World) (p : Path) : Prop :=
  ∀ l, w.locate .entry p = .ok l → w.tree.get? l ≠ some .directory

theorem Clear.changes {p : Path} (h : Clear w p) (hv : w.Changes may v) : Clear v p := by
  intro l hl
  rw [Ne, hv.tree.ways.directory_iff]
  exact h l (hv.locate_iff.mp hl)

theorem leads_remove_home {a : Text} (home : Home L w) (ha : a ∈ fileNames) :
    (remove (.ofRoot (L ++ [a]))).Leads (Edits (At L)) (fun _ v => Clear v (.ofRoot (L ++ [a]))) w := by
  have hmay : ∀ l, w.locate .entry (.ofRoot (L ++ [a])) = .ok l →
      At L l ∧ ∀ target, w.tree.get? l ≠ some (.link target) := by
    intro l hl
    rw [home.locate ha hl]
    exact ⟨⟨a, ha, rfl⟩, home.ground.links a ha⟩
  have hremove := leads_remove home.orderly hmay
  refine ⟨hremove.step, fun _ hrun l hl => ?_⟩
  exact (hremove.value _ hrun l (hremove.step.locate_iff.mp hl)).ne_directory

/-- What cannot be looked at is no directory, as the path leads nowhere then. -/
theorem run_species?_home {a : Text} (home : Home L w) (ha : a ∈ fileNames) :
    ∃ s, (species? (.ofRoot (L ++ [a]))).run w = (.ok s, w) ∧
      (s.isSome = false → Clear w (.ofRoot (L ++ [a]))) := by
  have hrun : (species? (.ofRoot (L ++ [a]))).run w =
      (.ok (w.species (.ofRoot (L ++ [a]))).toOption, w) := by
    rw [species?, run_ask]
    simp only [World.answer]
    rcases w.species (.ofRoot (L ++ [a])) with r | s <;> rfl
  refine ⟨_, hrun, fun hnone l hl hget => ?_⟩
  obtain ⟨links, spot⟩ := home.spot_of_locate ha hl
  rw [home.locate ha hl] at hget
  have hlocate := spot.locate_of_no_link (home.ground.links a ha) .target
  rw [species_of_locate hlocate, Tree.species, hget] at hnone
  cases hnone

/-- What stands under a name is taken away before something else is done; a directory is in the way. -/
theorem leads_clear {α : Type} {a : Text} {k : Unit → Program α} {Q : α → World → Prop} (home : Home L w)
    (ha : a ∈ fileNames) (hk : ∀ v, w.Edits (At L) v → Clear v (.ofRoot (L ++ [a])) →
      (k ()).Leads (Edits (At L)) Q v) :
    (species? (.ofRoot (L ++ [a])) >>= fun s =>
      if s.isSome then remove (.ofRoot (L ++ [a])) >>= k else k ()).Leads (Edits (At L)) Q w := by
  obtain ⟨s, hs, hclear⟩ := run_species?_home home ha
  refine .congr (run_bind_ok hs _) ?_
  split
  · exact (leads_remove_home home ha).bind fun _ v hv clear => hk v hv clear
  · next hnone => exact hk w (refl_of _ w) (hclear (Bool.eq_false_iff.mpr hnone))

/-- A directory is not moved: where one stands, another stands at the place to move to. -/
theorem leads_rename_home {a b : Text} (home : Home L w) (ha : a ∈ fileNames) (hb : b ∈ fileNames)
    (clear : Clear w (.ofRoot (L ++ [b])))
    (rising : w.tree.get? (L ++ [a]) = some .directory → w.tree.get? (L ++ [b]) = some .directory) :
    (rename (.ofRoot (L ++ [a])) (.ofRoot (L ++ [b]))).Leads (Edits (At L)) (fun _ _ => True) w := by
  refine leads_rename home.orderly ?_
  intro l m hl hm
  have hclear := clear m hm
  rw [home.locate hb hm] at hclear
  rw [home.locate ha hl, home.locate hb hm]
  exact ⟨⟨⟨a, ha, rfl⟩, Tree.plain_of_ne (mt rising hclear) (home.ground.links a ha)⟩,
    ⟨⟨b, hb, rfl⟩, Tree.plain_of_ne hclear (home.ground.links b hb)⟩, by simp⟩

theorem leads_shift {base : Text} {i : Nat} (home : Home L w) (hbase : base ∈ baseNames)
    (hi : i + 1 < backups.toNat) :
    (LogFile.shift (.ofRoot (L ++ [olderName base (i + 1)]))
      (.ofRoot (L ++ [olderName base (i + 2)]))).Leads (Edits (At L)) (fun _ _ => True) w := by
  have hsource := mem_fileNames_older hbase (Nat.lt_of_succ_lt hi)
  have htarget := mem_fileNames_older hbase hi
  unfold LogFile.shift
  refine (asks_species? _).leads.bind fun _ v hv _ => ?_
  split
  · refine leads_clear (home.changes hv.toChanges) htarget fun u hu clear => ?_
    have home' := (home.changes hv.toChanges).changes hu.toChanges
    exact leads_rename_home home' hsource htarget clear
      (home'.ground.rising base hbase (i + 1) (Nat.succ_pos i) hi)
  · exact .pure trivial

theorem leads_shiftOlder {base : Text} (hbase : base ∈ baseNames)
    (hpath : f.path = .ofRoot (L ++ [base])) : ∀ {i : Nat} {w : World}, i < backups.toNat →
    Home L w → (f.shiftOlder i).Leads (Edits (At L)) (fun _ _ => True) w
  | 0, _, _, _ => .pure trivial
  | i + 1, w, hi, home => by
    unfold LogFile.shiftOlder
    rw [LogFile.older_eq hpath, LogFile.older_eq hpath]
    refine (leads_shift home hbase hi).bind fun _ v hv _ => ?_
    exact leads_shiftOlder hbase hpath (Nat.lt_of_succ_lt hi) (home.changes hv.toChanges)

/-! ### Opening and making room -/

/-- A file that is opened at the path of a log file is one of the log. -/
theorem leads_openFile_home {base : Text} (home : Home L w) (hbase : base ∈ baseNames) :
    (openFile (.ofRoot (L ++ [base]))).Leads (Edits (At L)) (fun s v => Owns L v.tree s.number ∧
      v.tree.Plain (L ++ [base]) ∧ v.tree.get? L = some .directory) w := by
  have hmem := mem_fileNames_base hbase
  have hopen := leads_openFile home.orderly (p := .ofRoot (L ++ [base])) fun l hl =>
    (⟨base, hmem, home.locate hmem hl⟩ : At L l)
  refine ⟨hopen.step, ?_⟩
  intro s hs
  obtain ⟨l, content, hl, hfile⟩ := hopen.value s hs
  rw [home.locate hmem hl] at hfile
  have orderly := (home.changes hopen.step.toChanges).orderly.tree
  refine ⟨⟨orderly.bound _ _ _ hfile, fun m c hm => ⟨base, hmem, ?_⟩⟩, .inr ⟨_, _, hfile⟩,
    orderly.sound _ _ _ hfile⟩
  exact orderly.unique m _ s.number c content hm hfile

/-- An opened log file is one of the log. -/
theorem leads_openIfClosed (home : Home L w) (hf : f.In L w.tree) :
    f.openIfClosed.Leads (Edits (At L)) (fun g v => g.In L v.tree) w := by
  unfold LogFile.openIfClosed
  split
  · exact .pure hf
  · obtain ⟨base, hbase, hpath, -⟩ := hf.path
    rw [hpath]
    refine (leads_openFile_home home hbase).bind ?_
    rintro s v - ⟨howned, hplain, -⟩
    exact .pure ⟨⟨base, hbase, rfl, hplain⟩, hf.backups, fun s' hs' => Option.some.inj hs' ▸ howned⟩

theorem leads_rotate (home : Home L w) (hf : f.In L w.tree) :
    f.rotate.Leads (Edits (At L)) (fun g v => g.In L v.tree) w := by
  obtain ⟨base, hbase, hpath, hplain⟩ := hf.path
  obtain ⟨layout, path, limit, kept, lazy, stream⟩ := f
  obtain rfl : path = .ofRoot (L ++ [base]) := hpath
  obtain rfl : kept = backups := hf.backups
  have hfirst := mem_fileNames_older hbase (show 0 < backups.toNat by decide)
  unfold LogFile.rotate
  dsimp only
  rw [LogFile.older_eq rfl]
  refine (leads_shiftOlder hbase rfl (by decide) home).bind fun _ v₁ h₁ _ => ?_
  have home₁ := home.changes h₁.toChanges
  refine leads_clear home₁ hfirst fun v₂ h₂ clear => ?_
  refine (asks_species? _).leads.bind fun _ v₃ h₃ _ => ?_
  have home₃ := (home₁.changes h₂.toChanges).changes h₃.toChanges
  have hplain₃ := h₃.tree.ways.plain (h₂.tree.ways.plain (h₁.tree.ways.plain hplain))
  refine (leads_rename_home home₃ (mem_fileNames_base hbase) hfirst (clear.changes h₃.toChanges)
    fun h => absurd h hplain₃.ne_directory).optional fun v₄ h₄ => ?_
  have hclosed := ((((hf.edits h₁).edits h₂).edits h₃).edits h₄).closed
  split
  · exact .pure hclosed
  · exact leads_openIfClosed (home₃.changes h₄.toChanges) hclosed

theorem asks_isFull (n : Nat) : (f.isFull n).Asks := by
  unfold LogFile.isFull
  split
  · exact (asks_sizeOf _).bind fun _ => asks_pure _
  · exact asks_pure _

theorem leads_makeRoom (home : Home L w) (hf : f.In L w.tree) (n : Nat) :
    (f.makeRoom n).Leads (Edits (At L)) (fun g v => g.In L v.tree) w := by
  unfold LogFile.makeRoom
  refine (asks_species? _).leads.bind fun _ v₁ h₁ _ => ?_
  split
  · exact .pure (hf.edits h₁)
  · have home₁ := home.changes h₁.toChanges
    refine (leads_openIfClosed home₁ (hf.edits h₁)).bind fun g v₂ h₂ hg => ?_
    have home₂ := home₁.changes h₂.toChanges
    refine (asks_isFull n).leads.bind fun _ v₃ h₃ _ => ?_
    split
    · exact leads_rotate (home₂.changes h₃.toChanges) (hg.edits h₃)
    · exact .pure (hg.edits h₃)

/-! ### Writing events -/

theorem leads_add (home : Home L w) (hf : f.In L w.tree) (t : Text) :
    (f.add t).Leads (Edits (At L)) (fun g v => g.In L v.tree) w := by
  unfold LogFile.add
  refine (leads_makeRoom home hf _).bind fun g v₁ h₁ hg => ?_
  have home₁ := home.changes h₁.toChanges
  refine (leads_openIfClosed home₁ hg).bind fun g v₂ h₂ hg => ?_
  have home₂ := home₁.changes h₂.toChanges
  split
  · next s octets hs _ =>
    refine (leads_extend home₂.orderly (hg.owned s hs).2 octets).bind fun _ v₃ h₃ _ => ?_
    exact .pure (hg.edits h₃)
  · exact .pure hg

theorem leads_emit (home : Home L w) (hf : f.In L w.tree) (e : Event) :
    (f.emit e).Leads (Edits (At L)) (fun g v => g.In L v.tree) w := by
  unfold LogFile.emit
  refine asks_now.leads.bind fun now v₁ h₁ _ => ?_
  have home₁ := home.changes h₁.toChanges
  have hf₁ := hf.edits h₁
  refine Leads.orElse ?_ fun _ v₂ h₂ => .pure (hf₁.edits h₂).closed
  split
  · exact leads_add home₁ hf₁ _
  · exact leads_openIfClosed home₁ hf₁

/-- Writing an event to a file does not fail. -/
theorem run_emit_ok (f : LogFile) (e : Event) (w : World) : ∃ g v, (f.emit e).run w = (.ok g, v) := by
  unfold LogFile.emit
  rw [run_bind_ok run_now, run_orElse]
  split
  · exact ⟨_, _, rfl⟩
  · exact ⟨_, _, rfl⟩

theorem leads_warn (t : Text) : (warn t).Leads (Edits may) (fun _ _ => True) w :=
  .of_run rfl ⟨⟨.refl may w.tree, id, rfl⟩, rfl⟩ fun _ _ => trivial

theorem leads_emitTo {o : Outlet} (home : Home L w) (ho : o.In L w.tree) (e : Event) :
    (o.emit e).Leads (Edits (At L)) (fun o v => o.In L v.tree) w := by
  unfold Outlet.emit
  split
  · exact .pure ho
  · split
    · split
      · exact (leads_warn _).bind fun _ v hv _ =>
          .pure fun f hf => (ho f hf).edits hv
      · exact .pure ho
    · next f hf =>
      refine (leads_emit home (ho f hf) e).bind ?_
      intro g v hv hg
      refine .pure ?_
      rintro f' ⟨⟩
      exact hg

theorem run_emitTo_ok (o : Outlet) (e : Event) (w : World) :
    ∃ o' v, (o.emit e).run w = (.ok o', v) := by
  unfold Outlet.emit
  split
  · exact ⟨_, _, rfl⟩
  · split
    · split <;> exact ⟨_, _, rfl⟩
    · next f _ =>
      obtain ⟨g, v, hg⟩ := run_emit_ok f e w
      exact ⟨_, v, run_bind_ok hg _⟩

theorem leads_emitAll (e : Event) : ∀ {os : List Outlet} {w : World}, Home L w →
    (∀ o ∈ os, o.In L w.tree) →
    (Outlet.emitAll e os).Leads (Edits (At L)) (fun os v => ∀ o ∈ os, o.In L v.tree) w
  | [], _, _, _ => .pure fun _ ho => absurd ho List.not_mem_nil
  | o :: os, w, home, h => by
    unfold Outlet.emitAll
    refine (leads_emitTo home (h o List.mem_cons_self) e).bind fun o' v₁ h₁ ho' => ?_
    have hos : ∀ p ∈ os, p.In L v₁.tree := by
      intro p hp f hf
      exact (h p (List.mem_cons_of_mem o hp) f hf).edits h₁
    refine (leads_emitAll e (home.changes h₁.toChanges) hos).bind fun os' v₂ h₂ hos' => ?_
    refine .pure (List.forall_mem_cons.mpr ⟨?_, hos'⟩)
    intro f hf
    exact (ho' f hf).edits h₂

theorem run_emitAll_ok (e : Event) : ∀ (os : List Outlet) (w : World),
    ∃ os' v, (Outlet.emitAll e os).run w = (.ok os', v)
  | [], w => ⟨_, w, rfl⟩
  | o :: os, w => by
    obtain ⟨o', v₁, ho⟩ := run_emitTo_ok o e w
    obtain ⟨os', v₂, hos⟩ := run_emitAll_ok e os v₁
    exact ⟨_, v₂, by rw [Outlet.emitAll, run_bind_ok ho, run_bind_ok hos]; rfl⟩

/-- Logging does not fail. -/
theorem run_logEvent_ok (e : Event) (w : World) : ∃ v, (logEvent e).run w = (.ok (), v) := by
  unfold logEvent
  rw [run_bind_ok (show logger.run w = (.ok w.logger, w) from rfl)]
  split
  · obtain ⟨os, v, hos⟩ := run_emitAll_ok e w.logger.outlets w
    exact ⟨_, run_bind_ok hos _⟩
  · exact ⟨w, rfl⟩

end Program

/-- What the logging of events, one after another, can make of a world. -/
def World.Tells : World → World → Prop :=
  Relation.ReflTransGen fun u v => ∃ e, (Program.logEvent e).run u = (.ok (), v)

namespace World

theorem Tells.refl (w : World) : w.Tells w := Relation.ReflTransGen.refl

theorem Tells.trans {u : World} (h : u.Tells v) (h' : v.Tells w) : u.Tells w :=
  Relation.ReflTransGen.trans h h'

/-- An event is logged, and that is all. -/
theorem tells_logEvent (e : Event) (w : World) :
    ∃ v, (Program.logEvent e).run w = (.ok (), v) ∧ w.Tells v :=
  have ⟨v, hv⟩ := Program.run_logEvent_ok e w
  ⟨v, hv, Relation.ReflTransGen.single ⟨e, hv⟩⟩

theorem tells_log (level : Level) (message : Text) (w : World) :
    ∃ v, (Program.log level message).run w = (.ok (), v) ∧ w.Tells v := tells_logEvent _ w

/-- A log that goes to the console alone leaves the files as they are. -/
theorem Tells.sameFiles (h : w.Tells v) (quiet : w.Quiet) : w.SameFiles v := by
  induction h with
  | refl => exact ⟨rfl, rfl, rfl, quiet⟩
  | tail _ hstep ih =>
    obtain ⟨e, he⟩ := hstep
    obtain ⟨x, hx, told⟩ := Program.run_logEvent ih.quiet e
    obtain rfl : x = _ := (Prod.mk.inj (hx.symm.trans he)).2
    exact ih.trans told

end World

namespace Log

/-- A world in which the log goes to the console and to files in a directory for them. -/
structure GoesTo (L : Location) (w : World) : Prop where
  home : Home L w
  outlets : ∀ o ∈ w.logger.outlets, o.In L w.tree

/-- Other files do not concern the log. -/
theorem GoesTo.edits (goes : GoesTo L w) (h : w.Edits may v)
    (hmay : (∀ m, may m → At L m) ∨ ∀ m, may m → ¬ At L m) : GoesTo L v := by
  refine ⟨goes.home.changes h.toChanges, ?_⟩
  intro o ho f hf
  rw [h.logger] at ho
  exact (goes.outlets o ho f hf).changed h.tree hmay

/-- An event is logged without a failure, and only the log files change. -/
theorem GoesTo.run_logEvent (goes : GoesTo L w) (e : Event) :
    ∃ v, (Program.logEvent e).run w = (.ok (), v) ∧ w.Changes (At L) v ∧ GoesTo L v := by
  unfold Program.logEvent
  rw [Program.run_bind_ok Program.run_logger]
  split
  · obtain ⟨os, v, hos⟩ := Program.run_emitAll_ok e w.logger.outlets w
    obtain ⟨hstep, hvalue⟩ := Program.leads_emitAll e goes.home goes.outlets
    have houtlets := hvalue os (by rw [hos])
    rw [hos] at hstep houtlets
    have home := goes.home.changes hstep.toChanges
    rw [Program.run_bind_ok hos]
    exact ⟨_, rfl, ⟨hstep.tree, hstep.orderly, hstep.here⟩,
      ⟨⟨home.orderly.tree, home.orderly.here⟩, home.names, home.way, home.ground⟩, houtlets⟩
  · exact ⟨w, rfl, .refl _ w, goes⟩

/-- A log that goes to no files goes to the files of any directory that is not there. -/
theorem goesTo_of_quiet (orderly : w.Orderly) (quiet : w.Quiet) : ∃ L, GoesTo L w := by
  obtain ⟨x, hx⟩ := Infinite.exists_notMem_finset
    ((w.tree.entries.map fun e : Location × Entry => (e.1.headD [] : Text)) ++
      [[], ".", ".."]).toFinset
  rw [List.mem_toFinset, List.mem_append, List.mem_map, not_or] at hx
  have habsent : ∀ m, w.tree.get? (x :: m) = none := by
    intro m
    rw [Tree.get?_of_ne_nil _ (List.cons_ne_nil x m), List.lookup_eq_none_iff]
    intro e he
    rw [bne_iff_ne]
    intro heq
    exact hx.1 ⟨e, he, by rw [← heq]; rfl⟩
  refine ⟨[x], ⟨orderly, ?_, ?_, .of_plain fun n _ => .inl (habsent [n])⟩, ?_⟩
  · intro n hn
    obtain rfl := List.mem_singleton.mp hn
    simpa [Tree.IsName, and_comm, and_assoc] using hx.2
  · intro m hm target
    rcases List.prefix_cons_iff.mp hm with rfl | ⟨k, rfl, -⟩
    · rw [Tree.get?_nil]
      simp
    · rw [habsent]
      simp
  · intro o ho f hf
    cases (quiet o ho).symm.trans hf

/-- What programs make of a world that change files at some places, and logging. The log goes where it
went. -/
structure Keeps (L : Location) (may : Location → Prop) (w v : World) : Prop extends
    w.Changes may v where
  goes : GoesTo L w → GoesTo L v

instance : IsPreorder World (Keeps L may) where
  refl w := ⟨.refl may w, id⟩
  trans _ _ _ h h' := ⟨h.toChanges.trans h'.toChanges, h'.goes ∘ h.goes⟩

theorem Keeps.mono {also : Location → Prop} (h : Keeps L may w v) (hmay : ∀ m, may m → also m) :
    Keeps L also w v := ⟨h.toChanges.mono hmay, h.goes⟩

/-- A change to nothing that the log rests on. -/
theorem Keeps.of_same (htree : v.tree = w.tree) (hhere : v.here = w.here)
    (hlogger : v.logger = w.logger) : Keeps L may w v := by
  have hchanges : ∀ also, w.Changes also v := by
    intro also
    refine ⟨?_, ?_, hhere⟩
    · rw [htree]
      exact .refl also w.tree
    · rw [htree]
      exact id
  refine ⟨hchanges may, fun goes => ⟨goes.home.changes (hchanges (At L)), ?_⟩⟩
  intro o ho
  rw [hlogger] at ho
  rw [htree]
  exact goes.outlets o ho

theorem Keeps.of_edits (h : w.Edits (At L) v) : Keeps L (At L) w v :=
  ⟨h.toChanges, fun goes => goes.edits h (Or.inl fun _ => id)⟩

/-- A change to a file at one place. -/
theorem Keeps.of_place (h : w.Edits may v) (hplace : ∀ l m, may l → may m → l = m) :
    Keeps L may w v := by
  refine ⟨h.toChanges, fun goes => goes.edits h ?_⟩
  by_cases hlog : ∃ l, may l ∧ At L l
  · obtain ⟨l, hl, hat⟩ := hlog
    left
    intro m hm
    rwa [← hplace l m hl hm]
  · right
    intro m hm hat
    exact hlog ⟨m, hm, hat⟩

theorem GoesTo.leads_logEvent (goes : GoesTo L w) (hmay : ∀ m, At L m → may m) (e : Event) :
    (Program.logEvent e).Leads (Keeps L may) (fun _ _ => True) w :=
  have ⟨_, hv, hchanges, goes'⟩ := goes.run_logEvent e
  .of_run hv ⟨hchanges.mono hmay, fun _ => goes'⟩ fun _ _ => trivial

theorem GoesTo.leads_log (goes : GoesTo L w) (hmay : ∀ m, At L m → may m) (level : Level)
    (message : Text) : (Program.log level message).Leads (Keeps L may) (fun _ _ => True) w :=
  goes.leads_logEvent hmay _

end Log

end LabelBook
