import LabelBook.Proofs.Asking
import LabelBook.Proofs.Files.Growing
import LabelBook.Proofs.Log.Emitting

/-!
Setting up the log. Its directory is made if need be; then the log files are opened there, and from then
on the log goes to them. Provided that no link stands under their names, and no directory that would be
moved on when the files are, nothing else is touched.
-/

namespace LabelBook

variable {L : Location} {w v : World} {asked : Option Path} {may : Location → Prop}

/-! ### The place that a path is resolved to -/

namespace Tree

variable {t : Tree} {aim : Aim} {links : Nat} {l m : Location} {names : List Text}

/-- A walk from a place of proper names ends at one. -/
theorem walk_names (hl : ∀ n ∈ l, IsName n) (h : t.walk aim links l names = .ok m) :
    ∀ n ∈ m, IsName n := by
  have hnext : ∀ {l : Location} {n : Text}, (∀ k ∈ l, IsName k) → n ≠ ".." →
      ¬ (n.isEmpty || n = ".") = true → ∀ k ∈ l ++ [n], IsName k := by
    intro l n hl hdots hskip k hk
    rcases List.mem_append.mp hk with hk | hk
    · exact hl k hk
    · rw [List.mem_singleton.mp hk]
      simp only [Bool.or_eq_true, List.isEmpty_iff, decide_eq_true_eq, not_or] at hskip
      exact ⟨hdots, hskip.2, hskip.1⟩
  fun_induction walk t aim links l names with
  | case1 => exact Except.ok.inj h ▸ hl
  | case2 _ _ _ ih => exact ih (fun k hk => hl k (List.mem_of_mem_dropLast hk)) h
  | case3 _ _ _ _ _ _ ih => exact ih hl h
  | case8 _ _ _ _ hdots hskip _ _ _ _ ih => exact ih (hnext hl hdots hskip) h
  | case6 _ _ _ _ hdots hskip | case9 _ _ _ _ hdots hskip =>
    exact Except.ok.inj h ▸ hnext hl hdots hskip
  | case11 _ _ _ _ hdots hskip => exact Except.ok.inj h ▸ hnext hl hdots hskip
  | case13 _ _ _ _ _ _ _ _ _ _ _ _ ih =>
    refine ih ?_ h
    split
    · exact hl
    · exact fun k hk => absurd hk List.not_mem_nil
  | case4 | case5 | case7 | case10 | case12 => cases h

/-- What is above a directory are directories. -/
theorem Sound.get?_of_prefix (sound : t.Sound) (hl : t.get? l = some .directory) (hm : m <+: l) :
    t.get? m = some .directory := by
  obtain ⟨below, rfl⟩ := hm
  induction below using List.reverseRecOn with
  | nil => rwa [List.append_nil] at hl
  | append_singleton below n ih =>
    rw [← List.append_assoc] at hl
    exact ih (sound _ n _ hl)

end Tree

/-- Names without two dots among them are not taken back. -/
theorem Path.collapse_of_names {names : List Text} (h : ∀ n ∈ names, Tree.IsName n) :
    Path.collapse names = names := by
  have hfold : ∀ (names done : List Text), (∀ n ∈ names, Tree.IsName n) →
      names.foldl (fun (done : List Text) (n : Text) =>
        if n = ".." then done.dropLast else done ++ [n]) done = done ++ names := by
    intro names
    induction names with
    | nil => simp
    | cons n names ih =>
      intro done h
      obtain ⟨hn, hnames⟩ := List.forall_mem_cons.mp h
      rw [List.foldl_cons, if_neg hn.1, ih _ hnames, List.append_assoc, List.singleton_append]
  exact hfold names [] h

namespace Log

/-- The place that a path leads to is one for log files, if there is ground for them. -/
theorem Home.of_locate {p : Path} (orderly : w.Orderly) (hhere : ∀ n ∈ w.here, Tree.IsName n)
    (h : w.locate .target p = .ok L) (ground : Ground L w.tree) : Home L w := by
  obtain ⟨hparent, hlink⟩ := orderly.locate_end h
  have hstart : ∀ n ∈ w.start p, Tree.IsName n := by
    unfold World.start
    split
    · exact hhere
    · exact fun n hn => absurd hn List.not_mem_nil
  refine ⟨orderly, Tree.walk_names hstart (World.locate_ok h).2, fun m hm target htarget => ?_,
    ground⟩
  by_cases hmL : m = L
  · subst hmL
    cases hlink target htarget
  · have habove : m <+: L.dropLast := by
      rcases List.eq_nil_or_concat L with rfl | ⟨k, n, rfl⟩
      · exact hm
      · rw [List.concat_eq_append] at hm hmL ⊢
        rw [List.dropLast_concat]
        exact (List.prefix_concat_iff.mp hm).resolve_left hmL
    rw [orderly.tree.sound.get?_of_prefix hparent habove] at htarget
    cases htarget

/-! ### Opening the files -/

/-- Where the directory of the log stands nothing is made. -/
theorem Home.leads_ensureTree (home : Home L w) (hL : w.tree.get? L = some .directory) :
    (Program.ensureTree (.ofRoot L)).Leads (World.Edits may) (fun _ _ => True) w := by
  have hthere : ((Program.ensureTree (.ofRoot L)).run w).2 = w := by
    refine Program.run_ensureDirectories_there (P := fun q => ∃ k, k <+: L ∧ q = .ofRoot k)
      ?_ ?_ _ ⟨L, List.prefix_refl L, rfl⟩
    · rintro _ ⟨k, hk, rfl⟩
      exact ⟨k.dropLast, (List.dropLast_prefix k).trans hk, rfl⟩
    · rintro _ l ⟨k, hk, rfl⟩ hl
      have hwalk : w.tree.walk .entry Tree.maxLinks [] k = .ok l := (World.locate_ok hl).2
      have hplace : l = [] ++ k := Tree.walk_ok_of_no_link
        (fun n hn => home.names n (hk.subset hn)) (fun m hm => home.way m (hm.trans hk)) hwalk
      rw [hplace, List.nil_append, home.orderly.tree.sound.get?_of_prefix hL hk]
      rfl
  exact .of_run (v := w) (Prod.ext rfl hthere) (refl_of _ w) fun _ _ => trivial

/-- Opening a log file anew. -/
theorem Home.leads_openFile (home : Home L w) {base : Text} (hbase : base ∈ baseNames)
    (layout : Layout) : (openFile layout (.ofRoot (L ++ [base])) limit backups false).Leads
      (World.Edits (At L)) (fun f v => f.In L v.tree ∧ v.tree.get? L = some .directory) w := by
  have hnames : ∀ n ∈ L ++ [base], Tree.IsName n := by
    intro n hn
    rcases List.mem_append.mp hn with hn | hn
    · exact home.names n hn
    · exact List.mem_singleton.mp hn ▸ isName_of_mem (mem_fileNames_base hbase)
  have hpath : ∀ here, (Path.ofRoot (L ++ [base])).absolute here = .ofRoot (L ++ [base]) := by
    intro here
    show Path.ofRoot (Path.collapse (L ++ [base])) = _
    rw [Path.collapse_of_names hnames]
  have hresolve : ∀ p, (Program.resolve p).Asks := by
    intro p u
    rw [Program.resolve, Program.run_attempt]
    rfl
  unfold openFile
  refine (hresolve _).leads.bind fun here v hv _ => ?_
  have home' := home.changes hv.toChanges
  simp only [hpath, Bool.false_eq_true, if_false]
  unfold LogFile.openIfClosed
  simp only [Option.isSome_none, Bool.false_eq_true, if_false]
  refine (Program.leads_openFile_home home' hbase).bind ?_
  rintro s u - ⟨howned, hplain, hL⟩
  exact .pure ⟨⟨⟨base, hbase, rfl, hplain⟩, rfl, fun s' hs' => Option.some.inj hs' ▸ howned⟩, hL⟩

theorem Home.leads_openJsonFile (home : Home L w) (hL : w.tree.get? L = some .directory) :
    (openJsonFile (.ofRoot (L ++ [jsonName])) limit backups false).Leads
      (World.Edits (At L)) (fun f v => f.In L v.tree) w := by
  have hparent : (Path.ofRoot (L ++ [jsonName])).parent = .ofRoot L := by
    simp [Path.parent, Path.ofRoot]
  unfold openJsonFile
  rw [hparent]
  refine (home.leads_ensureTree hL).bind fun _ v hv _ => ?_
  exact ((home.changes hv.toChanges).leads_openFile (by decide) .json).imp fun _ _ h => h.1

theorem leads_addOutlet {o : Outlet} (ho : o.In L w.tree) :
    (addOutlet o).Leads (Keeps L (At L)) (fun _ v => v.tree = w.tree) w := by
  refine .of_run (v := { w with logger := { w.logger with outlets := w.logger.outlets ++ [o] } }) rfl
    ⟨⟨.refl _ w.tree, id, rfl⟩, ?_⟩ fun _ _ => rfl
  intro goes
  refine ⟨goes.home.changes ⟨.refl (At L) w.tree, id, rfl⟩, ?_⟩
  intro o' ho'
  rcases List.mem_append.mp ho' with ho' | ho'
  · exact goes.outlets o' ho'
  · exact List.mem_singleton.mp ho' ▸ ho

/-! ### Setting up -/

/-- A world as a program finds it: its tree is orderly, one is in a directory of proper names, and the
log has not been set up. -/
structure Fresh (w : World) : Prop where
  orderly : w.Orderly
  here : ∀ n ∈ w.here, Tree.IsName n
  outlets : w.logger.outlets = []

/-- A world with room for the log: once its directory has been made, there is ground for its files. If
there is no directory for it, or it cannot be made, nothing is asked. -/
def Room (asked : Option Path) (w : World) : Prop :=
  ∀ p v L, (directory asked).run w = (.ok p, v) → v.locate .target p = .ok L → Ground L v.tree

/-- A place that a log file has, once the directory of the log has been made. -/
def Uses (asked : Option Path) (w : World) (m : Location) : Prop :=
  ∃ p v L, (directory asked).run w = (.ok p, v) ∧ v.locate .target p = .ok L ∧ At L m

theorem room_iff {p : Path} (hp : (directory asked).run w = (.ok p, v))
    (hL : v.locate .target p = .ok L) : Room asked w ↔ Ground L v.tree := by
  refine ⟨fun room => room p v L hp hL, fun ground p' v' L' hp' hL' => ?_⟩
  obtain ⟨hsame, rfl⟩ := Prod.mk.inj (hp.symm.trans hp')
  obtain rfl := Except.ok.inj hsame
  obtain rfl := Except.ok.inj (hL.symm.trans hL')
  exact ground

theorem uses_iff {p : Path} {m : Location} (hp : (directory asked).run w = (.ok p, v))
    (hL : v.locate .target p = .ok L) : Uses asked w m ↔ At L m := by
  refine ⟨fun ⟨p', v', L', hp', hL', hm⟩ => ?_, fun hm => ⟨p, v, L, hp, hL, hm⟩⟩
  obtain ⟨hsame, rfl⟩ := Prod.mk.inj (hp.symm.trans hp')
  obtain rfl := Except.ok.inj hsame
  obtain rfl := Except.ok.inj (hL.symm.trans hL')
  exact hm

/-- Directories are made for the log, and nothing else changes. -/
theorem leads_directory (orderly : w.Orderly) (asked : Option Path) :
    (directory asked).Leads World.Grows (fun _ _ => True) w := by
  have hmake : ∀ {u : World} (p : Path), w.Grows u →
      (do Program.ensureTree p; return p : Program Path).Leads World.Grows (fun _ _ => True) u :=
    fun p hu => (Program.leads_ensureTree (orderly.grows hu) p).bind fun _ _ _ _ => .pure trivial
  unfold directory
  dsimp only
  split
  · exact (Program.homely_expandHome _).asks.leads.bind fun p u hu _ => hmake p hu
  · refine (Program.homely_environment? _).asks.leads.bind fun t u hu _ => ?_
    split
    · exact (Program.homely_expandHome _).asks.leads.bind fun p v hv _ => hmake p (hu.trans hv)
    · exact (Program.homely_belowHome _).asks.leads.bind fun p v hv _ => hmake p (hu.trans hv)

/-- The outlets of the log with the files in a directory, one after another. -/
def addOutlets (level : Level) (L : Location) : Program Unit := do
  addOutlet ⟨level, .console⟩
  addOutlet ⟨.debug, .file (← openFile .lines (.ofRoot (L ++ [textName])) limit backups false)⟩
  addOutlet ⟨.debug, .file (← openJsonFile (.ofRoot (L ++ [jsonName])) limit backups false)⟩
  let l ← Program.logger
  Program.setLogger { l with level := .debug }

theorem GoesTo.leads_addOutlets (goes : GoesTo L w) (level : Level) :
    (addOutlets level L).Leads (Keeps L (At L)) (fun _ _ => True) w := by
  have hconsole : Outlet.In L w.tree ⟨level, .console⟩ := by
    rintro f ⟨⟩
  have hfile : ∀ {u : World} {f : LogFile}, f.In L u.tree → Outlet.In L u.tree ⟨.debug, .file f⟩ := by
    rintro u f hf _ ⟨⟩
    exact hf
  refine (leads_addOutlet hconsole).bind fun _ v₁ h₁ _ => ?_
  have goes₁ := h₁.goes goes
  refine ((goes₁.home.leads_openFile (by decide) .lines).mono fun _ => .of_edits).bind ?_
  rintro f v₂ h₂ ⟨hf, hL⟩
  refine (leads_addOutlet (hfile hf)).bind fun _ v₃ h₃ htree => ?_
  have goes₃ := h₃.goes (h₂.goes goes₁)
  rw [← htree] at hL
  refine ((goes₃.home.leads_openJsonFile hL).mono fun _ => .of_edits).bind fun f v₄ h₄ hf => ?_
  refine (leads_addOutlet (hfile hf)).bind fun _ v₅ h₅ _ => ?_
  refine .of_run (v := { v₅ with logger := { v₅.logger with level := .debug } }) rfl
    ⟨⟨.refl _ v₅.tree, id, rfl⟩, ?_⟩ fun _ _ => trivial
  rintro ⟨home₅, outlets₅⟩
  exact ⟨home₅.changes ⟨.refl (At L) v₅.tree, id, rfl⟩, outlets₅⟩

/-- A log without outlets is set up in two steps: its directory is found, and its outlets are added. -/
theorem run_setUp_bare (bare : w.logger.outlets = []) (level : Level) (asked : Option Path) :
    (setUp level asked).run w =
      match (directory asked).run w with
      | (.error f, u) => (.error f, u)
      | (.ok p, u) =>
        match u.locate .target p with
        | .error r => (.error (.refused r), u)
        | .ok L => (addOutlets level L).run u := by
  unfold setUp
  rw [Program.run_bind_ok Program.run_logger, bare, if_neg (by simp)]
  rcases hdir : (directory asked).run w with ⟨f | p, u⟩
  · exact Program.run_bind_error hdir _
  · have hresolve : (Program.resolve p).run u = ((u.resolve p).mapError .refused, u) :=
      Program.run_resolve p
    rw [Program.run_bind_ok hdir]
    dsimp only
    rcases hplace : u.locate .target p with r | L
    · rw [World.resolve, hplace] at hresolve
      exact Program.run_bind_error hresolve _
    · rw [World.resolve, hplace] at hresolve
      exact Program.run_bind_ok hresolve _

/-- Once the log has been set up it goes to files in its directory. Nothing but directories is made
for it before that, and nothing but those files is touched. -/
theorem Fresh.run_setUp (fresh : Fresh w) (room : Room asked w) (level : Level) :
    ∃ L, w.Grows ((directory asked).run w).2 ∧
      ((directory asked).run w).2.Changes (At L) ((setUp level asked).run w).2 ∧
      (((setUp level asked).run w).1 = .ok () → GoesTo L ((setUp level asked).run w).2) := by
  have grows := (leads_directory fresh.orderly asked).step
  rw [run_setUp_bare fresh.outlets]
  rcases hdir : (directory asked).run w with ⟨f | p, u⟩
  · exact ⟨[], hdir ▸ grows, .refl _ u, fun h => by cases h⟩
  rw [hdir] at grows
  dsimp only
  rcases hplace : u.locate .target p with r | L
  · exact ⟨[], grows, .refl _ u, fun h => by cases h⟩
  · -- no log file has been opened yet, so the log goes where it will go
    have goes : GoesTo L u := by
      refine ⟨.of_locate (fresh.orderly.grows grows) (grows.here ▸ fresh.here) hplace
        (room p u L hdir hplace), fun o ho => ?_⟩
      rw [grows.logger, fresh.outlets] at ho
      exact absurd ho List.not_mem_nil
    have hrest := (goes.leads_addOutlets level).step
    exact ⟨L, grows, hrest.toChanges, fun _ => hrest.goes goes⟩

end Log

end LabelBook
