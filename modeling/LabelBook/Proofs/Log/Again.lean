import LabelBook.Proofs.Files.Roads
import LabelBook.Proofs.Log.Setup

/-!
Setting up the log once more. What setting up a log has found or made is there for the next one: the path
of its directory leads there, and the files can be opened. So where a log has been set up another can be,
as long as the ways to directories stay.
-/

namespace LabelBook

variable {L : Location} {w v u : World} {asked : Option Path} {p : Path} {level : Level}

namespace Program

variable {α β : Type}

/-- What has ended has ended in its first part, or in what comes after it. -/
theorem run_bind_cases {q : Program α} {k : α → Program β} {b : Except Failure β}
    (h : (q >>= k).run w = (b, v)) : (∃ f, q.run w = (.error f, v) ∧ b = .error f) ∨
      ∃ a u, q.run w = (.ok a, u) ∧ (k a).run u = (b, v) := by
  rcases hq : q.run w with ⟨f | a, u⟩
  · rw [run_bind_error hq] at h
    obtain ⟨rfl, rfl⟩ := Prod.mk.inj h
    exact .inl ⟨f, rfl, rfl⟩
  · rw [run_bind_ok hq] at h
    exact .inr ⟨a, u, rfl, h⟩

/-- What has ended well has ended well step by step. -/
theorem run_bind_eq_ok {q : Program α} {k : α → Program β} {b : β}
    (h : (q >>= k).run w = (.ok b, v)) :
    ∃ a u, q.run w = (.ok a, u) ∧ (k a).run u = (.ok b, v) := by
  obtain ⟨f, -, hf⟩ | hok := run_bind_cases h
  · cases hf
  · exact hok

/-- A directory that is there has a path that can be handed over. -/
theorem handedOver_of_ensureTree (h : (ensureTree p).run w = (.ok (), v)) :
    ∃ t, p.handedOver = .ok t := by
  rcases hhanded : p.handedOver with r | t
  · exfalso
    have hlocate : ∀ aim, w.locate aim p = .error r := by
      intro aim
      unfold World.locate
      rw [hhanded]
    have hmake : (makeDirectory p).run w = (.error (.refused r), w) := by
      refine (run_attempt (w := w) (.makeDirectory p) id).trans ?_
      simp only [World.answer, World.change, hlocate]
      rfl
    have hspecies : w.species p = .error r := by rw [World.species, hlocate]
    have hunless : ∀ f, ((do if ← isDirectory p then done () else fail f : Program Unit).run w).1 ≠
        .ok () := by
      intro f
      unfold isDirectory
      rw [run_bind, run_ask]
      simp only [World.answer, hspecies]
      cases r with
      | system why path target =>
        cases Path.handedOver_system hhanded
        simp [Reason.meansAbsent]
      | _ => simp
    have hfailed : ∀ {q : Program Unit}, q.run w = (.ok (), v) → (q.run w).1 = .ok () := by
      intro q hq
      rw [hq]
    unfold ensureTree at h
    have hok := hfailed h
    generalize p.names.length = depth at hok
    cases depth with
    | zero =>
      rw [ensureDirectories, ensureDirectory, run_orElse, hmake] at hok
      dsimp only at hok
      split at hok
      · exact hunless _ hok
      · cases hok
    | succ depth =>
      rw [ensureDirectories, run_orElse, hmake] at hok
      dsimp only at hok
      split at hok
      · next heq =>
        cases heq
        cases Path.handedOver_system hhanded
      · exact hunless _ hok
      · cases hok
  · exact ⟨t, rfl⟩

end Program

namespace Log

open Program World

/-- The path of the directory for the log files. -/
def place (asked : Option Path) : Program Path :=
  match asked with
  | some p => expandHome p
  | none => do
    match ← environment? directoryVariable with
    | some (c :: t) => expandHome (.ofText (c :: t))
    | _ => defaultDirectory

theorem homely_place (asked : Option Path) : (place asked).Homely := by
  unfold place
  split
  · exact homely_expandHome _
  · refine (homely_environment? _).bind fun t => ?_
    split
    · exact homely_expandHome _
    · exact homely_belowHome _

theorem run_directory (asked : Option Path) (w : World) : (directory asked).run w =
    (do
      let p ← place asked
      ensureTree p
      return p : Program Path).run w := by
  unfold directory place
  dsimp only
  split
  · rfl
  · rw [run_bind, run_bind, run_bind]
    rcases (environment? directoryVariable).run w with ⟨f | t, u⟩
    · rfl
    · rcases t with _ | (_ | ⟨c, t⟩) <;> exact run_bind _ _

/-- A world in which the log can have its files in a directory. -/
structure Lodged (L : Location) (w : World) : Prop where
  home : Home L w
  directory : w.tree.get? L = some .directory
  target : w.locate .target (.ofRoot L) = .ok L
  spots : ∀ base ∈ baseNames, ∃ links, w.Spot (.ofRoot (L ++ [base])) (links, L) base
  plain : ∀ base ∈ baseNames, w.tree.Plain (L ++ [base])

theorem Lodged.roads (lodged : Lodged L w) (h : w.KeepsRoads v) (home : Home L v) : Lodged L v := by
  refine ⟨home, ?_, h.locate_directory lodged.target lodged.directory, fun base hbase => ?_,
    fun base hbase => h.plain _ (lodged.plain base hbase)⟩
  · exact h.get?_directory home.orderly.sound lodged.target lodged.directory
  · obtain ⟨links, spot⟩ := lodged.spots base hbase
    exact ⟨links, spot.roads h⟩

theorem Lodged.changes {may : Location → Prop} (lodged : Lodged L w) (h : w.Changes may v) :
    Lodged L v := lodged.roads h.keepsRoads (lodged.home.changes h)

/-- A world in which the log can have its files in the directory that is asked for. -/
structure Lodging (asked : Option Path) (L : Location) (w : World) : Prop extends Lodged L w where
  place : ∃ p, (place asked).run w = (.ok p, w) ∧ w.locate .target p = .ok L

/-- Lodging does not rest on anything but the ways to directories and the places of the files. -/
theorem Lodging.roads (lodging : Lodging asked L w) (h : w.KeepsRoads v) (home : Home L v)
    (same : w.SameHomes v) : Lodging asked L v := by
  obtain ⟨p, hplace, hp⟩ := lodging.place
  refine ⟨lodging.toLodged.roads h home, p, ?_, h.locate_directory hp lodging.directory⟩
  exact (homely_place asked).after hplace same

/-! ### Opening the files -/

theorem run_here (w : World) : ∃ here, (Program.resolve ⟨.here, []⟩).run w = (.ok here, w) := by
  have hlocate : w.locate .target ⟨.here, []⟩ = .ok w.here := by
    rw [locate_of_handedOver (t := ".") (by decide +kernel), Tree.walk]
    rfl
  refine ⟨.ofRoot w.here, ?_⟩
  rw [Program.resolve, run_attempt]
  simp only [World.answer, World.resolve, hlocate]
  rfl

theorem Home.absolute (home : Home L w) {base : Text} (hbase : base ∈ baseNames) (here : Path) :
    (Path.ofRoot (L ++ [base])).absolute here = .ofRoot (L ++ [base]) := by
  show Path.ofRoot (Path.collapse (L ++ [base])) = _
  rw [Path.collapse_of_names fun n hn => ?_]
  rcases List.mem_append.mp hn with hn | hn
  · exact home.names n hn
  · exact List.mem_singleton.mp hn ▸ isName_of_mem (mem_fileNames_base hbase)

/-- A log file is opened where its path leads. -/
theorem Home.run_openFile (home : Home L w) {base : Text} (hbase : base ∈ baseNames)
    (layout : Layout) : ∃ f : LogFile, f.stream = none ∧
      (openFile layout (.ofRoot (L ++ [base])) limit backups false).run w =
        (do
          let s ← Program.openFile (.ofRoot (L ++ [base]))
          return { f with stream := some s } : Program LogFile).run w := by
  obtain ⟨here, hhere⟩ := run_here w
  refine ⟨⟨layout, .ofRoot (L ++ [base]), limit, backups, false, none⟩, rfl, ?_⟩
  unfold openFile
  rw [run_bind_ok hhere]
  simp only [home.absolute hbase, Bool.false_eq_true, if_false]
  rfl

theorem Lodged.openFile (lodged : Lodged L w) {base : Text} (hbase : base ∈ baseNames)
    (layout : Layout) : ∃ f v,
      (openFile layout (.ofRoot (L ++ [base])) limit backups false).run w = (.ok f, v) ∧
        Lodged L v := by
  obtain ⟨links, spot⟩ := lodged.spots base hbase
  have hplain := lodged.plain base hbase
  have hl : w.locate .writing (.ofRoot (L ++ [base])) = .ok (L ++ [base]) :=
    spot.locate_of_no_link hplain.ne_link .writing
  have hopen : ∃ s v, (Program.openFile (.ofRoot (L ++ [base]))).run w = (.ok s, v) := by
    rw [Program.openFile, run_attempt]
    simp only [World.answer, World.openFile, hl, Tree.openFile]
    rcases hplain with h | ⟨number, content, h⟩
    · simp only [h]
      exact ⟨_, _, rfl⟩
    · simp only [h]
      exact ⟨_, _, rfl⟩
  obtain ⟨s, v, hs⟩ := hopen
  obtain ⟨f, -, hrun⟩ := lodged.home.run_openFile hbase layout
  have hstep := (lodged.home.leads_openFile hbase layout).step
  rw [hrun, run_bind_ok hs] at hstep ⊢
  exact ⟨_, v, rfl, lodged.changes hstep.toChanges⟩

/-- A log file that has been opened has its spot in the directory of the log, and no directory was in the
way. -/
theorem Home.openFile_ok (home : Home L w) {base : Text} (hbase : base ∈ baseNames)
    {layout : Layout} {f : LogFile}
    (h : (openFile layout (.ofRoot (L ++ [base])) limit backups false).run w = (.ok f, v)) :
    (∃ links, w.Spot (.ofRoot (L ++ [base])) (links, L) base) ∧ w.tree.Plain (L ++ [base]) := by
  obtain ⟨g, -, hrun⟩ := home.run_openFile hbase layout
  rw [hrun] at h
  obtain ⟨s, u, hopen, -⟩ := run_bind_eq_ok h
  have hmem := mem_fileNames_base hbase
  rw [Program.openFile, run_attempt] at hopen
  rcases w.openFile_cases (.ofRoot (L ++ [base])) with ⟨e, he⟩ | ⟨l, number, t, hl, ht, -⟩
  · simp only [World.answer, he] at hopen
    cases hopen
  · refine ⟨home.spot_of_locate hmem hl, ?_⟩
    obtain ⟨hparent, hlink⟩ := home.orderly.locate_end hl
    rw [← home.locate hmem hl]
    exact (Tree.openFile_touched (fun target h => by cases hlink target h) hparent ht).1.before

/-! ### Adding the outlets -/

theorem run_addOutlet (o : Outlet) (w : World) : ∃ v, (addOutlet o).run w = (.ok (), v) ∧
    w.Changes (fun _ => False) v := by
  refine ⟨{ w with logger := { w.logger with outlets := w.logger.outlets ++ [o] } }, rfl, ?_⟩
  exact ⟨.refl _ w.tree, id, rfl⟩

theorem Lodged.run_addOutlets (lodged : Lodged L w) (level : Level) :
    ∃ v, (addOutlets level L).run w = (.ok (), v) := by
  unfold addOutlets
  obtain ⟨v₁, h₁, hchanges₁⟩ := run_addOutlet ⟨level, .console⟩ w
  rw [run_bind_ok h₁]
  obtain ⟨f, v₂, h₂, lodged₂⟩ :=
    (lodged.changes hchanges₁).openFile (by decide : textName ∈ baseNames) .lines
  rw [run_bind_ok h₂]
  obtain ⟨v₃, h₃, hchanges₃⟩ := run_addOutlet ⟨.debug, .file f⟩ v₂
  rw [run_bind_ok h₃]
  have lodged₃ := lodged₂.changes hchanges₃
  have hparent : (Path.ofRoot (L ++ [jsonName])).parent = .ofRoot L := by
    simp [Path.parent, Path.ofRoot]
  have htree := run_ensureTree_there lodged₃.home.orderly.sound lodged₃.target lodged₃.directory
  obtain ⟨g, v₄, h₄, lodged₄⟩ := lodged₃.openFile (by decide : jsonName ∈ baseNames) .json
  have hjson : (openJsonFile (.ofRoot (L ++ [jsonName])) limit backups false).run v₃ =
      (.ok g, v₄) := by
    rw [openJsonFile, hparent, run_bind_ok htree, h₄]
  rw [run_bind_ok hjson]
  obtain ⟨v₅, h₅, -⟩ := run_addOutlet ⟨.debug, .file g⟩ v₄
  rw [run_bind_ok h₅]
  exact ⟨_, rfl⟩

/-- Where the outlets of the log have been added its files are lodged. -/
theorem GoesTo.addOutlets_ok (goes : GoesTo L w)
    (h : (addOutlets level L).run w = (.ok (), v)) : Lodged L w := by
  unfold addOutlets at h
  obtain ⟨_, v₁, h₁, h⟩ := run_bind_eq_ok h
  obtain ⟨x, hx, hchanges₁⟩ := run_addOutlet ⟨level, .console⟩ w
  obtain rfl := (Prod.mk.inj (hx.symm.trans h₁)).2
  have home₁ := goes.home.changes hchanges₁
  obtain ⟨f, v₂, h₂, h⟩ := run_bind_eq_ok h
  obtain ⟨⟨links, spot₁⟩, plain₁⟩ := home₁.openFile_ok (by decide : textName ∈ baseNames) h₂
  have hopen := home₁.leads_openFile (by decide : textName ∈ baseNames) .lines
  have hchanges₂ := hopen.step.toChanges
  have hdirectory₂ := (hopen.value f (by rw [h₂])).2
  rw [h₂] at hchanges₂ hdirectory₂
  have home₂ := home₁.changes hchanges₂
  obtain ⟨_, v₃, h₃, h⟩ := run_bind_eq_ok h
  obtain ⟨y, hy, hchanges₃⟩ := run_addOutlet ⟨.debug, .file f⟩ v₂
  obtain rfl := (Prod.mk.inj (hy.symm.trans h₃)).2
  have home₃ := home₂.changes hchanges₃
  obtain ⟨g, v₄, h₄, -⟩ := run_bind_eq_ok h
  have hparent : (Path.ofRoot (L ++ [jsonName])).parent = .ofRoot L := by
    simp [Path.parent, Path.ofRoot]
  rw [openJsonFile, hparent] at h₄
  obtain ⟨_, z, hz, h₄⟩ := run_bind_eq_ok h₄
  obtain ⟨t, ht⟩ := handedOver_of_ensureTree hz
  have htree : (Program.ensureTree (.ofRoot L)).Leads (World.Edits (At L)) (fun _ _ => True) y :=
    home₃.leads_ensureTree (hchanges₃.tree.ways.directory_iff.mpr hdirectory₂)
  have hchanges₄ := htree.step.toChanges
  rw [hz] at hchanges₄
  obtain ⟨⟨links', spot₂⟩, plain₂⟩ :=
    (home₃.changes hchanges₄).openFile_ok (by decide : jsonName ∈ baseNames) h₄
  -- what was found on the way leads there from the start
  have hback₁ := hchanges₁.keepsRoads_back
  have hback₂ := trans_of World.KeepsRoads hchanges₂.keepsRoads_back hback₁
  have hback₄ := trans_of World.KeepsRoads hchanges₄.keepsRoads_back
    (trans_of World.KeepsRoads hchanges₃.keepsRoads_back hback₂)
  have hspot := spot₁.roads hback₁
  have hdescend : w.tree.descend Tree.maxLinks [] L = .ok (links, L) := by
    have hd := hspot.directory
    rwa [show (Path.ofRoot (L ++ [textName])).names.dropLast = L from List.dropLast_concat] at hd
  refine ⟨goes.home, ?_, ?_, fun base hbase => ?_, fun base hbase => ?_⟩
  · exact hspot.parent_directory goes.home.orderly.sound
  · rw [locate_of_handedOver ht]
    show (w.tree.walk .target Tree.maxLinks [] L).mapError _ = _
    rw [Tree.walk_target_of_descend hdescend]
    rfl
  · rcases List.mem_pair.mp hbase with rfl | rfl
    · exact ⟨links, hspot⟩
    · exact ⟨links', spot₂.roads hback₄⟩
  · rcases List.mem_pair.mp hbase with rfl | rfl
    · exact hback₁.plain _ plain₁
    · exact hback₄.plain _ plain₂

/-! ### Setting up -/

/-- Where the log has been set up it can be set up again. -/
theorem Fresh.setUp_ok (fresh : Fresh w) (room : Room asked w)
    (h : (setUp level asked).run w = (.ok (), v)) : ∃ L, Lodging asked L v ∧ GoesTo L v ∧
      ∀ m, At L m → Uses asked w m := by
  have grows := (leads_directory fresh.orderly asked).step
  have h₀ := h
  rw [run_setUp_bare fresh.outlets] at h
  rcases hdirectory : (directory asked).run w with ⟨f | p, u⟩
  · rw [hdirectory] at h
    cases h
  rw [hdirectory] at h grows
  dsimp only at h
  have hplace : (place asked).run w = (.ok p, w) := by
    have hrun := hdirectory
    rw [run_directory] at hrun
    obtain ⟨p', y, hp', hrun⟩ := run_bind_eq_ok hrun
    obtain ⟨_, z, -, hrun⟩ := run_bind_eq_ok hrun
    obtain rfl := Except.ok.inj (Prod.mk.inj hrun).1
    have hasks := (homely_place asked).asks w
    rw [hp'] at hasks
    obtain rfl : y = w := hasks
    exact hp'
  rcases hl : u.locate .target p with r | L
  · rw [hl] at h
    cases h
  rw [hl] at h
  dsimp only at h
  have goes : GoesTo L u := by
    refine ⟨.of_locate (fresh.orderly.grows grows) (grows.here ▸ fresh.here) hl
      (room p u L hdirectory hl), fun o ho => ?_⟩
    rw [grows.logger, fresh.outlets] at ho
    exact absurd ho List.not_mem_nil
  have hkeeps := (goes.leads_addOutlets level).step
  rw [h] at hkeeps
  exact ⟨L, ⟨(goes.addOutlets_ok h).changes hkeeps.toChanges, p,
    (homely_place asked).after hplace (sameHomes_of_run h₀), hkeeps.locate_iff.mpr hl⟩,
    hkeeps.goes goes, fun m hm => (uses_iff hdirectory hl).mpr hm⟩

/-- Where the log can have its files it is set up, and nothing changes but them. -/
theorem Lodging.run_setUp (lodging : Lodging asked L w) (outlets : w.logger.outlets = [])
    (level : Level) : ∃ v, (setUp level asked).run w = (.ok (), v) ∧ w.Changes (At L) v ∧
      GoesTo L v ∧ Lodging asked L v := by
  obtain ⟨p, hplace, hp⟩ := lodging.place
  have lodged := lodging.toLodged
  have goes : GoesTo L w := by
    refine ⟨lodged.home, fun o ho => ?_⟩
    rw [outlets] at ho
    exact absurd ho List.not_mem_nil
  have hdirectory : (Log.directory asked).run w = (.ok p, w) := by
    rw [run_directory, run_bind_ok hplace, run_bind_ok
      (run_ensureTree_there lodged.home.orderly.sound hp lodged.directory)]
    rfl
  have hkeeps := (goes.leads_addOutlets level).step
  obtain ⟨v, hv⟩ := lodged.run_addOutlets level
  rw [hv] at hkeeps
  have hrun : (setUp level asked).run w = (.ok (), v) := by
    rw [run_setUp_bare outlets, hdirectory]
    dsimp only
    rw [hp]
    exact hv
  refine ⟨v, hrun, hkeeps.toChanges, hkeeps.goes goes, ?_⟩
  exact lodging.roads hkeeps.toChanges.keepsRoads (lodged.home.changes hkeeps.toChanges)
    (sameHomes_of_run hrun)

end Log

end LabelBook
