import LabelBook.Proofs.Files.Growing

/-!
Ways to directories. Names that lead to a directory lead there still when directories are made, when
files come and go, and when a file takes the place of a link that leads to no directory. So the spot of a
path stays where it is, and a path to a directory leads there; what stands at the spot is another matter.
-/

namespace LabelBook

namespace Tree

variable {t u v : Tree} {links : Nat} {l m : Location} {names : List Text} {d : Nat × Location}

/-- A tree in which names that led to directories of another lead there. -/
def KeepsRoads (t u : Tree) : Prop :=
  ∀ {links l names d}, t.descend links l names = .ok d → u.descend links l names = .ok d

theorem SameWays.keepsRoads (h : SameWays t u) : t.KeepsRoads u := by
  intro links l names d hd
  fun_induction descend t links l names with
  | case1 => rw [descend, hd]
  | case2 _ _ _ ih => rw [descend, if_pos rfl, ih hd]
  | case3 _ _ _ _ h₁ h₂ ih => rw [descend, if_neg h₁, if_pos h₂, ih hd]
  | case6 _ _ _ _ h₁ h₂ h₃ hget ih =>
    rw [descend, if_neg h₁, if_neg h₂, if_neg h₃]
    simp only [h.directory_iff.mpr hget, ih hd]
  | case9 _ _ _ h₁ h₂ h₃ _ hget _ ih =>
    rw [descend, if_neg h₁, if_neg h₂, if_neg h₃]
    simp only [h.link_iff.mpr hget]
    exact ih hd
  | case4 | case5 | case7 | case8 => cases hd

/-! ### Places that no way goes through -/

/-- A place at which no directory stands and no link to one, so that no way to a directory goes through
it. -/
structure Blind (t : Tree) (l : Location) : Prop where
  directory : t.get? l ≠ some .directory
  link : ∀ target links d, t.get? l = some (.link target) →
    t.descend links (if Path.anchorOf target = .here then l.dropLast else [])
      (Path.stepsOf target) ≠ .ok d

theorem Plain.blind (h : t.Plain l) : t.Blind l :=
  ⟨h.ne_directory, fun target _ _ hget => absurd hget (h.ne_link target)⟩

theorem Blind.sameWays (h : t.Blind l) (hways : SameWays t u) : u.Blind l := by
  refine ⟨fun hget => h.directory (hways.directory_iff.mp hget), fun target links d hget hd => ?_⟩
  exact h.link target links d (hways.link_iff.mp hget) (hways.symm.keepsRoads hd)

/-- What comes to stand at a blind place does not concern the ways to directories. -/
theorem KeepsWays.keepsRoads (h : t.KeepsWays u l) (blind : t.Blind l) : t.KeepsRoads u := by
  intro links start names d hd
  rcases descend_keeps h blind.directory hd with hd | ⟨target, more, rest, hget, hthrough, -⟩
  · exact hd
  · rw [descend_append] at hthrough
    cases hsteps : t.descend more (if Path.anchorOf target = .here then l.dropLast else [])
        (Path.stepsOf target) with
    | error why => rw [hsteps] at hthrough; cases hthrough
    | ok d' => exact absurd hsteps (blind.link target more d' hget)

/-! ### Walks to directories -/

/-- Names that lead to a directory lead there when they are walked for what they lead to. -/
theorem walk_target_of_descend (h : t.descend links l names = .ok d) :
    t.walk .target links l names = .ok d.2 := by
  have hslash : ∀ rest : List Text, ¬ (decide (Aim.target = .writing) && rest == [[]]) = true := by
    intro rest; simp
  fun_induction descend t links l names with
  | case1 => rw [← Except.ok.inj h, walk]
  | case2 _ _ _ ih => rw [walk, if_pos rfl, ih h]
  | case3 _ _ _ _ h₁ h₂ ih => rw [walk, if_neg h₁, if_pos h₂, ih h]
  | case6 _ _ _ rest h₁ h₂ h₃ hget ih =>
    rw [walk, if_neg h₁, if_neg h₂, if_neg (hslash rest), if_neg h₃]
    simp only [hget, ih h]
  | case9 _ _ rest h₁ h₂ h₃ _ hget _ ih =>
    rw [walk, if_neg h₁, if_neg h₂, if_neg (hslash rest), if_neg h₃]
    simp only [hget, reduceCtorEq, decide_false, Bool.and_false, Bool.false_eq_true, if_false]
    exact ih h
  | case4 | case5 | case7 | case8 => cases h

/-- Something stands at the entry that names of a directory end with. -/
theorem walk_entry_of_target (h : t.walk .target links l names = .ok m)
    (hl : t.get? l = some .directory) (sound : t.Sound) (hm : t.get? m = some .directory) :
    ∃ k, t.walk .entry links l names = .ok k ∧ (t.get? k).isSome := by
  fun_induction walk t .target links l names with
  | case1 links l =>
    obtain rfl := Except.ok.inj h
    exact ⟨l, by rw [walk], by rw [hm]; rfl⟩
  | case2 _ _ _ ih => rw [walk, if_pos rfl]; exact ih h (sound.dropLast hl)
  | case3 _ _ _ _ h₁ h₂ ih => rw [walk, if_neg h₁, if_pos h₂]; exact ih h hl
  | case6 _ _ _ _ _ _ _ _ k hget _ =>
    rw [← Except.ok.inj h] at hm
    simp only [k] at hget
    cases hget.symm.trans hm
  | case8 _ _ _ _ h₁ h₂ _ h₄ k hget ih =>
    rw [walk, if_neg h₁, if_neg h₂, if_neg (by simp), if_neg h₄]
    simp only [k] at hget ih h ⊢
    simp only [hget]
    exact ih h hget
  | case9 _ _ _ _ _ _ _ _ k _ _ hget _ =>
    rw [← Except.ok.inj h] at hm
    simp only [k] at hget
    cases hget.symm.trans hm
  | case13 l n rest h₁ h₂ _ h₄ k target hget _ more ih =>
    rw [walk, if_neg h₁, if_neg h₂, if_neg (by simp), if_neg h₄]
    simp only [k] at hget ⊢
    simp only [hget]
    split
    · exact ⟨_, rfl, by rw [hget]; rfl⟩
    · refine ih h ?_
      split
      · exact hl
      · rfl
  | case11 _ _ _ _ _ _ _ _ _ _ _ hlast => simp at hlast
  | case4 | case5 | case7 | case10 | case12 => cases h

end Tree

namespace World

variable {w v u : World} {p : Path} {l : Location} {d : Nat × Location} {name : Text}
  {may : Location → Prop}

/-- A world in which one is in the same directory, ways to directories lead there as before, and no
directory and no link has come to a place where there was none. -/
structure KeepsRoads (w v : World) : Prop where
  tree : w.tree.KeepsRoads v.tree
  here : v.here = w.here
  plain : ∀ m, w.tree.Plain m → v.tree.Plain m

instance : IsPreorder World KeepsRoads where
  refl _ := ⟨id, rfl, fun _ => id⟩
  trans _ _ _ h h' := ⟨fun hd => h'.tree (h.tree hd), h'.here.trans h.here,
    fun m hm => h'.plain m (h.plain m hm)⟩

theorem Changes.keepsRoads (h : w.Changes may v) : w.KeepsRoads v :=
  ⟨h.tree.ways.keepsRoads, h.here, fun _ => h.tree.ways.plain⟩

theorem Changes.keepsRoads_back (h : w.Changes may v) : v.KeepsRoads w :=
  ⟨h.tree.ways.symm.keepsRoads, h.here.symm, fun _ => h.tree.ways.symm.plain⟩

theorem KeepsRoads.start (h : w.KeepsRoads v) (p : Path) : v.start p = w.start p := by
  unfold World.start
  rw [h.here]

theorem Spot.roads (spot : w.Spot p d name) (h : w.KeepsRoads v) : v.Spot p d name :=
  spot.transfer (h.start p) (h.tree spot.directory)

/-- A path that led to a directory leads there. -/
theorem KeepsRoads.locate_directory (h : w.KeepsRoads v) (hl : w.locate .target p = .ok l)
    (hdirectory : w.tree.get? l = some .directory) : v.locate .target p = .ok l := by
  obtain ⟨⟨t, ht⟩, hwalk⟩ := locate_ok hl
  obtain ⟨links, hd⟩ := Tree.descend_of_walk hwalk hdirectory
  rw [locate_of_handedOver ht, h.start, Tree.walk_target_of_descend (h.tree hd)]
  rfl

/-- A directory on the way to a path is one still. -/
theorem KeepsRoads.get?_directory (h : w.KeepsRoads v) (sound : v.Sound)
    (hl : w.locate .target p = .ok l) (hdirectory : w.tree.get? l = some .directory) :
    v.tree.get? l = some .directory := by
  obtain ⟨links, hd⟩ := Tree.descend_of_walk (locate_ok hl).2 hdirectory
  have hstart : v.tree.get? (w.start p) = some .directory := h.start p ▸ start_directory sound p
  exact Tree.descend_directory sound.tree hstart (h.tree hd)

end World

/-! ### Directories that are there -/

namespace Program

open World

variable {w : World} {p : Path} {l : Location}

theorem run_isDirectory (h : w.species p = .ok .directory) :
    (isDirectory p).run w = (.ok true, w) := by
  unfold isDirectory
  rw [run_ask]
  simp only [World.answer, h]
  rfl

/-- A directory that is there is not made again, and that is no failure. -/
theorem run_ensureTree_there (sound : w.Sound) (hl : w.locate .target p = .ok l)
    (hdirectory : w.tree.get? l = some .directory) : (ensureTree p).run w = (.ok (), w) := by
  have hspecies : w.species p = .ok .directory := by
    rw [species_of_locate hl, Tree.species, hdirectory]
    rfl
  obtain ⟨⟨t, ht⟩, hwalk⟩ := locate_ok hl
  obtain ⟨k, hk, hsome⟩ :=
    Tree.walk_entry_of_target hwalk (start_directory sound p) sound.tree hdirectory
  obtain ⟨e, he⟩ := Option.isSome_iff_exists.mp hsome
  have hmake : (makeDirectory p).run w =
      (.error (.refused (.system .alreadyThere p.text none)), w) := by
    have hlocate : w.locate .entry p = .ok k := by
      rw [locate_of_handedOver ht, hk]
      rfl
    refine (run_attempt (w := w) (.makeDirectory p) id).trans ?_
    simp only [World.answer, World.change, hlocate, Tree.makeDirectory, he]
    rfl
  have hgiven : ∀ f, (do if ← isDirectory p then done () else fail f : Program Unit).run w =
      (.ok (), w) := by
    intro f
    rw [run_bind_ok (run_isDirectory hspecies)]
    rfl
  unfold ensureTree
  cases p.names.length with
  | zero =>
    rw [ensureDirectories, ensureDirectory, run_orElse, hmake]
    dsimp only
    rw [if_pos (by rfl)]
    exact hgiven _
  | succ depth =>
    rw [ensureDirectories, run_orElse, hmake]
    exact hgiven _

end Program

end LabelBook
