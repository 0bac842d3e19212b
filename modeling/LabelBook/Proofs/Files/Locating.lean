import LabelBook.Proofs.Files.Changes
import LabelBook.Proofs.Files.Paths
import LabelBook.World

/-!
The places that paths lead to in a world. A path that ends in a name has a spot: the directory that the
names before the last lead to, and the place in it that has that name. The spot is what the path leads
to unless a link stands there; a path without a spot is refused for whatever it is walked.
-/

namespace LabelBook.World

variable {w v : World} {p : Path}

/-- A world in which everything stands in a directory, and so does who is in it. -/
structure Sound (w : World) : Prop where
  tree : w.tree.Sound
  here : w.tree.get? w.here = some .directory

/-- Where the walk of a path starts. -/
def start (w : World) (p : Path) : Location :=
  match p.anchor with
  | .here => w.here
  | _ => []

theorem start_directory (sound : w.Sound) (p : Path) : w.tree.get? (w.start p) = some .directory := by
  unfold start
  split
  · exact sound.here
  · rfl

theorem locate_of_handedOver {t : Text} (h : p.handedOver = .ok t) (aim : Tree.Aim) :
    w.locate aim p = (w.tree.walk aim Tree.maxLinks (w.start p) p.names).mapError
      fun why => .system why p.text none := by
  cases hanchor : p.anchor <;> simp only [locate, start, h, hanchor]

theorem locate_root (w : World) : w.locate .target (.ofRoot []) = .ok [] := by
  rw [locate_of_handedOver (t := "/") (by decide +kernel)]
  show (w.tree.walk .target Tree.maxLinks [] []).mapError _ = _
  rw [Tree.walk]
  rfl

theorem read_of_locate {l : Location} (h : w.locate .target p = .ok l) :
    w.read p = refuse p (w.tree.read l) := by rw [World.read, h]

theorem species_of_locate {l : Location} (h : w.locate .target p = .ok l) :
    w.species p = refuse p (w.tree.species l) := by rw [World.species, h]

/-- The spot of a path: the directory that the names before its last name lead to, with the number of
links that may still be followed, and that name. -/
structure Spot (w : World) (p : Path) (d : Nat × Location) (name : Text) : Prop where
  handedOver : ∃ t, p.handedOver = .ok t
  names : p.names = p.names.dropLast ++ [name]
  directory : w.tree.descend Tree.maxLinks (w.start p) p.names.dropLast = .ok d
  isName : Tree.IsName name
  short : Tree.nameLength name ≤ Tree.maxNameLength

variable {d : Nat × Location} {name : Text}

/-- The way to the last name of a path, from the directory that the names before it lead to. -/
theorem locate_of_descend {t : Text} (hhanded : p.handedOver = .ok t)
    (hnames : p.names = p.names.dropLast ++ [name]) (hname : name ≠ [])
    (h : w.tree.descend Tree.maxLinks (w.start p) p.names.dropLast = .ok d) (aim : Tree.Aim) :
    w.locate aim p = (w.tree.walk aim d.1 d.2 [name]).mapError
      fun why => .system why p.text none := by
  rw [locate_of_handedOver hhanded, hnames, Tree.walk_append hname, h]
  rfl

theorem Spot.locate (h : w.Spot p d name) (aim : Tree.Aim) : w.locate aim p =
    (w.tree.walk aim d.1 d.2 [name]).mapError fun why => .system why p.text none :=
  let ⟨_, ht⟩ := h.handedOver
  locate_of_descend ht h.names h.isName.2.2 h.directory aim

theorem Spot.locate_entry (h : w.Spot p d name) : w.locate .entry p = .ok (d.2 ++ [name]) := by
  rw [h.locate, Tree.walk_name h.isName h.short]
  cases hget : w.tree.get? (d.2 ++ [name]) with
  | none => rfl
  | some e => cases e <;> rfl

theorem Spot.locate_of_no_link (h : w.Spot p d name)
    (hlink : ∀ target, w.tree.get? (d.2 ++ [name]) ≠ some (.link target)) (aim : Tree.Aim) :
    w.locate aim p = .ok (d.2 ++ [name]) := by
  rw [h.locate, Tree.walk_name h.isName h.short]
  cases hget : w.tree.get? (d.2 ++ [name]) with
  | none => rfl
  | some e =>
    cases e with
    | link target => exact absurd hget (hlink target)
    | file _ _ | directory => rfl

/-- A path that ends in a name has a spot, or it is refused by the system for whatever it is walked. -/
theorem spot_or_refused (hnames : p.names = p.names.dropLast ++ [name]) (isName : Tree.IsName name)
    (hhanded : p.handedOver = .ok p.text ∨
      p.handedOver = .error (.system .nameTooLong p.text none)) :
    (∃ d, w.Spot p d name) ∨ ∃ why, ∀ aim, w.locate aim p = .error (.system why p.text none) := by
  rcases hhanded with hhanded | hhanded
  · cases hdescend : w.tree.descend Tree.maxLinks (w.start p) p.names.dropLast with
    | error why =>
      refine Or.inr ⟨why, fun aim => ?_⟩
      rw [locate_of_handedOver hhanded, hnames, Tree.walk_append isName.2.2, hdescend]
      rfl
    | ok d =>
      by_cases hlength : Tree.nameLength name ≤ Tree.maxNameLength
      · exact Or.inl ⟨d, ⟨_, hhanded⟩, hnames, hdescend, isName, hlength⟩
      · refine Or.inr ⟨.nameTooLong, fun aim => ?_⟩
        rw [locate_of_handedOver hhanded, hnames, Tree.walk_append isName.2.2, hdescend]
        simp only [Except.bind]
        rw [Tree.walk_longName isName (Nat.lt_of_not_le hlength)]
        rfl
  · refine Or.inr ⟨.nameTooLong, fun aim => ?_⟩
    unfold World.locate
    rw [hhanded]

/-- A name of its own has a spot in the directory one is in. -/
theorem spot_here (isName : Tree.IsName name) (short : Tree.nameLength name ≤ Tree.maxNameLength)
    (hhanded : Path.handedOver ⟨.here, [name]⟩ = .ok (Path.text ⟨.here, [name]⟩)) :
    w.Spot ⟨.here, [name]⟩ (Tree.maxLinks, w.here) name :=
  ⟨⟨_, hhanded⟩, rfl, by rw [List.dropLast_singleton, Tree.descend]; rfl, isName, short⟩

/-- A name has a spot in a directory that stands where one is. -/
theorem spot_inside {n : Text} {l : Location} (here : w.here = l) (isName : Tree.IsName n)
    (short : Tree.nameLength n ≤ Tree.maxNameLength)
    (hdirectory : w.tree.get? (l ++ [n]) = some .directory) (isName' : Tree.IsName name)
    (short' : Tree.nameLength name ≤ Tree.maxNameLength)
    (hhanded : ∃ t, Path.handedOver ⟨.here, [n, name]⟩ = .ok t) :
    w.Spot ⟨.here, [n, name]⟩ (Tree.maxLinks, l ++ [n]) name := by
  subst here
  refine ⟨hhanded, rfl, ?_, isName', short'⟩
  show w.tree.descend Tree.maxLinks w.here [n] = _
  have hplain : (n.isEmpty || decide (n = ".")) = false := by
    rw [Bool.or_eq_false_iff, List.isEmpty_eq_false_iff, decide_eq_false_iff_not]
    exact ⟨isName.2.2, isName.2.1⟩
  rw [Tree.descend, if_neg isName.1, if_neg (Bool.eq_false_iff.mp hplain), if_neg short.not_gt,
    hdirectory]
  dsimp only
  rw [Tree.descend]

/-- A spot stays where it is when the directories and links on the way do. -/
theorem Spot.transfer (h : w.Spot p d name) (hstart : v.start p = w.start p)
    (hdescend : v.tree.descend Tree.maxLinks (w.start p) p.names.dropLast = .ok d) :
    v.Spot p d name :=
  ⟨h.handedOver, h.names, hstart ▸ hdescend, h.isName, h.short⟩

/-- A spot stays where it is when the tree changes at a place where there is no directory and no
link. -/
theorem Spot.keeps {l : Location} (h : w.Spot p d name) (hhere : v.here = w.here)
    (hget : ∀ m, m ≠ l → v.tree.get? m = w.tree.get? m)
    (hdirectory : w.tree.get? l ≠ some .directory)
    (hlink : ∀ target, w.tree.get? l ≠ some (.link target)) : v.Spot p d name := by
  refine h.transfer (by unfold start; rw [hhere]) ?_
  exact Tree.descend_keeps_all (fun m hm _ => hget m hm) hdirectory hlink h.directory

/-- The spots of two paths that differ in their last names only. -/
theorem Spot.beside {q : Path} {other : Text} (h : w.Spot p d name) (hanchor : q.anchor = p.anchor)
    (hnames : q.names = p.names.dropLast ++ [other]) (hhanded : ∃ t, q.handedOver = .ok t)
    (isName : Tree.IsName other) (short : Tree.nameLength other ≤ Tree.maxNameLength) :
    w.Spot q d other := by
  have hdrop : q.names.dropLast = p.names.dropLast := by rw [hnames, List.dropLast_concat]
  refine ⟨hhanded, by rw [hdrop, hnames], ?_, isName, short⟩
  rw [hdrop, show w.start q = w.start p by unfold start; rw [hanchor]]
  exact h.directory

/-- The directory of a spot. -/
theorem Spot.parent_directory (sound : w.Sound) (h : w.Spot p d name) :
    w.tree.get? d.2 = some .directory :=
  Tree.descend_directory sound.tree (start_directory sound p) h.directory

end LabelBook.World
