import LabelBook.Proofs.Files.Changes
import LabelBook.Proofs.Files.Writing

/-!
Moving a file over what the path beside it names. The move is refused if the path ends in two dots, if
its last name is too long, or if a directory stands there; otherwise the file stands there, and the
path leads to it unless the way to the name goes through what stood under that name.
-/

namespace LabelBook.World

variable {w v u : World} {p : Path} {d : Nat × Location} {name : Text} {octets : Octets}

/-- Why a file beside a path cannot be moved to it. -/
inductive Unplaceable (w : World) (p : Path) : Reason → Prop where
  | busy (h : p.name = "..") : Unplaceable w p .busy
  | nameTooLong (h : Tree.maxNameLength < Tree.nameLength p.name) : Unplaceable w p .nameTooLong
  | isDirectory (l : Location) (h : w.locate .entry p = .ok l)
      (hl : w.tree.get? l = some .directory) : Unplaceable w p .isDirectory

/-- A world in which a file with some octets has gone from one place to another, and what stands
anywhere else is the same as before it came to the first. -/
structure Moved (w v : World) (source target : Location) (octets : Octets) : Prop where
  file : ∃ number content, v.tree.get? target = some (.file number content) ∧ content.octets = octets
  gone : v.tree.get? source = none
  others : ∀ m, m ≠ target → m ≠ source → v.tree.get? m = w.tree.get? m
  here : v.here = w.here
  quiet : v.Quiet

theorem Moved.hasFile {source target : Location} (h : w.Moved v source target octets)
    (hsource : w.tree.get? source = none) : w.HasFile v target octets := by
  refine ⟨h.file, fun m hm => ?_, h.here, h.quiet⟩
  by_cases hs : m = source
  · rw [hs, h.gone, hsource]
  · exact h.others m hm hs

theorem rename_of_refused {source target : Path} {l : Location} {why : Reason}
    (hsource : w.locate .entry source = .ok l)
    (htarget : w.locate .entry target = .error (.system why target.text none)) :
    w.rename source target = (.error (.system why source.text (some target.text)), w) := by
  unfold World.rename
  rw [hsource, htarget]
  rfl

theorem rename_of_located {source target : Path} {l m : Location}
    (hsource : w.locate .entry source = .ok l) (htarget : w.locate .entry target = .ok m) :
    w.rename source target =
      if !endsInName source || !endsInName target then
        (.error (.system .busy source.text (some target.text)), w)
      else match w.tree.rename l m with
        | .error why => (.error (.system why source.text (some target.text)), w)
        | .ok tree => (.ok (), { w with tree := tree }) := by
  cases htree : w.tree.rename l m <;> simp only [World.rename, hsource, htarget, htree]

theorem endsInName_child {n : Text} (h : n ≠ "..") : endsInName (p.parent.child n) = true := by
  simp [endsInName, Path.child, Path.name, h]

theorem endsInName_of_name (hnames : p.names = p.names.dropLast ++ [p.name]) (h : p.name ≠ "..") :
    endsInName p = true := by
  rw [endsInName, hnames]
  simp [h]

/-- Moving a file that has come to stand beside a path to that path. -/
theorem HasFile.run_rename (h : w.HasFile v (d.2 ++ [name]) octets) (sound : w.Sound)
    (spot : w.Spot (p.parent.child name) d name) (hl : w.TakesFile (d.2 ++ [name]))
    (hhanded : p.handedOver = .ok p.text) (hnames : p.names = p.names.dropLast ++ [p.name])
    (hdot : p.name ≠ ".") (hempty : p.name ≠ []) (hne : name ≠ p.name) :
    (∃ why, w.Unplaceable p why ∧ (Program.rename (p.parent.child name) p).run v =
        (.error (.refused (.system why (p.parent.child name).text (some p.text))), v)) ∨
      ∃ u, (Program.rename (p.parent.child name) p).run v = (.ok (), u) ∧ w.Spot p d p.name ∧
        w.tree.get? (d.2 ++ [p.name]) ≠ some .directory ∧
        w.Moved u (d.2 ++ [name]) (d.2 ++ [p.name]) octets := by
  have hdrop : (p.parent.child name).names.dropLast = p.names.dropLast :=
    List.dropLast_concat
  have vspot := h.spot hl spot
  have hsource := vspot.locate_entry
  have hway : v.tree.descend Tree.maxLinks (v.start p) p.names.dropLast = .ok d :=
    hdrop ▸ vspot.directory
  have htarget := locate_of_descend hhanded hnames hempty hway .entry
  rw [Program.run_rename]
  by_cases hdots : p.name = ".."
  · refine Or.inl ⟨.busy, .busy hdots, ?_⟩
    rw [hdots, Tree.walk, if_pos rfl, Tree.walk] at htarget
    rw [rename_of_located hsource htarget]
    have hends : endsInName p = false := by simp [endsInName, hdots]
    rw [hends]
    simp [Except.mapError]
  have isName : Tree.IsName p.name := ⟨hdots, hdot, hempty⟩
  by_cases hlong : Tree.maxNameLength < Tree.nameLength p.name
  · refine Or.inl ⟨.nameTooLong, .nameTooLong hlong, ?_⟩
    rw [Tree.walk_longName isName hlong] at htarget
    rw [rename_of_refused hsource htarget]
    rfl
  have wspot : w.Spot p d p.name := spot.beside rfl (hdrop ▸ hnames) ⟨_, hhanded⟩ isName
    (Nat.not_lt.mp hlong)
  have hparent : w.tree.get? d.2 = some .directory := spot.parent_directory sound
  have hplaces : d.2 ++ [name] ≠ d.2 ++ [p.name] := by simp [hne]
  have hlength : (d.2 ++ [name]).length = (d.2 ++ [p.name]).length := by simp
  obtain ⟨number, content, hfile, hcontent⟩ := h.file
  have hother := h.others _ hplaces.symm
  rw [rename_of_located hsource (h.spot hl wspot).locate_entry,
    endsInName_child spot.isName.1, endsInName_of_name hnames hdots]
  simp only [Bool.not_true, Bool.or_self, Bool.false_eq_true, if_false]
  by_cases hdirectory : w.tree.get? (d.2 ++ [p.name]) = some .directory
  · refine Or.inl ⟨.isDirectory, .isDirectory _ wspot.locate_entry hdirectory, ?_⟩
    rw [Tree.rename_onto_directory hfile hlength (hother.trans hdirectory)]
    rfl
  · have hsound := h.sound sound hparent hl.ne_directory
    obtain ⟨t, ht, hget⟩ := Tree.rename_file hsound.tree hfile hplaces hlength
      (by rw [hother]; exact hdirectory)
    rw [ht]
    refine Or.inr ⟨_, rfl, wspot, hdirectory, ⟨number, content, ?_, hcontent⟩, ?_, fun m hm hmT => ?_,
      h.here, h.quiet⟩
    · exact (hget _).trans (if_pos rfl)
    · exact (hget _).trans ((if_neg hplaces).trans (if_pos rfl))
    · exact (hget m).trans ((if_neg hm).trans ((if_neg hmT).trans (h.others m hmT)))

/-! ### After the move -/

theorem HasFile.keepsWays {l : Location} (h : w.HasFile v l octets) :
    w.tree.KeepsWays v.tree l := fun m hm _ => h.others m hm

theorem Moved.keepsWays {source target : Location} (h : w.Moved v source target octets)
    (hsource : w.TakesFile source) : w.tree.KeepsWays v.tree target := by
  intro m hm hway
  refine h.others m hm ?_
  rintro rfl
  rcases hway with hway | ⟨link, hway⟩
  · exact hsource.ne_directory hway
  · exact hsource.ne_link link hway

/-- A path leads to the file that has come to stand at its spot, unless it led to a directory or on to
too many links. -/
theorem Spot.read_file (spot : w.Spot p d name) (sound : w.Sound) (hhere : v.here = w.here)
    (keeps : w.tree.KeepsWays v.tree (d.2 ++ [name]))
    (hfile : ∃ number content, v.tree.get? (d.2 ++ [name]) = some (.file number content) ∧
      content.octets = octets)
    (hdirectory : w.species p ≠ .ok .directory)
    (hlinks : w.species p ≠ .error (.system .tooManyLinks p.text none)) :
    v.read p = .ok octets := by
  have hwalk := spot.locate .target
  have hspot : v.Spot p d name := by
    refine spot.transfer (by unfold start; rw [hhere]) ?_
    refine Tree.descend_keeps_link sound.tree keeps (start_directory sound p) spot.isName
      spot.short spot.directory (fun herror => hlinks ?_) fun l hl hget => hdirectory ?_
    · rw [species, hwalk, herror]
      rfl
    · rw [species, hwalk, hl]
      simp only [Except.mapError, Tree.species, hget]
      rfl
  obtain ⟨number, content, hget, hcontent⟩ := hfile
  have hlocate : v.locate .target p = .ok (d.2 ++ [name]) :=
    hspot.locate_of_no_link (fun target htarget => by rw [hget] at htarget; cases htarget) .target
  rw [World.read, hlocate]
  simp only [Tree.read, hget, hcontent]
  rfl

/-- A spot at which nothing stands is vacant still, if the way to it is. -/
theorem HasFile.vacant {q : Path} {other : Text} (h : w.HasFile v (d.2 ++ [name]) octets)
    (hl : w.tree.get? (d.2 ++ [name]) ≠ some .directory) (spot : w.Spot q d other)
    (hother : w.tree.get? (d.2 ++ [other]) = none) (hne : other ≠ name) {m : Location}
    (hm : v.locate .entry q = .ok m) : v.tree.get? m = none := by
  obtain ⟨number, content, hfile, -⟩ := h.file
  have hstart : v.start q = w.start q := by unfold start; rw [h.here]
  rcases Tree.descend_keeps h.keepsWays hl spot.directory with hway | ⟨_, _, _, _, _, hblocked⟩
  · rw [(spot.transfer hstart hway).locate_entry] at hm
    rw [← Except.ok.inj hm, h.others _ (by simp [hne]), hother]
  · obtain ⟨t, ht⟩ := spot.handedOver
    rw [locate_of_handedOver ht, spot.names, Tree.walk_append spot.isName.2.2, hstart,
      hblocked number content hfile] at hm
    cases hm

end LabelBook.World
