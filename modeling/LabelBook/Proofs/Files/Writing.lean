import LabelBook.LabelFile
import LabelBook.Proofs.Files.Locating
import LabelBook.Proofs.Running

/-!
Writing at the spot of a path. A file comes to stand there and nothing else is different; a label file
is written in two such steps, the first of which leaves it empty, so a text that has no octets leaves
an empty file behind.
-/

namespace LabelBook

namespace Tree

variable {t u : Tree}

/-- A walk looks at the entries of a tree and nothing else. -/
theorem walk_congr (h : ∀ m, u.get? m = t.get? m) (aim : Aim) (links : Nat) (l : Location)
    (names : List Text) : u.walk aim links l names = t.walk aim links l names := by
  fun_induction walk t aim links l names with
  | case1 => rw [walk]
  | case2 _ _ _ ih => rw [walk, if_pos rfl, ih]
  | case3 _ _ _ _ h₁ h₂ ih => rw [walk, if_neg h₁, if_pos h₂, ih]
  | case4 _ _ _ _ h₁ h₂ h₃ => rw [walk, if_neg h₁, if_neg h₂, if_pos h₃]
  | case5 _ _ _ _ h₁ h₂ h₃ h₄ => rw [walk, if_neg h₁, if_neg h₂, if_neg h₃, if_pos h₄]
  | case8 _ _ _ _ h₁ h₂ h₃ h₄ m hget ih =>
    rw [walk, if_neg h₁, if_neg h₂, if_neg h₃, if_neg h₄]
    simp only [h, m] at hget ih ⊢
    simp only [hget, ih]
  | case13 _ _ _ h₁ h₂ h₃ h₄ m _ hget hlast _ ih =>
    rw [walk, if_neg h₁, if_neg h₂, if_neg h₃, if_neg h₄]
    simp only [h, m] at hget ⊢
    simp only [hget, if_neg hlast]
    exact ih
  | case6 _ _ _ _ h₁ h₂ h₃ h₄ m hget hrest | case7 _ _ _ _ h₁ h₂ h₃ h₄ m hget hrest
  | case9 _ _ _ _ h₁ h₂ h₃ h₄ m _ _ hget hrest | case10 _ _ _ _ h₁ h₂ h₃ h₄ m _ _ hget hrest
  | case11 _ _ _ _ h₁ h₂ h₃ h₄ m _ hget hrest | case12 _ _ _ h₁ h₂ h₃ h₄ m _ hget hrest =>
    rw [walk, if_neg h₁, if_neg h₂, if_neg h₃, if_neg h₄]
    simp only [h, m] at hget ⊢
    simp [hget, hrest]

/-- A walk to an entry that is a file goes on to what the path leads to: that file. -/
theorem walk_target_of_entry {links number : Nat} {l m : Location} {names : List Text}
    {content : Content} (h : t.walk .entry links l names = .ok m)
    (hm : t.get? m = some (.file number content)) : t.walk .target links l names = .ok m := by
  fun_induction walk t .entry links l names with
  | case1 => rw [walk, h]
  | case2 _ _ _ ih => rw [walk, if_pos rfl, ih h]
  | case3 _ _ _ _ h₁ h₂ ih => rw [walk, if_neg h₁, if_pos h₂, ih h]
  | case8 _ _ _ _ h₁ h₂ _ h₄ k hget ih =>
    rw [walk, if_neg h₁, if_neg h₂, if_neg (by simp), if_neg h₄]
    simp only [k] at hget ih h ⊢
    simp only [hget, ih h]
  | case13 _ _ _ h₁ h₂ _ h₄ k _ hget hlast _ ih =>
    rw [walk, if_neg h₁, if_neg h₂, if_neg (by simp), if_neg h₄]
    simp only [k] at hget ⊢
    simp only [hget]
    exact (if_neg (by simp)).trans (ih h)
  | case6 _ _ _ _ h₁ h₂ _ h₄ k hget hrest | case9 _ _ _ _ h₁ h₂ _ h₄ k _ _ hget hrest =>
    rw [walk, if_neg h₁, if_neg h₂, if_neg (by simp), if_neg h₄]
    simp only [k] at hget h ⊢
    simp only [hget]
    exact (if_pos hrest).trans h
  | case11 _ _ _ _ _ _ _ _ k _ hget _ =>
    rw [← Except.ok.inj h, hget] at hm
    cases hm
  | case4 | case5 | case7 | case10 | case12 => cases h

/-- Why a walk to what a path leads to ends early. -/
theorem walk_target_error {links : Nat} {l : Location} {names : List Text} {why : Reason}
    (h : t.walk .target links l names = .error why) :
    why.meansAbsent = true ∨ why = .nameTooLong := by
  fun_induction walk t .target links l names with
  | case2 _ _ _ ih | case3 _ _ _ _ _ _ ih | case8 _ _ _ _ _ _ _ _ _ _ ih
  | case13 _ _ _ _ _ _ _ _ _ _ _ _ ih => exact ih h
  | case4 _ _ _ _ _ _ h₃ => simp at h₃
  | case5 => exact Or.inr (Except.error.inj h).symm
  | case7 | case10 | case12 => rw [← Except.error.inj h]; exact Or.inl rfl
  | case1 | case6 | case9 | case11 => cases h

end Tree

namespace World

variable {w v u : World} {p : Path} {l : Location} {octets : Octets}

/-- A world in which the same stands everywhere as in another. -/
structure SameEntries (w v : World) : Prop where
  get? : ∀ m, v.tree.get? m = w.tree.get? m
  here : v.here = w.here
  quiet : v.Quiet

/-- A world in which a file with some octets stands at a place, and what stands anywhere else is the
same as in another. -/
structure HasFile (w v : World) (l : Location) (octets : Octets) : Prop where
  file : ∃ number content, v.tree.get? l = some (.file number content) ∧ content.octets = octets
  others : ∀ m, m ≠ l → v.tree.get? m = w.tree.get? m
  here : v.here = w.here
  quiet : v.Quiet

/-- A place at which a file can come to stand: nothing stands there, or a file. -/
def TakesFile (w : World) (l : Location) : Prop :=
  w.tree.get? l = none ∨ ∃ number content, w.tree.get? l = some (.file number content)

theorem TakesFile.ne_directory (h : w.TakesFile l) : w.tree.get? l ≠ some .directory :=
  Tree.Plain.ne_directory h

theorem TakesFile.ne_link (h : w.TakesFile l) (target : Text) :
    w.tree.get? l ≠ some (.link target) := Tree.Plain.ne_link h target

theorem SameFiles.sameEntries (h : w.SameFiles v) : w.SameEntries v :=
  ⟨fun m => by rw [h.tree], h.here, h.quiet⟩

theorem SameEntries.trans (h : w.SameEntries v) (h' : v.SameEntries u) : w.SameEntries u :=
  ⟨fun m => (h'.get? m).trans (h.get? m), h'.here.trans h.here, h'.quiet⟩

theorem SameEntries.sound (h : w.SameEntries v) (sound : w.Sound) : v.Sound :=
  ⟨fun l name e hget => by rw [h.get?] at hget ⊢; exact sound.tree l name e hget,
    by rw [h.get?, h.here]; exact sound.here⟩

theorem SameEntries.start (h : w.SameEntries v) (p : Path) : v.start p = w.start p := by
  unfold World.start
  rw [h.here]

/-- Every path leads to the same place. -/
theorem SameEntries.locate (h : w.SameEntries v) (aim : Tree.Aim) (p : Path) :
    v.locate aim p = w.locate aim p := by
  cases hhanded : p.handedOver with
  | error r => unfold World.locate; rw [hhanded]
  | ok t => rw [locate_of_handedOver hhanded, locate_of_handedOver hhanded, h.start,
      Tree.walk_congr h.get?]

theorem SameFiles.locate (h : w.SameFiles v) (aim : Tree.Aim) (p : Path) :
    v.locate aim p = w.locate aim p := h.sameEntries.locate aim p

theorem SameFiles.hasFile (h : w.SameFiles v) (h' : v.HasFile u l octets) :
    w.HasFile u l octets :=
  ⟨h'.file, fun m hm => by rw [h'.others m hm, h.tree], h'.here.trans h.here, h'.quiet⟩

theorem HasFile.sameFiles (h : w.HasFile v l octets) (h' : v.SameFiles u) :
    w.HasFile u l octets :=
  ⟨by rw [h'.tree]; exact h.file, fun m hm => by rw [h'.tree, h.others m hm],
    h'.here.trans h.here, h'.quiet⟩

/-! ### Writing and removing at a spot -/

variable {d : Nat × Location} {name : Text}

/-- The spot of a path is still there after a file has come to stand at a place that took one. -/
theorem HasFile.spot {o : Octets} (h : w.HasFile v l o) (hl : w.TakesFile l)
    (spot : w.Spot p d name) : v.Spot p d name :=
  spot.keeps h.here h.others hl.ne_directory hl.ne_link

theorem HasFile.sound {parent : Location} {o : Octets} (h : w.HasFile v (parent ++ [name]) o)
    (sound : w.Sound) (hparent : w.tree.get? parent = some .directory)
    (hl : w.tree.get? (parent ++ [name]) ≠ some .directory) : v.Sound := by
  have hdirectory : ∀ m, w.tree.get? m = some .directory → v.tree.get? m = some .directory := by
    intro m hm
    rw [h.others m (by rintro rfl; exact hl hm), hm]
  refine ⟨fun m n e he => ?_, by rw [h.here]; exact hdirectory _ sound.here⟩
  by_cases hm : m ++ [n] = parent ++ [name]
  · rw [(List.append_inj' hm rfl).1]
    exact hdirectory _ hparent
  · rw [h.others _ hm] at he
    exact hdirectory _ (sound.tree m n e he)

/-- Writing at a spot that takes a file. -/
theorem Spot.run_write (spot : w.Spot p d name) (quiet : w.Quiet) (hl : w.TakesFile (d.2 ++ [name]))
    (octets : Octets) :
    ∃ v, (Program.write p octets).run w = (.ok (), v) ∧ w.HasFile v (d.2 ++ [name]) octets := by
  have hne : d.2 ++ [name] ≠ [] := by simp
  have hlocate := spot.locate_of_no_link hl.ne_link .writing
  rw [Program.run_write, World.change, hlocate]
  dsimp only
  rcases hl with hl | ⟨number, content, hl⟩
  · rw [show w.tree.write (d.2 ++ [name]) octets = .ok (w.tree.putNew (d.2 ++ [name]) (.ofOctets octets))
      by rw [Tree.write, hl]]
    refine ⟨_, rfl, ⟨w.tree.next, _, ?_, Content.octets_ofOctets octets⟩, fun m hm => ?_, rfl, quiet⟩
    · exact (Tree.get?_putNew w.tree hne _ _).trans (if_pos rfl)
    · exact (Tree.get?_putNew w.tree hne _ m).trans (if_neg hm)
  · rw [show w.tree.write (d.2 ++ [name]) octets =
      .ok (w.tree.put (d.2 ++ [name]) (.file number (.ofOctets octets))) by rw [Tree.write, hl]]
    refine ⟨_, rfl, ⟨number, _, ?_, Content.octets_ofOctets octets⟩, fun m hm => ?_, rfl, quiet⟩
    · exact (Tree.get?_put w.tree hne _ _).trans (if_pos rfl)
    · exact (Tree.get?_put w.tree hne _ m).trans (if_neg hm)

/-- Removing a file that has come to stand at a spot where nothing stood. -/
theorem HasFile.run_remove {o : Octets} (h : w.HasFile v (d.2 ++ [name]) o) (spot : w.Spot p d name)
    (hl : w.tree.get? (d.2 ++ [name]) = none) :
    ∃ u, (Program.remove p).run v = (.ok (), u) ∧ w.SameEntries u := by
  have hne : d.2 ++ [name] ≠ [] := by simp
  obtain ⟨number, content, hfile, -⟩ := h.file
  rw [Program.run_remove, World.change, (h.spot (Or.inl hl) spot).locate_entry]
  dsimp only
  rw [show v.tree.remove (d.2 ++ [name]) = .ok (v.tree.erase (d.2 ++ [name])) by rw [Tree.remove, hfile]]
  refine ⟨_, rfl, fun m => ?_, h.here, h.quiet⟩
  refine (Tree.get?_erase v.tree hne m).trans ?_
  by_cases hm : m = d.2 ++ [name]
  · rw [if_pos hm, hm, hl]
  · rw [if_neg hm, h.others m hm]

/-- A path that can be handed over is refused by the system only. -/
theorem locate_error {t : Text} {aim : Tree.Aim} {r : Refusal} (hhanded : p.handedOver = .ok t)
    (h : w.locate aim p = .error r) : ∃ why, r = .system why p.text none ∧
      w.tree.walk aim Tree.maxLinks (w.start p) p.names = .error why := by
  rw [locate_of_handedOver hhanded] at h
  cases hwalk : w.tree.walk aim Tree.maxLinks (w.start p) p.names with
  | ok l => rw [hwalk] at h; cases h
  | error why => rw [hwalk] at h; exact ⟨why, (Except.error.inj h).symm, rfl⟩

end World

/-! ### Writing a label file -/

namespace LabelFile

variable {w : World} {p : Path} {c : Collection} {t : Text}

/-- How writing a label file ends, from how writing its text does. -/
theorem run_write (h : c.text = .ok t) : (write c p).run w =
    match (writeText p t).run w with
    | (.ok (), v) => (.ok (), v)
    | (.error f, v) => (.error (.file .writing p.text (some f)), v) := by
  have htext : (Program.ofExcept (c.text.mapError Failure.unwritable)).run w = (.ok t, w) := by
    rw [Program.run_ofExcept, h]
    rfl
  rw [write, Program.run_orElse, Program.run_bind_ok htext]
  rcases (writeText p t).run w with ⟨_ | _, v⟩ <;> rfl

theorem run_write_unwritable {e : WriteError} (h : c.text = .error e) :
    (write c p).run w = (.error (.file .writing p.text (some (.unwritable e))), w) := by
  have htext : (Program.ofExcept (c.text.mapError Failure.unwritable)).run w =
      (.error (.unwritable e), w) := by
    rw [Program.run_ofExcept, h]
    rfl
  rw [write, Program.run_orElse, Program.run_bind_error htext]
  rfl

theorem run_write_refused {r : Refusal} (h : c.text = .ok t)
    (hlocate : w.locate .writing p = .error r) :
    (write c p).run w = (.error (.file .writing p.text (some (.refused r))), w) := by
  have hwrite : (Program.write p []).run w = (.error (.refused r), w) := by
    rw [Program.run_write, World.change, hlocate]
    rfl
  rw [run_write h, writeText, Program.run_bind_error hwrite]

variable {d : Nat × Location} {name : Text}

/-- A text without octets leaves an empty file. -/
theorem run_write_unencodable {e : Utf8.EncodeError} (h : c.text = .ok t)
    (hencode : Utf8.encode t = .error e) (spot : w.Spot p d name) (quiet : w.Quiet)
    (hl : w.TakesFile (d.2 ++ [name])) :
    ∃ v, (write c p).run w = (.error (.file .writing p.text (some (.unencodable e))), v) ∧
      w.HasFile v (d.2 ++ [name]) [] := by
  obtain ⟨v, hv, hfile⟩ := spot.run_write quiet hl []
  refine ⟨v, ?_, hfile⟩
  rw [run_write h, writeText, Program.run_bind_ok hv, hencode]
  rfl

/-- A text with octets leaves a file with these. -/
theorem run_write_ok {octets : Octets} (h : c.text = .ok t) (hencode : Utf8.encode t = .ok octets)
    (spot : w.Spot p d name) (quiet : w.Quiet) (hl : w.TakesFile (d.2 ++ [name])) :
    ∃ v, (write c p).run w = (.ok (), v) ∧ w.HasFile v (d.2 ++ [name]) octets := by
  obtain ⟨v, hv, hfile⟩ := spot.run_write quiet hl []
  obtain ⟨number, content, hnew, -⟩ := hfile.file
  obtain ⟨u, hu, hfile'⟩ := (hfile.spot hl spot).run_write hfile.quiet
    (Or.inr ⟨number, content, hnew⟩) octets
  refine ⟨u, ?_, hfile'.file, fun m hm => ?_, hfile'.here.trans hfile.here, hfile'.quiet⟩
  · rw [run_write h, writeText, Program.run_bind_ok hv, hencode]
    dsimp only
    rw [hu]
  · rw [hfile'.others m hm, hfile.others m hm]

end LabelFile

end LabelBook
