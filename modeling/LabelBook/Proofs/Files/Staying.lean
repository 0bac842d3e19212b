import LabelBook.Proofs.Files.Touching
import LabelBook.Proofs.Steps

/-!
Programs that change files at some places only. Each of their steps leaves every other place and the
directory one is in as they are, and every path leads to where it led; so what is known of the places at
the start is known after each step.
-/

namespace LabelBook

variable {w v u : World} {may also : Location → Prop} {p : Path} {l : Location}

namespace World

/-- A world with an orderly tree in which one is in a directory. -/
structure Orderly (w : World) : Prop where
  tree : w.tree.Orderly
  here : w.tree.get? w.here = some .directory

theorem Orderly.sound (h : w.Orderly) : w.Sound := ⟨h.tree.sound, h.here⟩

/-- A world that comes from another by changes to files at some places. -/
structure Changes (may : Location → Prop) (w v : World) : Prop where
  tree : Tree.Changed may w.tree v.tree
  orderly : w.tree.Orderly → v.tree.Orderly
  here : v.here = w.here

theorem Changes.refl (may : Location → Prop) (w : World) : w.Changes may w :=
  ⟨.refl may w.tree, id, rfl⟩

theorem Changes.trans (h : w.Changes may v) (h' : v.Changes may u) : w.Changes may u :=
  ⟨h.tree.trans h'.tree, h'.orderly ∘ h.orderly, h'.here.trans h.here⟩

theorem Changes.mono (h : w.Changes may v) (hmay : ∀ m, may m → also m) : w.Changes also v :=
  ⟨h.tree.mono hmay, h.orderly, h.here⟩

theorem Orderly.changes (orderly : w.Orderly) (h : w.Changes may v) : v.Orderly :=
  ⟨h.orderly orderly.tree, by rw [h.here, h.tree.ways.directory_iff]; exact orderly.here⟩

theorem locate_ok {aim : Tree.Aim} (h : w.locate aim p = .ok l) :
    (∃ t, p.handedOver = .ok t) ∧ w.tree.walk aim Tree.maxLinks (w.start p) p.names = .ok l := by
  cases hhanded : p.handedOver with
  | error e =>
    unfold World.locate at h
    rw [hhanded] at h
    cases h
  | ok t =>
    rw [locate_of_handedOver hhanded] at h
    refine ⟨⟨t, rfl⟩, ?_⟩
    cases hwalk : w.tree.walk aim Tree.maxLinks (w.start p) p.names with
    | error why => rw [hwalk] at h; cases h
    | ok m => rw [hwalk] at h; rw [Except.ok.inj h]

theorem handedOver_of_locate {aim : Tree.Aim} (h : w.locate aim p = .ok l) :
    p.handedOver = .ok p.text := by
  obtain ⟨⟨t, ht⟩, -⟩ := locate_ok h
  rw [ht, Path.handedOver_eq ht]

theorem locate_ways (hways : w.tree.SameWays v.tree) (hhere : v.here = w.here) {aim : Tree.Aim}
    (h : w.locate aim p = .ok l) : v.locate aim p = .ok l := by
  obtain ⟨⟨t, ht⟩, hwalk⟩ := locate_ok h
  have hstart : v.start p = w.start p := by unfold start; rw [hhere]
  rw [locate_of_handedOver ht, hstart, hways.walk_ok hwalk]
  rfl

/-- Every path leads to where it led before changes to files. -/
theorem Changes.locate_iff (h : w.Changes may v) {aim : Tree.Aim} :
    v.locate aim p = .ok l ↔ w.locate aim p = .ok l :=
  ⟨locate_ways h.tree.ways.symm h.here.symm, locate_ways h.tree.ways h.here⟩

/-- A path leads to a directory or a place in one, and to a link only if its own entry is asked for. -/
theorem Orderly.locate_end (orderly : w.Orderly) {aim : Tree.Aim} (h : w.locate aim p = .ok l) :
    w.tree.get? l.dropLast = some .directory ∧
      ∀ target, w.tree.get? l = some (.link target) → aim = .entry :=
  Tree.walk_end orderly.tree.sound (start_directory orderly.sound p) (locate_ok h).2

/-- A world that comes from another by changes to files at some places, with the same log. -/
structure Edits (may : Location → Prop) (w v : World) : Prop extends w.Changes may v where
  logger : v.logger = w.logger

/-- A change at one place of the tree. -/
theorem Edits.of_touched {t : Tree} (h : Tree.Touched l w.tree t) (hmay : may l) :
    w.Edits may { w with tree := t } :=
  ⟨⟨h.changed.mono fun _ hm => hm ▸ hmay, h.orderly, rfl⟩, rfl⟩

instance : IsPreorder World (Changes may) where
  refl := .refl may
  trans _ _ _ := .trans

instance : IsPreorder World (Edits may) where
  refl w := ⟨.refl may w, rfl⟩
  trans _ _ _ h h' := ⟨h.toChanges.trans h'.toChanges, h'.logger.trans h.logger⟩

end World

/-! ### Requests -/

namespace World

/-- A change of the tree at the location of a path takes place, or nothing changes. -/
theorem change_cases (w : World) (aim : Tree.Aim) (p : Path) (f : Location → Except Reason Tree) :
    (∃ e, w.change aim p f = (.error e, w)) ∨ ∃ l t, w.locate aim p = .ok l ∧ f l = .ok t ∧
      w.change aim p f = (.ok (), { w with tree := t }) := by
  unfold World.change
  split
  · exact Or.inl ⟨_, rfl⟩
  · next l hl =>
    split
    · exact Or.inl ⟨_, rfl⟩
    · next t ht => exact Or.inr ⟨l, t, hl, ht, rfl⟩

theorem rename_cases (w : World) (source target : Path) :
    (∃ e, w.rename source target = (.error e, w)) ∨ ∃ l m t, w.locate .entry source = .ok l ∧
      w.locate .entry target = .ok m ∧ w.tree.rename l m = .ok t ∧
      w.rename source target = (.ok (), { w with tree := t }) := by
  unfold World.rename
  split
  · exact Or.inl ⟨_, rfl⟩
  · exact Or.inl ⟨_, rfl⟩
  · next l m hl hm =>
    split
    · exact Or.inl ⟨_, rfl⟩
    · split
      · exact Or.inl ⟨_, rfl⟩
      · next t ht => exact Or.inr ⟨l, m, t, hl, hm, ht, rfl⟩

theorem openFile_cases (w : World) (p : Path) :
    (∃ e, w.openFile p = (.error e, w)) ∨ ∃ l number t, w.locate .writing p = .ok l ∧
      w.tree.openFile l = .ok (number, t) ∧ w.openFile p = (.ok ⟨number⟩, { w with tree := t }) := by
  unfold World.openFile
  split
  · exact Or.inl ⟨_, rfl⟩
  · next l hl =>
    split
    · exact Or.inl ⟨_, rfl⟩
    · next number t ht => exact Or.inr ⟨l, number, t, hl, ht, rfl⟩

end World

namespace Program

open World

theorem leads_write (orderly : w.Orderly) (hmay : ∀ l, w.locate .writing p = .ok l → may l)
    (content : Octets) : (write p content).Leads (Edits may) (fun _ _ => True) w := by
  have hrun := run_write (w := w) p content
  rcases w.change_cases .writing p (fun l => w.tree.write l content) with
    ⟨e, he⟩ | ⟨l, t, hl, ht, hchange⟩
  · rw [he] at hrun
    exact .of_error hrun (refl_of _ w)
  · rw [hchange] at hrun
    obtain ⟨hparent, hlink⟩ := orderly.locate_end hl
    exact .of_run hrun (.of_touched (Tree.write_touched (fun target h => by cases hlink target h)
      hparent ht) (hmay l hl)) fun _ _ => trivial

/-- Opening a file makes sure that it stands where its path leads to. -/
theorem leads_openFile (orderly : w.Orderly) (hmay : ∀ l, w.locate .writing p = .ok l → may l) :
    (openFile p).Leads (Edits may) (fun s v => ∃ l content, w.locate .writing p = .ok l ∧
      v.tree.get? l = some (.file s.number content)) w := by
  have hrun := run_attempt (w := w) (.openFile p) id
  have hanswer : w.answer (.openFile p) = w.openFile p := rfl
  rw [hanswer] at hrun
  rcases w.openFile_cases p with ⟨e, he⟩ | ⟨l, number, t, hl, ht, hopen⟩
  · rw [he] at hrun
    exact .of_error hrun (refl_of _ w)
  · rw [hopen] at hrun
    obtain ⟨hparent, hlink⟩ := orderly.locate_end hl
    obtain ⟨htouched, content, hfile⟩ :=
      Tree.openFile_touched (fun target h => by cases hlink target h) hparent ht
    refine .of_run hrun (.of_touched htouched (hmay l hl)) fun s hs => ?_
    rw [← Except.ok.inj hs]
    exact ⟨l, content, hl, hfile⟩

/-- What has been removed stood at a place without a directory. -/
theorem leads_remove (orderly : w.Orderly)
    (hmay : ∀ l, w.locate .entry p = .ok l →
      may l ∧ ∀ target, w.tree.get? l ≠ some (.link target)) :
    (remove p).Leads (Edits may) (fun _ v => ∀ l, w.locate .entry p = .ok l → v.tree.Plain l) w := by
  have hrun := run_remove (w := w) p
  rcases w.change_cases .entry p w.tree.remove with ⟨e, he⟩ | ⟨l, t, hl, ht, hchange⟩
  · rw [he] at hrun
    exact .of_error hrun (refl_of _ w)
  · rw [hchange] at hrun
    obtain ⟨hl', hlink⟩ := hmay l hl
    have htouched := Tree.remove_touched hlink (orderly.locate_end hl).1 ht
    refine .of_run hrun (.of_touched htouched hl') fun _ _ m hm => ?_
    exact Except.ok.inj (hl.symm.trans hm) ▸ htouched.after

theorem leads_rename (orderly : w.Orderly) {source target : Path}
    (hmay : ∀ l m, w.locate .entry source = .ok l → w.locate .entry target = .ok m →
      (may l ∧ w.tree.Plain l) ∧ (may m ∧ w.tree.Plain m) ∧ l.length = m.length) :
    (rename source target).Leads (Edits may) (fun _ _ => True) w := by
  have hrun := run_rename (w := w) source target
  rcases w.rename_cases source target with ⟨e, he⟩ | ⟨l, m, t, hl, hm, ht, hrename⟩
  · rw [he] at hrun
    exact .of_error hrun (refl_of _ w)
  · rw [hrename] at hrun
    obtain ⟨⟨hmayl, hplainl⟩, ⟨hmaym, hplainm⟩, hlength⟩ := hmay l m hl hm
    obtain ⟨hchanged, horderly⟩ := Tree.rename_changed orderly.tree hplainl hplainm hlength
      (orderly.locate_end hm).1 ht
    refine .of_run hrun ⟨⟨hchanged.mono ?_, fun _ => horderly, rfl⟩, rfl⟩ fun _ _ => trivial
    rintro k (rfl | rfl)
    · exact hmayl
    · exact hmaym

theorem leads_extend (orderly : w.Orderly) {s : Stream}
    (howned : ∀ m c, w.tree.get? m = some (.file s.number c) → may m) (more : Octets) :
    (extend s more).Leads (Edits may) (fun _ _ => True) w := by
  have hrun := run_attempt (w := w) (.extend s more) id
  obtain ⟨hchanged, horderly⟩ := Tree.extend_changed orderly.tree howned more
  exact .of_run hrun ⟨⟨hchanged, fun _ => horderly, rfl⟩, rfl⟩ fun _ _ => trivial

end Program

end LabelBook
