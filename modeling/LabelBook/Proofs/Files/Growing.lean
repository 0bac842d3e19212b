import LabelBook.Proofs.Files.Staying

/-!
Making directories. A directory is made where nothing stands, in a directory, and everything else stays
as it is, so that paths lead to where they led. Where the directories are there already nothing is made.
-/

namespace LabelBook

variable {w v u : World} {p : Path} {l : Location}

namespace Tree

variable {t u v : Tree} {l m : Location}

/-- A tree that comes from another by making directories. -/
structure Grown (t u : Tree) : Prop where
  kept : ∀ m, u.get? m = t.get? m ∨ t.get? m = none ∧ u.get? m = some .directory
  orderly : t.Orderly → u.Orderly

theorem Grown.refl (t : Tree) : Grown t t := ⟨fun _ => Or.inl rfl, id⟩

theorem Grown.trans (h : Grown t u) (h' : Grown u v) : Grown t v := by
  refine ⟨fun m => ?_, h'.orderly ∘ h.orderly⟩
  rcases h.kept m, h'.kept m with ⟨hm | ⟨hnone, hmade⟩, hm' | ⟨hnone', hmade'⟩⟩
  · exact Or.inl (hm'.trans hm)
  · exact Or.inr ⟨hm ▸ hnone', hmade'⟩
  · exact Or.inr ⟨hnone, hm'.trans hmade⟩
  · rw [hmade] at hnone'
    cases hnone'

/-- What stands somewhere stays. -/
theorem Grown.get?_of_some (h : Grown t u) {e : Entry} (hm : t.get? m = some e) :
    u.get? m = some e := by
  rcases h.kept m with heq | ⟨hnone, -⟩
  · rw [heq, hm]
  · rw [hnone] at hm
    cases hm

/-- No link comes to stand anywhere. -/
theorem Grown.link_iff (h : Grown t u) {target : Text} :
    u.get? m = some (.link target) ↔ t.get? m = some (.link target) := by
  rcases h.kept m with heq | ⟨hnone, hmade⟩
  · rw [heq]
  · rw [hnone, hmade]
    simp

/-- Names lead to the place that they led to. -/
theorem Grown.walk_ok (h : Grown t u) {aim : Aim} {links : Nat} {l m : Location} {names : List Text}
    (hwalk : t.walk aim links l names = .ok m) : u.walk aim links l names = .ok m := by
  fun_induction walk t aim links l names with
  | case1 => rw [Tree.walk, hwalk]
  | case2 _ _ _ ih => rw [Tree.walk, if_pos rfl, ih hwalk]
  | case3 _ _ _ _ h₁ h₂ ih => rw [Tree.walk, if_neg h₁, if_pos h₂, ih hwalk]
  | case6 _ _ _ _ h₁ h₂ h₃ h₄ k hget hrest =>
    rw [Tree.walk, if_neg h₁, if_neg h₂, if_neg h₃, if_neg h₄, ← Except.ok.inj hwalk]
    rcases h.kept k with heq | ⟨-, hmade⟩
    · rw [hget] at heq
      simp only [k] at heq ⊢
      simp only [heq, if_pos hrest]
    · simp only [k] at hmade ⊢
      simp only [hmade, List.isEmpty_iff.mp hrest, Tree.walk]
  | case8 _ _ _ _ h₁ h₂ h₃ h₄ k hget ih =>
    rw [Tree.walk, if_neg h₁, if_neg h₂, if_neg h₃, if_neg h₄]
    simp only [k] at hget ih hwalk ⊢
    simp only [h.get?_of_some hget, ih hwalk]
  | case9 _ _ _ _ h₁ h₂ h₃ h₄ k _ _ hget hrest =>
    rw [Tree.walk, if_neg h₁, if_neg h₂, if_neg h₃, if_neg h₄, ← Except.ok.inj hwalk]
    simp only [k] at hget ⊢
    simp only [h.get?_of_some hget, if_pos hrest]
  | case11 _ _ _ _ h₁ h₂ h₃ h₄ k _ hget hlast =>
    rw [Tree.walk, if_neg h₁, if_neg h₂, if_neg h₃, if_neg h₄]
    simp only [k] at hget hwalk ⊢
    simp only [h.get?_of_some hget, if_pos hlast, hwalk]
  | case13 _ _ _ h₁ h₂ h₃ h₄ k _ hget hlast _ ih =>
    rw [Tree.walk, if_neg h₁, if_neg h₂, if_neg h₃, if_neg h₄]
    simp only [k] at hget ⊢
    simp only [h.get?_of_some hget, if_neg hlast]
    exact ih hwalk
  | case4 | case5 | case7 | case10 | case12 => cases hwalk

theorem makeDirectory_grown (orderly : t.Orderly) (hparent : t.get? l.dropLast = some .directory)
    (h : t.makeDirectory l = .ok u) :
    t.get? l = none ∧ u.get? l = some .directory ∧ (∀ m, m ≠ l → u.get? m = t.get? m) ∧ u.Orderly := by
  unfold makeDirectory at h
  split at h
  · cases h
  · next hl =>
    cases h
    have hne : l ≠ [] := by
      rintro rfl
      cases hl
    have hget := get?_put t hne .directory
    have hothers : ∀ m, m ≠ l → (t.put l .directory).get? m = t.get? m :=
      fun m hm => (hget m).trans (if_neg hm)
    have hmade : (t.put l .directory).get? l = some .directory := (hget l).trans (if_pos rfl)
    have hfile : ∀ {m number c}, (t.put l .directory).get? m = some (.file number c) →
        t.get? m = some (.file number c) := by
      intro m number c hm
      by_cases hml : m = l
      · rw [hml, hmade] at hm
        cases hm
      · rwa [hothers m hml] at hm
    refine ⟨hl, hmade, hothers, fun m n e he => ?_, fun j k number c c' hj hk => ?_,
      fun m number c hm => ?_⟩
    · have hdirectory : t.get? m = some .directory := by
        by_cases hm : m ++ [n] = l
        · rw [← @List.dropLast_concat _ m n, hm]
          exact hparent
        · exact orderly.sound m n e (hothers _ hm ▸ he)
      rw [hothers m (by rintro rfl; rw [hl] at hdirectory; cases hdirectory), hdirectory]
    · exact orderly.unique j k number c c' (hfile hj) (hfile hk)
    · exact orderly.bound m number c (hfile hm)

end Tree

/-- A world that comes from another by making directories. -/
structure World.Grows (w v : World) : Prop where
  tree : Tree.Grown w.tree v.tree
  here : v.here = w.here
  logger : v.logger = w.logger

namespace World

theorem Grows.refl (w : World) : w.Grows w := ⟨.refl w.tree, rfl, rfl⟩

theorem Grows.trans (h : w.Grows v) (h' : v.Grows u) : w.Grows u :=
  ⟨h.tree.trans h'.tree, h'.here.trans h.here, h'.logger.trans h.logger⟩

theorem Orderly.grows (orderly : w.Orderly) (h : w.Grows v) : v.Orderly :=
  ⟨h.tree.orderly orderly.tree, by rw [h.here]; exact h.tree.get?_of_some orderly.here⟩

theorem Grows.locate_ok (h : w.Grows v) {aim : Tree.Aim} (hl : w.locate aim p = .ok l) :
    v.locate aim p = .ok l := by
  obtain ⟨⟨t, ht⟩, hwalk⟩ := World.locate_ok hl
  have hstart : v.start p = w.start p := by unfold start; rw [h.here]
  rw [locate_of_handedOver ht, hstart, h.tree.walk_ok hwalk]
  rfl

end World

instance : IsPreorder World World.Grows where
  refl := .refl
  trans _ _ _ := .trans

namespace Program

open World

/-- A directory is made, or nothing changes. -/
theorem leads_makeDirectory (orderly : w.Orderly) (p : Path) :
    (makeDirectory p).Leads Grows (fun _ _ => True) w := by
  have hrun := run_attempt (w := w) (.makeDirectory p) id
  rcases w.change_cases .entry p w.tree.makeDirectory with ⟨e, he⟩ | ⟨l, t, hl, ht, hchange⟩
  · rw [show w.answer (.makeDirectory p) = (.error e, w) from he] at hrun
    exact .of_error hrun (.refl w)
  · rw [show w.answer (.makeDirectory p) = _ from hchange] at hrun
    obtain ⟨hvacant, hmade, hothers, horderly⟩ :=
      Tree.makeDirectory_grown orderly.tree (orderly.locate_end hl).1 ht
    refine .of_run hrun ⟨⟨fun m => ?_, fun _ => horderly⟩, rfl, rfl⟩ fun _ _ => trivial
    by_cases hm : m = l
    · exact Or.inr (hm ▸ ⟨hvacant, hmade⟩)
    · exact Or.inl (hothers m hm)

theorem asks_unlessDirectory (p : Path) (f : Failure) :
    Asks (do if ← isDirectory p then done () else fail f) := by
  refine (asks_isDirectory p).bind fun b => ?_
  split
  · exact asks_done _
  · exact asks_fail f

theorem leads_ensureDirectory (orderly : w.Orderly) (p : Path) :
    (ensureDirectory p).Leads Grows (fun _ _ => True) w := by
  refine (leads_makeDirectory orderly p).orElse fun f v _ => ?_
  split
  · exact (asks_unlessDirectory p f).leads
  · exact .fail

theorem leads_ensureDirectories : ∀ (depth : Nat) {w : World} (p : Path), w.Orderly →
    (ensureDirectories depth p).Leads Grows (fun _ _ => True) w
  | 0, _, p, orderly => leads_ensureDirectory orderly p
  | depth + 1, w, p, orderly => by
    unfold ensureDirectories
    refine (leads_makeDirectory orderly p).orElse fun f v hv => ?_
    have orderly' := orderly.grows hv
    split
    · split
      · exact .fail
      · exact (leads_ensureDirectories depth p.parent orderly').bind fun _ u hu _ =>
          leads_ensureDirectory (orderly'.grows hu) p
    · exact (asks_unlessDirectory p _).leads
    · exact .fail

/-- Directories are made, and nothing else changes. -/
theorem leads_ensureTree (orderly : w.Orderly) (p : Path) :
    (ensureTree p).Leads Grows (fun _ _ => True) w := leads_ensureDirectories _ p orderly

/-- Where a directory stands none is made. -/
theorem run_makeDirectory_there (h : ∀ l, w.locate .entry p = .ok l → (w.tree.get? l).isSome) :
    ∃ f, (makeDirectory p).run w = (.error f, w) := by
  have hrun := run_attempt (w := w) (.makeDirectory p) id
  rcases w.change_cases .entry p w.tree.makeDirectory with ⟨e, he⟩ | ⟨l, t, hl, ht, -⟩
  · rw [show w.answer (.makeDirectory p) = (.error e, w) from he] at hrun
    exact ⟨_, hrun⟩
  · obtain ⟨e, he⟩ := Option.isSome_iff_exists.mp (h l hl)
    rw [Tree.makeDirectory, he] at ht
    cases ht

theorem run_ensureDirectory_there (h : ∀ l, w.locate .entry p = .ok l → (w.tree.get? l).isSome) :
    ((ensureDirectory p).run w).2 = w := by
  obtain ⟨f, hf⟩ := run_makeDirectory_there h
  rw [ensureDirectory, run_orElse, hf]
  dsimp only
  split
  · exact asks_unlessDirectory p f w
  · rfl

/-- Where a directory and those above it stand nothing is made; `P` holds of the paths to them. -/
theorem run_ensureDirectories_there {P : Path → Prop} (above : ∀ q, P q → P q.parent)
    (h : ∀ q l, P q → w.locate .entry q = .ok l → (w.tree.get? l).isSome) :
    ∀ (depth : Nat) {p : Path}, P p → ((ensureDirectories depth p).run w).2 = w
  | 0, p, hp => run_ensureDirectory_there fun l => h p l hp
  | depth + 1, p, hp => by
    obtain ⟨f, hf⟩ := run_makeDirectory_there fun l => h p l hp
    rw [ensureDirectories, run_orElse, hf]
    dsimp only
    split
    · split
      · rfl
      · have hparent := run_ensureDirectories_there above h depth (above p hp)
        rw [run_bind]
        rcases hrun : (ensureDirectories depth p.parent).run w with ⟨g | _, v⟩
        · rw [hrun] at hparent
          exact hparent
        · rw [hrun] at hparent
          obtain rfl : v = w := hparent
          exact run_ensureDirectory_there fun l => h p l hp
    · exact asks_unlessDirectory p _ w
    · rfl

end Program

end LabelBook
