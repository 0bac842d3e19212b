import LabelBook.Proofs.Files.Moving

/-!
Changes to files alone. When nothing but files come, go and change, at places where neither a directory
nor a link stands, then every path leads to where it led before, and what stands at any other place is
the same. No two files have the same number, so a change to the file of a number is a change at one
place.
-/

namespace LabelBook

namespace Tree

variable {t u v : Tree} {l m : Location} {may also : Location → Prop}

/-- A tree in which everything stands in a directory, no two files have the same number, and no file has
the number of the next new one. A file with two names (a hard link) has one number at two places, so an
orderly tree has none. -/
structure Orderly (t : Tree) : Prop where
  sound : t.Sound
  unique : ∀ l m number c c', t.get? l = some (.file number c) → t.get? m = some (.file number c') → l = m
  bound : ∀ l number c, t.get? l = some (.file number c) → number < t.next

theorem mem_of_get? {e : Entry} (h : t.get? l = some e) :
    l = [] ∧ e = .directory ∨ (l, e) ∈ t.entries := by
  by_cases hl : l = []
  · subst hl
    exact .inl ⟨rfl, (Option.some.inj h).symm⟩
  · rw [get?_of_ne_nil t hl, List.lookup_eq_some_iff] at h
    obtain ⟨before, after, heq, -⟩ := h
    exact .inr (by rw [heq]; simp)

/-- Whether a tree is orderly can be told from its entries. -/
theorem orderly_of_entries (parents : ∀ e ∈ t.entries, t.get? e.1.dropLast = some .directory)
    (unique : ∀ e ∈ t.entries, ∀ f ∈ t.entries, ∀ number c c', e.2 = .file number c →
      f.2 = .file number c' → e.1 = f.1)
    (bound : ∀ e ∈ t.entries, ∀ number c, e.2 = .file number c → number < t.next) : t.Orderly := by
  have hfile : ∀ {l number c}, t.get? l = some (.file number c) →
      (l, Entry.file number c) ∈ t.entries := by
    intro l number c h
    rcases mem_of_get? h with ⟨-, heq⟩ | hmem
    · cases heq
    · exact hmem
  refine ⟨fun l n e h => ?_, fun l m number c c' hl hm => ?_, fun l number c hl => ?_⟩
  · rcases mem_of_get? h with ⟨hnil, -⟩ | hmem
    · exact absurd hnil (by simp)
    · have hparent := parents _ hmem
      rwa [List.dropLast_concat] at hparent
  · exact unique _ (hfile hl) _ (hfile hm) number c c' rfl rfl
  · exact bound _ (hfile hl) number c rfl

/-! ### Trees that differ in files -/

/-- Trees in which the same stands everywhere, but perhaps for places at which neither has a directory
or a link. -/
def SameWays (t u : Tree) : Prop := ∀ m, u.get? m = t.get? m ∨ t.Plain m ∧ u.Plain m

theorem SameWays.symm (h : SameWays t u) : SameWays u t := fun m => (h m).imp Eq.symm And.symm

theorem SameWays.plain (h : SameWays t u) (hm : t.Plain m) : u.Plain m := by
  rcases h m with heq | ⟨-, hu⟩
  · unfold Plain
    rw [heq]
    exact hm
  · exact hu

theorem SameWays.trans (h : SameWays t u) (h' : SameWays u v) : SameWays t v := by
  intro m
  rcases h m, h' m with ⟨hm | hm, hm' | hm'⟩
  · exact Or.inl (hm'.trans hm)
  · exact Or.inr ⟨h.symm.plain hm'.1, hm'.2⟩
  · exact Or.inr ⟨hm.1, h'.plain hm.2⟩
  · exact Or.inr ⟨hm.1, hm'.2⟩

theorem SameWays.directory_iff (h : SameWays t u) :
    u.get? m = some .directory ↔ t.get? m = some .directory := by
  rcases h m with heq | ⟨ht, hu⟩
  · rw [heq]
  · exact iff_of_false hu.ne_directory ht.ne_directory

theorem SameWays.link_iff (h : SameWays t u) {target : Text} :
    u.get? m = some (.link target) ↔ t.get? m = some (.link target) := by
  rcases h m with heq | ⟨ht, hu⟩
  · rw [heq]
  · exact iff_of_false (hu.ne_link target) (ht.ne_link target)

/-- Names lead to the same place in both trees. -/
theorem SameWays.walk_ok (h : SameWays t u) {aim : Aim} {links : Nat} {l m : Location}
    {names : List Text} (hwalk : t.walk aim links l names = .ok m) :
    u.walk aim links l names = .ok m := by
  fun_induction walk t aim links l names with
  | case1 => rw [Tree.walk, hwalk]
  | case2 _ _ _ ih => rw [Tree.walk, if_pos rfl, ih hwalk]
  | case3 _ _ _ _ h₁ h₂ ih => rw [Tree.walk, if_neg h₁, if_pos h₂, ih hwalk]
  | case6 _ _ _ _ h₁ h₂ h₃ h₄ k hget hrest =>
    rw [Tree.walk, if_neg h₁, if_neg h₂, if_neg h₃, if_neg h₄, ← Except.ok.inj hwalk]
    rcases h.plain (Or.inl hget) with hu | ⟨_, _, hu⟩ <;>
      simp only [k] at hu ⊢ <;> simp only [hu, if_pos hrest]
  | case8 _ _ _ _ h₁ h₂ h₃ h₄ k hget ih =>
    rw [Tree.walk, if_neg h₁, if_neg h₂, if_neg h₃, if_neg h₄]
    simp only [k] at hget ih ⊢
    simp only [h.directory_iff.mpr hget, ih hwalk]
  | case9 _ _ _ _ h₁ h₂ h₃ h₄ k _ _ hget hrest =>
    rw [Tree.walk, if_neg h₁, if_neg h₂, if_neg h₃, if_neg h₄, ← Except.ok.inj hwalk]
    rcases h.plain (Or.inr ⟨_, _, hget⟩) with hu | ⟨_, _, hu⟩ <;>
      simp only [k] at hu ⊢ <;> simp only [hu, if_pos hrest]
  | case11 _ _ _ _ h₁ h₂ h₃ h₄ k _ hget hlast =>
    rw [Tree.walk, if_neg h₁, if_neg h₂, if_neg h₃, if_neg h₄]
    simp only [k] at hget hwalk ⊢
    simp only [h.link_iff.mpr hget, if_pos hlast, hwalk]
  | case13 _ _ _ h₁ h₂ h₃ h₄ k _ hget hlast _ ih =>
    rw [Tree.walk, if_neg h₁, if_neg h₂, if_neg h₃, if_neg h₄]
    simp only [k] at hget ⊢
    simp only [h.link_iff.mpr hget, if_neg hlast]
    exact ih hwalk
  | case4 | case5 | case7 | case10 | case12 => cases hwalk

/-- A walk from a directory ends in a directory or at a place in one, and at a link only if it is
walked for the entry. -/
theorem walk_end (sound : t.Sound) {aim : Aim} {links : Nat} {l m : Location} {names : List Text}
    (hl : t.get? l = some .directory) (h : t.walk aim links l names = .ok m) :
    t.get? m.dropLast = some .directory ∧ ∀ target, t.get? m = some (.link target) → aim = .entry := by
  fun_induction walk t aim links l names with
  | case1 =>
    rw [← Except.ok.inj h]
    exact ⟨sound.dropLast hl, fun target htarget => by rw [hl] at htarget; cases htarget⟩
  | case2 _ _ _ ih => exact ih (sound.dropLast hl) h
  | case3 _ _ _ _ _ _ ih => exact ih hl h
  | case8 _ _ _ _ _ _ _ _ _ hget ih => exact ih hget h
  | case13 _ _ _ _ _ _ _ _ _ _ _ _ ih =>
    refine ih ?_ h
    split
    · exact hl
    · rfl
  | case6 _ _ _ _ _ _ _ _ k hget | case9 _ _ _ _ _ _ _ _ k _ _ hget =>
    rw [← Except.ok.inj h, hget]
    simp only [k, List.dropLast_concat]
    exact ⟨hl, fun target htarget => by cases htarget⟩
  | case11 _ _ _ _ _ _ _ _ k _ _ hlast =>
    rw [← Except.ok.inj h]
    simp only [k, List.dropLast_concat]
    exact ⟨hl, fun _ _ => by simpa using (Bool.and_eq_true_iff.mp hlast).2⟩
  | case4 | case5 | case7 | case10 | case12 => cases h

/-- A tree that comes from another by changes to files at some places. A file that is found in it stood
at that place before, or both places are among those, or the file is new. -/
structure Changed (may : Location → Prop) (t u : Tree) : Prop where
  same : ∀ m, ¬ may m → u.get? m = t.get? m
  ways : SameWays t u
  next : t.next ≤ u.next
  number : ∀ m number c, u.get? m = some (.file number c) →
    (∃ k c', (k = m ∨ may k ∧ may m) ∧ t.get? k = some (.file number c')) ∨ t.next ≤ number

theorem Changed.refl (may : Location → Prop) (t : Tree) : Changed may t t :=
  ⟨fun _ _ => rfl, fun _ => Or.inl rfl, Nat.le_refl _,
    fun m _ c h => Or.inl ⟨m, c, Or.inl rfl, h⟩⟩

theorem Changed.mono (h : Changed may t u) (hmay : ∀ m, may m → also m) : Changed also t u := by
  refine ⟨fun m hm => h.same m (mt (hmay m) hm), h.ways, h.next, fun m number c hget => ?_⟩
  rcases h.number m number c hget with ⟨k, c', hk | ⟨hk, hm⟩, hget'⟩ | hnew
  · exact Or.inl ⟨k, c', Or.inl hk, hget'⟩
  · exact Or.inl ⟨k, c', Or.inr ⟨hmay k hk, hmay m hm⟩, hget'⟩
  · exact Or.inr hnew

theorem Changed.trans (h : Changed may t u) (h' : Changed may u v) : Changed may t v := by
  refine ⟨fun m hm => (h'.same m hm).trans (h.same m hm), h.ways.trans h'.ways, h.next.trans h'.next,
    fun m number c hget => ?_⟩
  rcases h'.number m number c hget with ⟨k, c', hk, hget'⟩ | hnew
  · rcases h.number k number c' hget' with ⟨j, c'', hj, hget''⟩ | hnew
    · refine Or.inl ⟨j, c'', ?_, hget''⟩
      rcases hk with rfl | ⟨hk, hm⟩
      · exact hj
      · rcases hj with rfl | ⟨hj, -⟩
        · exact Or.inr ⟨hk, hm⟩
        · exact Or.inr ⟨hj, hm⟩
    · exact Or.inr hnew
  · exact Or.inr (h.next.trans hnew)

/-! ### Changes at one place -/

/-- A tree that comes from another by a change at one place in a directory, where nothing or a file
stands before and after. A file that is found there afterwards has the number of the one before, or a
new one. -/
structure Touched (l : Location) (t u : Tree) : Prop where
  others : ∀ m, m ≠ l → u.get? m = t.get? m
  before : t.Plain l
  after : u.Plain l
  parent : t.get? l.dropLast = some .directory
  next : t.next ≤ u.next
  number : ∀ number c, u.get? l = some (.file number c) →
    (∃ c', t.get? l = some (.file number c')) ∨ t.next ≤ number ∧ number < u.next

theorem Touched.changed (h : Touched l t u) : Changed (· = l) t u := by
  refine ⟨h.others, fun m => ?_, h.next, fun m number c hget => ?_⟩
  · by_cases hm : m = l
    · exact Or.inr (hm ▸ ⟨h.before, h.after⟩)
    · exact Or.inl (h.others m hm)
  · by_cases hm : m = l
    · subst hm
      rcases h.number number c hget with ⟨c', hc'⟩ | ⟨hnew, -⟩
      · exact Or.inl ⟨m, c', Or.inl rfl, hc'⟩
      · exact Or.inr hnew
    · exact Or.inl ⟨m, c, Or.inl rfl, (h.others m hm) ▸ hget⟩

theorem Touched.orderly (h : Touched l t u) (orderly : t.Orderly) : u.Orderly := by
  have hfile : ∀ m number c, u.get? m = some (.file number c) →
      (∃ c', t.get? m = some (.file number c')) ∨ m = l ∧ t.next ≤ number ∧ number < u.next := by
    intro m number c hget
    by_cases hm : m = l
    · subst hm
      exact (h.number number c hget).imp_right fun hnew => ⟨rfl, hnew⟩
    · exact Or.inl ⟨c, (h.others m hm) ▸ hget⟩
  refine ⟨fun m name e he => ?_, fun j k number c c' hj hk => ?_, fun m number c hget => ?_⟩
  · rw [h.changed.ways.directory_iff]
    by_cases hm : m ++ [name] = l
    · rw [← @List.dropLast_concat _ m name, hm]
      exact h.parent
    · exact orderly.sound m name e ((h.others _ hm) ▸ he)
  · rcases hfile j number c hj with ⟨d, hd⟩ | ⟨rfl, hnew, -⟩ <;>
      rcases hfile k number c' hk with ⟨d', hd'⟩ | ⟨rfl, hnew', -⟩
    · exact orderly.unique j k number d d' hd hd'
    · exact absurd (orderly.bound j number d hd) (Nat.not_lt.mpr hnew')
    · exact absurd (orderly.bound k number d' hd') (Nat.not_lt.mpr hnew)
    · rfl
  · rcases hfile m number c hget with ⟨c', hc'⟩ | ⟨-, -, hnew⟩
    · exact Nat.lt_of_lt_of_le (orderly.bound m number c' hc') h.next
    · exact hnew

theorem touched_put (hl : t.Plain l) (hparent : t.get? l.dropLast = some .directory) {number : Nat}
    {old : Content} (hfile : t.get? l = some (.file number old)) (content : Content) :
    Touched l t (t.put l (.file number content)) := by
  have hget := get?_put t hl.ne_nil (.file number content)
  refine ⟨fun m hm => (hget m).trans (if_neg hm), hl, Or.inr ⟨number, content, (hget l).trans (if_pos rfl)⟩,
    hparent, Nat.le_refl _, fun n c h => ?_⟩
  rw [hget, if_pos rfl] at h
  cases h
  exact Or.inl ⟨old, hfile⟩

theorem touched_putNew (hl : t.Plain l) (hparent : t.get? l.dropLast = some .directory)
    (content : Content) : Touched l t (t.putNew l content) := by
  have hget := get?_putNew t hl.ne_nil content
  refine ⟨fun m hm => (hget m).trans (if_neg hm), hl, Or.inr ⟨_, content, (hget l).trans (if_pos rfl)⟩,
    hparent, Nat.le_succ _, fun n c h => ?_⟩
  rw [hget, if_pos rfl] at h
  cases h
  exact Or.inr ⟨Nat.le_refl _, Nat.lt_succ_self _⟩

theorem touched_self (hl : t.Plain l) (hparent : t.get? l.dropLast = some .directory) :
    Touched l t t :=
  ⟨fun _ _ => rfl, hl, hl, hparent, Nat.le_refl _, fun _ c h => Or.inl ⟨c, h⟩⟩

theorem write_touched (hlink : ∀ target, t.get? l ≠ some (.link target))
    (hparent : t.get? l.dropLast = some .directory) {content : Octets} (h : t.write l content = .ok u) :
    Touched l t u := by
  unfold write at h
  split at h
  · cases h
  · next number old hfile =>
    rw [← Except.ok.inj h]
    exact touched_put (Or.inr ⟨_, _, hfile⟩) hparent hfile _
  · next hdirectory _ =>
    rw [← Except.ok.inj h]
    exact touched_putNew (plain_of_ne hdirectory hlink) hparent _

/-- What opening a file comes to: it stands there, and nothing else has changed. -/
theorem openFile_touched (hlink : ∀ target, t.get? l ≠ some (.link target))
    (hparent : t.get? l.dropLast = some .directory) {number : Nat} (h : t.openFile l = .ok (number, u)) :
    Touched l t u ∧ ∃ content, u.get? l = some (.file number content) := by
  unfold openFile at h
  split at h
  · cases h
  · next n old hfile =>
    cases h
    exact ⟨touched_self (Or.inr ⟨_, _, hfile⟩) hparent, old, hfile⟩
  · next hdirectory _ =>
    cases h
    have hl : t.Plain l := plain_of_ne hdirectory hlink
    exact ⟨touched_putNew hl hparent _, _, (get?_putNew t hl.ne_nil _ l).trans (if_pos rfl)⟩

theorem remove_touched (hlink : ∀ target, t.get? l ≠ some (.link target))
    (hparent : t.get? l.dropLast = some .directory) (h : t.remove l = .ok u) : Touched l t u := by
  unfold remove at h
  split at h
  · cases h
  · cases h
  · next e hdirectory he =>
    cases h
    have hl : t.Plain l := plain_of_ne (fun h => hdirectory (Option.some.inj (he.symm.trans h))) hlink
    have hget := get?_erase t hl.ne_nil
    refine ⟨fun m hm => (hget m).trans (if_neg hm), hl, Or.inl ((hget l).trans (if_pos rfl)), hparent,
      Nat.le_refl _, fun n c hnew => ?_⟩
    rw [hget, if_pos rfl] at hnew
    cases hnew

/-! ### Moving files and adding to them -/

theorem rename_next {source target : Location} (h : t.rename source target = .ok u) :
    u.next = t.next := by
  unfold rename at h
  split at h
  · cases h
  · split at h
    · cases h
      rfl
    · split at h
      · cases h
      · cases h
        rfl

/-- Moving what stands at a place, at which there is no directory and no link, to a place beside it. -/
theorem rename_changed (orderly : t.Orderly) {source target : Location} (hsource : t.Plain source)
    (htarget : t.Plain target) (hlength : source.length = target.length)
    (hparent : t.get? target.dropLast = some .directory) (h : t.rename source target = .ok u) :
    Changed (fun m => m = source ∨ m = target) t u ∧ u.Orderly := by
  rcases hsource with hnone | ⟨number, content, hfile⟩
  · rw [rename, hnone] at h
    cases h
  by_cases hne : source = target
  · rw [rename, hfile] at h
    simp only [if_pos hne, Except.ok.injEq] at h
    exact h ▸ ⟨Changed.refl _ t, orderly⟩
  obtain ⟨u', hu', hget⟩ := rename_file orderly.sound hfile hne hlength htarget.ne_directory
  obtain rfl := Except.ok.inj (h.symm.trans hu')
  have hgone : u.get? source = none := (hget source).trans ((if_neg hne).trans (if_pos rfl))
  have hmoved : u.get? target = some (.file number content) := (hget target).trans (if_pos rfl)
  have hothers : ∀ m, m ≠ source → m ≠ target → u.get? m = t.get? m :=
    fun m hs ht => (hget m).trans ((if_neg ht).trans (if_neg hs))
  -- where a file stood before it is found where it is
  have hfrom : ∀ m n c, u.get? m = some (.file n c) →
      m = target ∧ n = number ∨ m ≠ target ∧ m ≠ source ∧ t.get? m = some (.file n c) := by
    intro m n c hm
    by_cases ht : m = target
    · rw [ht, hmoved] at hm
      cases hm
      exact Or.inl ⟨ht, rfl⟩
    · have hs : m ≠ source := by
        rintro rfl
        rw [hgone] at hm
        cases hm
      exact Or.inr ⟨ht, hs, hothers m hs ht ▸ hm⟩
  have hchanged : Changed (fun m => m = source ∨ m = target) t u := by
    refine ⟨fun m hm => hothers m (fun hs => hm (Or.inl hs)) fun ht => hm (Or.inr ht), fun m => ?_,
      Nat.le_of_eq (rename_next h).symm, fun m n c hm => ?_⟩
    · by_cases hs : m = source
      · exact Or.inr (hs ▸ ⟨Or.inr ⟨_, _, hfile⟩, Or.inl hgone⟩)
      · by_cases ht : m = target
        · exact Or.inr (ht ▸ ⟨htarget, Or.inr ⟨_, _, hmoved⟩⟩)
        · exact Or.inl (hothers m hs ht)
    · rcases hfrom m n c hm with ⟨rfl, rfl⟩ | ⟨-, -, hm'⟩
      · exact Or.inl ⟨source, content, Or.inr ⟨Or.inl rfl, Or.inr rfl⟩, hfile⟩
      · exact Or.inl ⟨m, c, Or.inl rfl, hm'⟩
  refine ⟨hchanged, fun m name e he => ?_, fun j k n c c' hj hk => ?_, fun m n c hm => ?_⟩
  · rw [hchanged.ways.directory_iff]
    by_cases ht : m ++ [name] = target
    · rw [← @List.dropLast_concat _ m name, ht]
      exact hparent
    · have hs : m ++ [name] ≠ source := by
        intro hs
        rw [hs, hgone] at he
        cases he
      exact orderly.sound m name e (hothers _ hs ht ▸ he)
  · rcases hfrom j n c hj with ⟨rfl, rfl⟩ | ⟨-, hjs, hj'⟩ <;>
      rcases hfrom k _ c' hk with ⟨rfl, hn⟩ | ⟨-, hks, hk'⟩
    · rfl
    · exact absurd (orderly.unique k source _ c' content hk' hfile) hks
    · exact absurd (orderly.unique j source _ c content (hn ▸ hj') hfile) hjs
    · exact orderly.unique j k n c c' hj' hk'
  · rw [rename_next h]
    rcases hfrom m n c hm with ⟨-, rfl⟩ | ⟨-, -, hm'⟩
    · exact orderly.bound source n content hfile
    · exact orderly.bound m n c hm'

theorem get?_extend (t : Tree) (number : Nat) (more : Octets) (m : Location) :
    (t.extend number more).get? m = (t.get? m).map fun
      | .file n content => .file n (growIf number n content more)
      | e => e := by
  by_cases hm : m = []
  · subst hm
    rfl
  rw [get?_of_ne_nil _ hm, get?_of_ne_nil _ hm, extend]
  induction t.entries with
  | nil => rfl
  | cons e es ih =>
    obtain ⟨k, v⟩ := e
    rw [List.map_cons, lookup_cons_ite]
    cases v <;> dsimp only <;> rw [lookup_cons_ite, ih] <;> split <;> rfl

theorem extend_file {number n : Nat} {more : Octets} {content : Content}
    (h : (t.extend number more).get? m = some (.file n content)) :
    ∃ c, t.get? m = some (.file n c) := by
  rw [get?_extend] at h
  rcases hget : t.get? m with _ | (⟨n', c⟩ | _ | _) <;> rw [hget] at h <;> cases h
  exact ⟨c, rfl⟩

/-- Adding to the file of a number that stands at none but some places. -/
theorem extend_changed (orderly : t.Orderly) {number : Nat}
    (howned : ∀ m c, t.get? m = some (.file number c) → may m) (more : Octets) :
    Changed may t (t.extend number more) ∧ (t.extend number more).Orderly := by
  have hdirectory : ∀ m, (t.extend number more).get? m = some .directory ↔
      t.get? m = some .directory := by
    intro m
    rw [get?_extend]
    rcases t.get? m with _ | (_ | _ | _) <;> simp
  refine ⟨⟨fun m hm => ?_, fun m => ?_, Nat.le_refl _, fun m n c h => ?_⟩, fun m name e he => ?_,
    fun j k n c c' hj hk => ?_, fun m n c h => ?_⟩
  · rw [get?_extend]
    rcases hget : t.get? m with _ | (⟨n, c⟩ | _ | _)
    · rfl
    · have hne : n ≠ number := by
        rintro rfl
        exact hm (howned m c hget)
      simp [growIf, hne]
    · rfl
    · rfl
  · unfold Plain
    rw [get?_extend]
    rcases t.get? m with _ | (_ | _ | _) <;> simp
  · obtain ⟨c', hc'⟩ := extend_file h
    exact Or.inl ⟨m, c', Or.inl rfl, hc'⟩
  · rw [hdirectory]
    rw [get?_extend] at he
    obtain ⟨e', he', -⟩ := Option.map_eq_some_iff.mp he
    exact orderly.sound m name e' he'
  · obtain ⟨d, hd⟩ := extend_file hj
    obtain ⟨d', hd'⟩ := extend_file hk
    exact orderly.unique j k n d d' hd hd'
  · obtain ⟨c', hc'⟩ := extend_file h
    exact orderly.bound m n c' hc'

end Tree

end LabelBook
