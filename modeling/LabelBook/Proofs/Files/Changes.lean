import LabelBook.Proofs.Files.Walking

/-!
What stands where after a change. Writing changes what stands at one place, removing takes it away, and
moving a file to a place beside it does both; all other places keep what stands there. A file can come to
stand where neither a directory nor a link stands.
-/

namespace LabelBook.Tree

variable {t : Tree} {l m : Location}

/-! ### Entries by their locations -/

theorem lookup_cons_ite (k : Location) (v : Entry) (es : List (Location × Entry)) (m : Location) :
    List.lookup m ((k, v) :: es) = if m = k then some v else es.lookup m := by
  rw [List.lookup_cons]
  by_cases h : m = k
  · simp [h]
  · have hbeq : (m == k) = false := by simpa using h
    rw [hbeq, if_neg h]

theorem lookup_filter_ne (es : List (Location × Entry)) (h : m ≠ l) :
    (es.filter fun e => e.1 != l).lookup m = es.lookup m := by
  induction es with
  | nil => rfl
  | cons e es ih =>
    obtain ⟨k, v⟩ := e
    by_cases hk : k = l
    · rw [List.filter_cons_of_neg (by simp [hk]), lookup_cons_ite, if_neg (hk ▸ h), ih]
    · rw [List.filter_cons_of_pos (by simp [hk]), lookup_cons_ite, lookup_cons_ite, ih]

theorem lookup_filter_self (es : List (Location × Entry)) :
    (es.filter fun e => e.1 != l).lookup l = none := by
  rw [List.lookup_eq_none_iff]
  intro e he
  have hne : e.1 ≠ l := by simpa using (List.mem_filter.mp he).2
  simpa using hne.symm

theorem get?_of_ne_nil (t : Tree) (h : m ≠ []) : t.get? m = t.entries.lookup m := by
  rw [get?, if_neg (by simpa using h)]

/-- Putting an entry changes what stands at its place and nothing else. -/
theorem get?_put (t : Tree) (hl : l ≠ []) (e : Entry) (m : Location) :
    (t.put l e).get? m = if m = l then some e else t.get? m := by
  by_cases hm : m = []
  · rw [hm, get?_nil, get?_nil, if_neg hl.symm]
  · rw [get?_of_ne_nil _ hm, get?_of_ne_nil _ hm, put, lookup_cons_ite]
    by_cases hml : m = l
    · rw [if_pos hml, if_pos hml]
    · rw [if_neg hml, if_neg hml, lookup_filter_ne _ hml]

theorem get?_putNew (t : Tree) (hl : l ≠ []) (content : Content) (m : Location) :
    (t.putNew l content).get? m = if m = l then some (.file t.next content) else t.get? m :=
  get?_put t hl _ m

/-- Removing takes away what stands at a place and nothing else. -/
theorem get?_erase (t : Tree) (hl : l ≠ []) (m : Location) :
    (t.erase l).get? m = if m = l then none else t.get? m := by
  have hentries : (t.erase l).entries = t.entries.filter fun e => e.1 != l := rfl
  by_cases hm : m = []
  · rw [hm, get?_nil, get?_nil, if_neg hl.symm]
  · rw [get?_of_ne_nil _ hm, get?_of_ne_nil _ hm, hentries]
    by_cases hml : m = l
    · rw [if_pos hml, hml, lookup_filter_self]
    · rw [if_neg hml, lookup_filter_ne _ hml]

/-! ### Places for files -/

/-- A place without a directory and without a link: nothing stands there, or a file. -/
def Plain (t : Tree) (l : Location) : Prop :=
  t.get? l = none ∨ ∃ number content, t.get? l = some (.file number content)

theorem Plain.ne_directory (h : t.Plain l) : t.get? l ≠ some .directory := by
  rcases h with h | ⟨number, content, h⟩ <;> rw [h] <;> simp

theorem Plain.ne_link (h : t.Plain l) (target : Text) : t.get? l ≠ some (.link target) := by
  rcases h with h | ⟨number, content, h⟩ <;> rw [h] <;> simp

theorem Plain.ne_nil (h : t.Plain l) : l ≠ [] := by
  rintro rfl
  exact h.ne_directory rfl

theorem plain_of_ne (hdirectory : t.get? l ≠ some .directory)
    (hlink : ∀ target, t.get? l ≠ some (.link target)) : t.Plain l := by
  rcases h : t.get? l with _ | (⟨number, content⟩ | _ | target)
  · exact Or.inl h
  · exact Or.inr ⟨number, content, h⟩
  · exact absurd h hdirectory
  · exact absurd h (hlink target)

/-- In a tree with nothing but one entry at the root everything stands in a directory. -/
theorem sound_of_single {name : Text} {e : Entry}
    (h : ∀ l, l ≠ [] → t.get? l = if l = [name] then some e else none) : t.Sound := by
  intro l n e' he
  rw [h _ (by simp)] at he
  split at he
  · next heq =>
    rw [List.append_eq_singleton_iff] at heq
    obtain ⟨rfl, -⟩ | ⟨-, heq⟩ := heq
    · rfl
    · cases heq
  · cases he

/-! ### Moving a file -/

/-- In a tree in which everything stands in a directory nothing stands below anything else. -/
theorem Sound.eq_of_isPrefixOf (sound : t.Sound) (hl : t.get? l ≠ some .directory)
    (hm : (t.get? m).isSome) (h : l.isPrefixOf m = true) : m = l := by
  obtain ⟨below, rfl⟩ := List.isPrefixOf_iff_prefix.mp h
  induction below using List.reverseRecOn with
  | nil => exact List.append_nil l
  | append_singleton below name ih =>
    obtain ⟨e, he⟩ := Option.isSome_iff_exists.mp hm
    rw [← List.append_assoc] at he
    have hdirectory := sound _ name e he
    have heq := ih (by rw [hdirectory]; rfl) (List.isPrefixOf_iff_prefix.mpr ⟨below, rfl⟩)
    rw [heq] at hdirectory
    exact absurd hdirectory hl

theorem lookup_relocate {source target : Location} (m : Location) :
    ∀ {es : List (Location × Entry)},
    (∀ e ∈ es, e.1 ≠ target ∧ (source.isPrefixOf e.1 = true → e.1 = source)) →
    (es.map fun e => (relocate source target e.1, e.2)).lookup m =
      if m = target then es.lookup source else if m = source then none else es.lookup m
  | [], _ => by simp
  | (k, v) :: es, h => by
    have ih := lookup_relocate m fun e he => h e (List.mem_cons_of_mem _ he)
    obtain ⟨hk, hbelow_source⟩ := h (k, v) List.mem_cons_self
    dsimp only at hk hbelow_source
    rw [List.map_cons, lookup_cons_ite, ih, lookup_cons_ite, lookup_cons_ite]
    by_cases hks : k = source
    · have hmoved : relocate source target k = target := by simp [relocate, hks]
      rw [hmoved, if_pos hks.symm]
      by_cases hmt : m = target
      · rw [if_pos hmt, if_pos hmt]
      · rw [if_neg hmt, if_neg hmt, if_neg hmt]
        by_cases hms : m = source
        · rw [if_pos hms, if_pos hms]
        · rw [if_neg hms, if_neg hms, if_neg (hks ▸ hms)]
    · have hstays : relocate source target k = k := by
        rw [relocate, if_neg fun hp => hks (hbelow_source hp)]
      rw [hstays, if_neg (Ne.symm hks)]
      by_cases hmk : m = k
      · rw [if_pos hmk, if_neg (hmk ▸ hk), if_neg (hmk ▸ hks), if_pos hmk]
      · rw [if_neg hmk, if_neg hmk]

theorem isBelow_eq_false {a b : Location} (h : a.length = b.length) : isBelow a b = false := by
  rw [isBelow, Bool.and_eq_false_iff]
  cases hp : b.isPrefixOf a with
  | true =>
    right
    simpa using ((List.isPrefixOf_iff_prefix.mp hp).eq_of_length h.symm).symm
  | false => exact Or.inl rfl

/-- A file does not take the place of a directory. -/
theorem rename_onto_directory {source target : Location} {number : Nat} {content : Content}
    (hsource : t.get? source = some (.file number content)) (hlength : source.length = target.length)
    (htarget : t.get? target = some .directory) :
    t.rename source target = .error .isDirectory := by
  have hne : source ≠ target := by
    rintro rfl
    rw [hsource] at htarget
    cases htarget
  have hobstacle : t.renameObstacle? source target (.file number content) = some .isDirectory := by
    unfold renameObstacle?
    rw [isBelow_eq_false hlength.symm, isBelow_eq_false hlength, htarget]
    rfl
  rw [rename, hsource]
  simp only [if_neg hne, hobstacle]

/-- Moving a file to another place, at which no directory stands, puts it there and takes it away from
where it stood. -/
theorem rename_file (sound : t.Sound) {source target : Location} {number : Nat} {content : Content}
    (hsource : t.get? source = some (.file number content)) (hne : source ≠ target)
    (hlength : source.length = target.length) (hdirectory : t.get? target ≠ some .directory) :
    ∃ u, t.rename source target = .ok u ∧ ∀ m, u.get? m =
      if m = target then some (.file number content) else if m = source then none else t.get? m := by
  have hobstacle : t.renameObstacle? source target (.file number content) = none := by
    unfold renameObstacle?
    rw [isBelow_eq_false hlength.symm, isBelow_eq_false hlength]
    simp only [Bool.false_eq_true, if_false]
  have htarget : target ≠ [] := by rintro rfl; exact hdirectory rfl
  have hsource' : source ≠ [] := by rintro rfl; cases hsource
  refine ⟨_, by rw [rename, hsource]; simp only [if_neg hne, hobstacle]; rfl, fun m => ?_⟩
  by_cases hm : m = []
  · rw [hm, get?_nil, get?_nil, if_neg htarget.symm, if_neg hsource'.symm]
  · have hentries : ∀ e ∈ t.entries.filter fun e => e.1 != target,
        e.1 ≠ target ∧ (source.isPrefixOf e.1 = true → e.1 = source) := by
      intro e he
      obtain ⟨hmem, hneq⟩ := List.mem_filter.mp he
      refine ⟨by simpa using hneq, fun hp => ?_⟩
      by_cases hnil : e.1 = []
      · rw [hnil] at hp
        simp at hp
        exact absurd hp hsource'
      · refine sound.eq_of_isPrefixOf (by rw [hsource]; simp) ?_ hp
        rw [get?_of_ne_nil _ hnil]
        by_contra hnone
        rw [Option.not_isSome_iff_eq_none, List.lookup_eq_none_iff] at hnone
        simpa using hnone e hmem
    rw [get?_of_ne_nil _ hm]
    refine (lookup_relocate m hentries).trans ?_
    rw [lookup_filter_ne _ hne, ← get?_of_ne_nil t hsource', hsource]
    by_cases hmt : m = target
    · rw [if_pos hmt, if_pos hmt]
    · rw [if_neg hmt, if_neg hmt, lookup_filter_ne _ hmt, ← get?_of_ne_nil t hm]

end LabelBook.Tree
