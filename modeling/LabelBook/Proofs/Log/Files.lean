import LabelBook.Log.Setup
import LabelBook.Proofs.Files.Staying

/-!
The log in its files. Whatever is logged, and however often the files move on to numbered names, only
the places of the log files in their directory change: they are reached by paths from the root on which
there is no link, and an open file is one of theirs or has been taken away. Logging does not fail.
-/

namespace LabelBook

variable {L m : Location} {w v : World} {t u : Tree} {n : Text} {may : Location → Prop}

/-! ### Names along which there are no links -/

/-- Where there is no link on the way, names lead to the place that they name. -/
theorem Tree.walk_ok_of_no_link {aim : Tree.Aim} {links : Nat} {l m : Location} {names : List Text}
    (hnames : ∀ n ∈ names, Tree.IsName n)
    (hlink : ∀ k, k <+: names → ∀ target, t.get? (l ++ k) ≠ some (.link target))
    (h : t.walk aim links l names = .ok m) : m = l ++ names := by
  induction names generalizing l with
  | nil =>
    rw [Tree.walk] at h
    rw [List.append_nil, Except.ok.inj h]
  | cons n rest ih =>
    obtain ⟨hn, hrest⟩ := List.forall_mem_cons.mp hnames
    have hskip : ¬ (n.isEmpty || n = ".") = true := by simp [hn.2.1, hn.2.2]
    have hhere := hlink [n] (by simp)
    rw [Tree.walk, if_neg hn.1, if_neg hskip] at h
    split at h
    · cases h
    split at h
    · cases h
    dsimp only at h
    have hlast : ∀ {x : Except Reason Location},
        (if rest.isEmpty = true then .ok (l ++ [n]) else x) = .ok m → (∀ k, x ≠ .ok k) →
        m = l ++ n :: rest := by
      intro x hx herror
      cases rest with
      | nil => exact (Except.ok.inj hx).symm
      | cons _ _ => exact absurd hx (herror m)
    rcases hget : t.get? (l ++ [n]) with _ | (⟨number, content⟩ | _ | target)
    · rw [hget] at h
      exact hlast h fun k hk => by cases hk
    · rw [hget] at h
      exact hlast h fun k hk => by cases hk
    · rw [hget] at h
      have hfollow : ∀ k, k <+: rest → ∀ target, t.get? (l ++ [n] ++ k) ≠ some (.link target) := by
        intro k hk
        rw [List.append_assoc]
        exact hlink _ (by simpa using hk)
      rw [ih hrest hfollow h, List.append_assoc, List.singleton_append]
    · exact absurd hget (hhere target)

namespace Log

/-- The names of the log files before they move on. -/
def baseNames : List Text := [textName, jsonName]

/-- The name of an older log file. -/
def olderName (base : Text) (i : Nat) : Text := Text.concat [base, ".", Text.ofNat i]

/-- The names of the log files and of the older ones that are kept. -/
def fileNames : List Text :=
  baseNames.flatMap fun base => base :: (List.range backups.toNat).map fun i => olderName base (i + 1)

theorem mem_fileNames_base (h : n ∈ baseNames) : n ∈ fileNames :=
  List.mem_flatMap.mpr ⟨n, h, List.mem_cons_self⟩

theorem mem_fileNames_older (h : n ∈ baseNames) {i : Nat} (hi : i < backups.toNat) :
    olderName n (i + 1) ∈ fileNames :=
  List.mem_flatMap.mpr ⟨n, h, List.mem_cons_of_mem _ (List.mem_map.mpr ⟨i, List.mem_range.mpr hi, rfl⟩)⟩

theorem isName_of_mem (h : n ∈ fileNames) : Tree.IsName n := by
  revert n
  unfold Tree.IsName
  decide

/-- The places of the log files in a directory. -/
def At (L m : Location) : Prop := ∃ n ∈ fileNames, m = L ++ [n]

/-- The ground for log files: no link stands at their places, through which the log would be written to
another file. A directory can stand there, and then nothing is written or moved to it; but one at the place
of an older file needs another at the place of the next, or it would be moved on with what is in it. -/
structure Ground (L : Location) (t : Tree) : Prop where
  links : ∀ n ∈ fileNames, ∀ target, t.get? (L ++ [n]) ≠ some (.link target)
  rising : ∀ base ∈ baseNames, ∀ i, 0 < i → i < backups.toNat →
    t.get? (L ++ [olderName base i]) = some .directory →
    t.get? (L ++ [olderName base (i + 1)]) = some .directory

/-- Where nothing but files stands, there is ground for them. -/
theorem Ground.of_plain (plain : ∀ n ∈ fileNames, t.Plain (L ++ [n])) : Ground L t := by
  refine ⟨fun n hn => (plain n hn).ne_link, fun base hbase i hi hlt hget => ?_⟩
  obtain ⟨i, rfl⟩ := Nat.exists_eq_add_of_lt hi
  exact absurd hget (plain _ (mem_fileNames_older hbase (Nat.lt_of_succ_lt hlt))).ne_directory

/-- The ground stays where no link comes and the directories stay. -/
theorem Ground.congr (ground : Ground L t)
    (directories : ∀ m, u.get? m = some .directory ↔ t.get? m = some .directory)
    (links : ∀ m target, u.get? m = some (.link target) → t.get? m = some (.link target)) :
    Ground L u := by
  refine ⟨fun n hn target h => ground.links n hn target (links _ _ h), fun base hbase i hi hlt h => ?_⟩
  rw [directories] at h ⊢
  exact ground.rising base hbase i hi hlt h

/-- A directory for log files: no link stands on the way to it, and there is ground for the files. -/
structure Home (L : Location) (w : World) : Prop where
  orderly : w.Orderly
  names : ∀ n ∈ L, Tree.IsName n
  way : ∀ m, m <+: L → ∀ target, w.tree.get? m ≠ some (.link target)
  ground : Ground L w.tree

theorem Home.changes (home : Home L w) (h : w.Changes may v) : Home L v := by
  refine ⟨home.orderly.changes h, home.names, ?_, ?_⟩
  · intro m hm target
    rw [Ne, h.tree.ways.link_iff]
    exact home.way m hm target
  · exact home.ground.congr (fun _ => h.tree.ways.directory_iff) fun _ _ => h.tree.ways.link_iff.mp

/-- The path of a log file leads to its place. -/
theorem Home.locate (home : Home L w) (hn : n ∈ fileNames) {aim : Tree.Aim} {l : Location}
    (h : w.locate aim (.ofRoot (L ++ [n])) = .ok l) : l = L ++ [n] := by
  have hwalk : w.tree.walk aim Tree.maxLinks [] (L ++ [n]) = .ok l := (World.locate_ok h).2
  refine (Tree.walk_ok_of_no_link (fun k hk => ?_) (fun k hk => ?_) hwalk).trans
    (List.nil_append _)
  · rcases List.mem_append.mp hk with hk | hk
    · exact home.names k hk
    · exact List.mem_singleton.mp hk ▸ isName_of_mem hn
  · rw [List.nil_append]
    rcases List.prefix_concat_iff.mp hk with rfl | hk
    · exact home.ground.links n hn
    · exact home.way k hk

/-- The path of a log file has its spot in the directory, if it leads anywhere. -/
theorem Home.spot_of_locate (home : Home L w) (hn : n ∈ fileNames) {aim : Tree.Aim} {l : Location}
    (h : w.locate aim (.ofRoot (L ++ [n])) = .ok l) :
    ∃ links, w.Spot (.ofRoot (L ++ [n])) (links, L) n := by
  have hnames : (Path.ofRoot (L ++ [n])).names = (Path.ofRoot (L ++ [n])).names.dropLast ++ [n] := by
    simp [Path.ofRoot]
  rcases World.spot_or_refused hnames (isName_of_mem hn) (.inl (World.handedOver_of_locate h)) with
    ⟨⟨links, k⟩, spot⟩ | ⟨why, hrefused⟩
  · obtain rfl : k = L := (List.append_inj' (home.locate hn spot.locate_entry) rfl).1
    exact ⟨links, spot⟩
  · cases (hrefused aim).symm.trans h

/-- The number of a file that stands nowhere but at the places of the log files. -/
def Owns (L : Location) (t : Tree) (number : Nat) : Prop :=
  number < t.next ∧ ∀ m c, t.get? m = some (.file number c) → At L m

theorem Owns.changed {number : Nat} (h : Owns L t number) (hchanged : Tree.Changed may t u)
    (hmay : (∀ m, may m → At L m) ∨ ∀ m, may m → ¬ At L m) : Owns L u number := by
  refine ⟨Nat.lt_of_lt_of_le h.1 hchanged.next, fun m c hm => ?_⟩
  rcases hchanged.number m number c hm with ⟨k, c', rfl | ⟨hk, hm⟩, hk'⟩ | hnew
  · exact h.2 k c' hk'
  · rcases hmay with hmay | hmay
    · exact hmay m hm
    · exact absurd (h.2 k c' hk') (hmay k hk)
  · exact absurd h.1 (Nat.not_lt.mpr hnew)

end Log

end LabelBook
