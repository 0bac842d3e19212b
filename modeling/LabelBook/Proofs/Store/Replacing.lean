import LabelBook.Proofs.Files.Roads
import LabelBook.Proofs.Store.Failing

/-!
Saving with a log in files. When saving ends well, either there was nothing to save, or a file with the
octets of the collection has taken the place of what the path of the store named. What stood there may
have been a link, so paths may lead elsewhere now; but no way to a directory went through it, and the log
goes where it went. And saving ends well if there is room for the temporary file and the collection has
octets.
-/

namespace LabelBook

open Log (At GoesTo Keeps)

variable {L l m : Location} {w v u : World} {may also : Location → Prop} {p q : Path}
  {d : Nat × Location} {name other : Text} {octets : Octets}

theorem Tree.Changed.cases {t u : Tree} (h : Tree.Changed may t u) (m : Location) :
    u.get? m = t.get? m ∨ may m ∧ t.Plain m ∧ u.Plain m := by
  by_cases hm : may m
  · exact (h.ways m).imp_right fun hplain => ⟨hm, hplain⟩
  · exact .inl (h.same m hm)

/-! ### Writing -/

namespace Program

/-- What was written stands where the path leads to. -/
theorem write_ok (orderly : w.Orderly) {content : Octets}
    (h : (write q content).run w = (.ok (), v)) : ∃ l number, w.locate .writing q = .ok l ∧
      v.tree.get? l = some (.file number (.ofOctets content)) ∧ w.Edits (· = l) v := by
  rw [run_write] at h
  rcases w.change_cases .writing q (fun l => w.tree.write l content) with
    ⟨e, he⟩ | ⟨l, t, hl, ht, hchange⟩
  · rw [he] at h
    cases h
  · rw [hchange] at h
    obtain ⟨-, rfl⟩ := Prod.mk.inj h
    obtain ⟨number, hfile⟩ := Tree.write_ok ht
    obtain ⟨hparent, hlink⟩ := orderly.locate_end hl
    exact ⟨l, number, hl, hfile, .of_touched (Tree.write_touched
      (fun target h => by cases hlink target h) hparent ht) rfl⟩

theorem run_write_into (hl : w.locate .writing q = .ok l) (hdirectory : w.tree.get? l ≠ some .directory)
    (content : Octets) : ∃ v, (write q content).run w = (.ok (), v) := by
  have hwrite : ∃ t, w.tree.write l content = .ok t := by
    unfold Tree.write
    split
    · next h => exact absurd h hdirectory
    · exact ⟨_, rfl⟩
    · exact ⟨_, rfl⟩
  obtain ⟨t, ht⟩ := hwrite
  rw [run_write, World.change, hl]
  simp only [ht]
  exact ⟨_, rfl⟩

end Program

namespace LabelFile

variable {c : Collection} {t : Text}

/-- What was written of a collection are the octets of its text. -/
theorem write_ok (orderly : w.Orderly) (h : (write c q).run w = (.ok (), v)) :
    ∃ t octets l number, c.text = .ok t ∧ Utf8.encode t = .ok octets ∧
      w.locate .writing q = .ok l ∧ v.tree.get? l = some (.file number (.ofOctets octets)) ∧
      w.Edits (· = l) v := by
  rcases htext : c.text with e | t
  · cases (run_write_unwritable htext).symm.trans h
  have hwritten : (writeText q t).run w = (.ok (), v) := by
    rw [run_write htext] at h
    rcases hrun : (writeText q t).run w with ⟨f | _, x⟩
    · rw [hrun] at h
      cases h
    · rw [hrun] at h
      rw [(Prod.mk.inj h).2]
  rcases hempty : (Program.write q []).run w with ⟨f | _, x⟩
  · rw [writeText, Program.run_bind_error hempty] at hwritten
    cases hwritten
  rw [writeText, Program.run_bind_ok hempty] at hwritten
  rcases hencode : Utf8.encode t with e | octets
  · rw [hencode] at hwritten
    cases hwritten
  rw [hencode] at hwritten
  obtain ⟨l, -, hl, -, hx⟩ := Program.write_ok orderly hempty
  obtain ⟨m, number, hm, hfile, hv⟩ := Program.write_ok (orderly.changes hx.toChanges) hwritten
  obtain rfl := Except.ok.inj (hl.symm.trans (hx.locate_iff.mp hm))
  exact ⟨t, octets, l, number, rfl, hencode, hl, hfile, trans_of (World.Edits (· = l)) hx hv⟩

/-- A collection with octets is written where no directory stands. -/
theorem run_write_into (orderly : w.Orderly) (htext : c.text = .ok t)
    (hencode : Utf8.encode t = .ok octets) (hl : w.locate .writing q = .ok l)
    (hdirectory : w.tree.get? l ≠ some .directory) : ∃ v, (write c q).run w = (.ok (), v) := by
  obtain ⟨x, hempty⟩ := Program.run_write_into hl hdirectory []
  obtain ⟨m, number, hm, hfile, hx⟩ := Program.write_ok orderly hempty
  obtain rfl := Except.ok.inj (hl.symm.trans hm)
  obtain ⟨v, hv⟩ := Program.run_write_into (hx.locate_iff.mpr hl) (by rw [hfile]; simp) octets
  refine ⟨v, ?_⟩
  rw [run_write htext, writeText, Program.run_bind_ok hempty, hencode]
  simp only [hv]

end LabelFile

/-! ### Moving -/

namespace Tree

/-- A tree in which a file with some octets stands at a place. -/
def Holds (t : Tree) (l : Location) (octets : Octets) : Prop :=
  ∃ number content, t.get? l = some (.file number content) ∧ content.octets = octets

theorem Holds.plain {t : Tree} (h : t.Holds l octets) : t.Plain l :=
  let ⟨number, content, hfile, _⟩ := h
  .inr ⟨number, content, hfile⟩

variable {t u : Tree} {source target : Location} {number : Nat} {content : Content}

/-- A tree in which a file has gone from one place to another is orderly, whatever stood there but a
directory. -/
theorem Orderly.moved (orderly : t.Orderly) (hfile : t.get? source = some (.file number content))
    (hparent : t.get? target.dropLast = some .directory) (hdirectory : t.get? target ≠ some .directory)
    (hnext : u.next = t.next) (hget : ∀ m, u.get? m =
      if m = target then some (.file number content) else if m = source then none else t.get? m) :
    u.Orderly := by
  have hkept : ∀ m, t.get? m = some .directory → u.get? m = some .directory := by
    intro m hm
    rw [hget, if_neg, if_neg, hm]
    · rintro rfl
      cases hfile.symm.trans hm
    · rintro rfl
      exact hdirectory hm
  have hfrom : ∀ m n c, u.get? m = some (.file n c) →
      m = target ∧ n = number ∨ m ≠ source ∧ t.get? m = some (.file n c) := by
    intro m n c hm
    rw [hget] at hm
    split at hm
    · next ht => exact .inl ⟨ht, by cases hm; rfl⟩
    · split at hm
      · cases hm
      · next hs => exact .inr ⟨hs, hm⟩
  refine ⟨fun m n e he => ?_, fun j k n c c' hj hk => ?_, fun m n c hm => ?_⟩
  · refine hkept m ?_
    rw [hget] at he
    split at he
    · next ht => rw [← @List.dropLast_concat _ m n, ht, hparent]
    · split at he
      · cases he
      · exact orderly.sound m n e he
  · rcases hfrom j n c hj with ⟨rfl, rfl⟩ | ⟨hjs, hj'⟩ <;>
      rcases hfrom k _ c' hk with ⟨rfl, hn⟩ | ⟨hks, hk'⟩
    · rfl
    · exact absurd (orderly.unique k source _ c' content hk' hfile) hks
    · exact absurd (orderly.unique j source _ c content (hn ▸ hj') hfile) hjs
    · exact orderly.unique j k n c c' hj' hk'
  · rw [hnext]
    rcases hfrom m n c hm with ⟨-, rfl⟩ | ⟨-, hm'⟩
    · exact orderly.bound source n content hfile
    · exact orderly.bound m n c hm'

end Tree

namespace World

theorem Spot.unique {e : Nat × Location} (spot : w.Spot p d name) (spot' : w.Spot p e other) :
    d = e := Except.ok.inj (spot.directory.symm.trans spot'.directory)

/-- A name in a directory that a path leads to has its spot there. -/
theorem spot_child (hl : w.locate .target p = .ok l) (hdirectory : w.tree.get? l = some .directory)
    (hhanded : ∃ t, (p.child name).handedOver = .ok t) (isName : Tree.IsName name)
    (short : Tree.nameLength name ≤ Tree.maxNameLength) :
    ∃ links, w.Spot (p.child name) (links, l) name := by
  obtain ⟨links, hd⟩ := Tree.descend_of_walk (locate_ok hl).2 hdirectory
  have hdrop : (p.child name).names.dropLast = p.names := List.dropLast_concat
  refine ⟨links, hhanded, by rw [hdrop, Path.child], ?_, isName, short⟩
  rw [hdrop]
  exact hd

theorem noLinkAt_of_locate (hl : w.locate .target p = .ok l)
    (hdirectory : w.tree.get? l = some .directory)
    (hlink : ∀ target, w.tree.get? (l ++ [name]) ≠ some (.link target)) : w.NoLinkAt p name := by
  intro d target hd
  obtain ⟨links, hd'⟩ := Tree.descend_of_walk (locate_ok hl).2 hdirectory
  rw [Except.ok.inj (hd.symm.trans hd')]
  exact hlink target

theorem NoLinkAt.changes (noLink : w.NoLinkAt p name) (h : w.Changes may v) : v.NoLinkAt p name := by
  intro d target hd
  have roads := h.keepsRoads_back
  rw [Ne, h.tree.ways.link_iff]
  exact noLink d target (roads.tree (roads.start p ▸ hd))

theorem Spot.endsInName (spot : w.Spot p d name) : World.endsInName p = true := by
  have hname : p.name = name := by rw [Path.name, spot.names]; simp
  exact endsInName_of_name (by rw [hname]; exact spot.names) (by rw [hname]; exact spot.isName.1)

/-- A path that leads to a file or to nothing has a blind spot. -/
theorem Spot.blind (spot : w.Spot p d name) (sound : w.Sound) (place : w.FileOrNothing p) :
    w.tree.Blind (d.2 ++ [name]) := by
  have hwalk := spot.locate .target
  rw [Tree.walk_name spot.isName spot.short] at hwalk
  have hnever : ∀ k, w.tree.get? k = some .directory → w.locate .target p ≠ .ok k := by
    intro k hk hl
    rw [FileOrNothing, species_of_locate hl, Tree.species, hk] at place
    rcases place with h | h <;> cases h
  refine ⟨fun hget => ?_, fun target links d' hget hd => ?_⟩
  · rw [hget] at hwalk
    exact hnever _ hget hwalk
  · rw [hget] at hwalk
    rw [List.dropLast_concat] at hd
    have hmany : w.locate .target p ≠ .error (.system .tooManyLinks p.text none) := by
      intro hl
      rw [FileOrNothing, World.species, hl] at place
      rcases place with h | h <;> cases h
    obtain ⟨more, here⟩ := d
    cases more with
    | zero => exact hmany hwalk
    | succ more =>
      simp only [reduceCtorEq, if_false] at hwalk
      have hbase : w.tree.get? (if Path.anchorOf target = .here then here else []) =
          some .directory := by
        split
        · exact spot.parent_directory sound
        · rfl
      rcases Tree.walk_of_descend hd more with h | h
      · rw [h] at hwalk
        exact hnever _ (Tree.descend_directory sound.tree hbase hd) hwalk
      · rw [h] at hwalk
        exact hmany hwalk

/-- Moving a file from one spot to another in the same directory. -/
theorem Spot.run_rename (source : w.Spot p d name) (target : w.Spot q d other) (sound : w.Sound)
    (hne : name ≠ other) {number : Nat} {content : Content}
    (hfile : w.tree.get? (d.2 ++ [name]) = some (.file number content))
    (hdirectory : w.tree.get? (d.2 ++ [other]) ≠ some .directory) :
    ∃ t, (Program.rename p q).run w = (.ok (), { w with tree := t }) ∧ t.next = w.tree.next ∧
      ∀ m, t.get? m = if m = d.2 ++ [other] then some (.file number content)
        else if m = d.2 ++ [name] then none else w.tree.get? m := by
  obtain ⟨t, ht, hget⟩ := Tree.rename_file sound.tree hfile
    (show d.2 ++ [name] ≠ d.2 ++ [other] by simp [hne]) (by simp) hdirectory
  refine ⟨t, ?_, Tree.rename_next ht, hget⟩
  rw [Program.run_rename, rename_of_located source.locate_entry target.locate_entry,
    source.endsInName, target.endsInName, ht]
  rfl

/-- A file that was moved from one spot to another did not take the place of a directory. -/
theorem Spot.rename_ok (source : w.Spot p d name) (target : w.Spot q d other) {number : Nat}
    {content : Content} (hfile : w.tree.get? (d.2 ++ [name]) = some (.file number content))
    (h : (Program.rename p q).run w = (.ok (), v)) :
    w.tree.get? (d.2 ++ [other]) ≠ some .directory := by
  intro hdirectory
  rw [Program.run_rename, rename_of_located source.locate_entry target.locate_entry,
    Tree.rename_onto_directory hfile (by simp) hdirectory] at h
  split at h <;> cases h

end World

/-- The log goes where it went after a file that is not one of its own has been moved. -/
theorem Log.GoesTo.moved {t : Tree} {source target : Location} {number : Nat} {content : Content}
    (goes : GoesTo L w) (hfile : w.tree.get? source = some (.file number content))
    (hparent : w.tree.get? target.dropLast = some .directory)
    (hdirectory : w.tree.get? target ≠ some .directory) (hsource : ¬ At L source)
    (hnext : t.next = w.tree.next) (hget : ∀ m, t.get? m =
      if m = target then some (.file number content) else if m = source then none
      else w.tree.get? m) : GoesTo L { w with tree := t } := by
  have horderly := goes.home.orderly
  have hplaces : ∀ m, t.get? m = some (.file number content) ∨ t.get? m = none ∨
      t.get? m = w.tree.get? m := by
    intro m
    rw [hget]
    split
    · exact .inl rfl
    · split
      · exact .inr (.inl rfl)
      · exact .inr (.inr rfl)
  refine ⟨⟨⟨horderly.tree.moved hfile hparent hdirectory hnext hget, ?_⟩, goes.home.names, ?_, ?_⟩, ?_⟩
  · show t.get? w.here = some .directory
    rw [hget, if_neg, if_neg, horderly.here]
    · intro heq
      cases (heq ▸ horderly.here).symm.trans hfile
    · intro heq
      exact hdirectory (heq ▸ horderly.here)
  · intro m hm target' htarget
    rcases hplaces m with h | h | h <;> rw [show t.get? m = _ from htarget] at h
    · cases h
    · cases h
    · exact goes.home.way m hm target' h.symm
  · refine goes.home.ground.congr (fun m => ?_) fun m target' htarget => ?_
    · show t.get? m = _ ↔ _
      rw [hget]
      split
      · next heq => exact iff_of_false (by simp) (heq ▸ hdirectory)
      · split
        · next heq => exact iff_of_false (by simp) (by rw [heq, hfile]; simp)
        · rfl
    · rcases hplaces m with h | h | h <;> rw [show t.get? m = _ from htarget] at h
      · cases h
      · cases h
      · exact h.symm
  · intro o ho f hf
    have hin := goes.outlets o ho f hf
    obtain ⟨base, hbase, hpath, hplain⟩ := hin.path
    refine ⟨⟨base, hbase, hpath, ?_⟩, hin.backups, fun s hs => ?_⟩
    · show t.get? _ = none ∨ ∃ number content, t.get? _ = some (.file number content)
      rcases hplaces (L ++ [base]) with h | h | h
      · exact .inr ⟨_, _, h⟩
      · exact .inl h
      · rw [h]
        exact hplain
    obtain ⟨hbound, hplace⟩ := hin.owned s hs
    refine ⟨hnext ▸ hbound, fun m c hm => ?_⟩
    rw [hget] at hm
    split at hm
    · cases hm
      exact absurd (hplace source _ hfile) hsource
    · split at hm
      · cases hm
      · exact hplace m c hm

/-- A message is logged without a failure, and only the log files change. -/
theorem Log.GoesTo.keeps_log (goes : GoesTo L w) (hlog : ∀ m, At L m → may m) (level : Level)
    (message : Text) : ∃ v, (Program.log level message).run w = (.ok (), v) ∧ Keeps L may w v :=
  have ⟨v, hv, hchanges, goes'⟩ := goes.run_logEvent (.plain level message)
  ⟨v, hv, hchanges.mono hlog, fun _ => goes'⟩

namespace Store

variable {s : Store} {directory : Path} {t : Text}

/-! ### What saving leaves -/

/-- A world in which a file with some octets has come to stand at a place, and apart from it nothing is
different but files at some places. -/
structure Renews (may : Location → Prop) (l : Location) (octets : Octets) (w v : World) : Prop where
  file : v.tree.Holds l octets
  others : ∀ m, m ≠ l →
    v.tree.get? m = w.tree.get? m ∨ may m ∧ w.tree.Plain m ∧ v.tree.Plain m
  here : v.here = w.here

theorem Renews.after (h : Renews may l octets w u) (hv : u.Changes may v) (hl : ¬ may l) :
    Renews may l octets w v := by
  refine ⟨by rw [Tree.Holds, hv.tree.same l hl]; exact h.file, fun m hm => ?_,
    hv.here.trans h.here⟩
  rcases h.others m hm, hv.tree.cases m with ⟨hm' | ⟨hmay, hw, hu⟩, hm'' | ⟨hmay', hu', hv'⟩⟩
  · exact .inl (hm''.trans hm')
  · refine .inr ⟨hmay', ?_, hv'⟩
    rwa [Tree.Plain, ← hm']
  · refine .inr ⟨hmay, hw, ?_⟩
    rwa [Tree.Plain, hm'']
  · exact .inr ⟨hmay, hw, hv'⟩

theorem Renews.before (h : Renews may l octets u v) (hu : w.Changes may u) :
    Renews may l octets w v := by
  refine ⟨h.file, fun m hm => ?_, h.here.trans hu.here⟩
  rcases hu.tree.cases m, h.others m hm with ⟨hm' | ⟨hmay, hw, hu'⟩, hm'' | ⟨hmay', hu'', hv'⟩⟩
  · exact .inl (hm''.trans hm')
  · refine .inr ⟨hmay', ?_, hv'⟩
    rwa [Tree.Plain, ← hm']
  · refine .inr ⟨hmay, hw, ?_⟩
    rwa [Tree.Plain, hm'']
  · exact .inr ⟨hmay, hw, hv'⟩

/-- Ways to directories do not go through what has been replaced. -/
theorem Renews.keepsRoads (h : Renews may l octets w v) (blind : w.tree.Blind l) :
    w.KeepsRoads v := by
  have keeps : w.tree.KeepsWays v.tree l := by
    intro m hm hway
    refine (h.others m hm).resolve_right ?_
    rintro ⟨-, hplain, -⟩
    rcases hway with hway | ⟨target, hway⟩
    · exact hplain.ne_directory hway
    · exact hplain.ne_link target hway
  refine ⟨keeps.keepsRoads blind, h.here, fun m hm => ?_⟩
  by_cases heq : m = l
  · exact heq ▸ h.file.plain
  · rcases h.others m heq with hsame | ⟨-, -, hplain⟩
    · rwa [Tree.Plain, hsame]
    · exact hplain

/-- The file that was written is what is read at its spot. -/
theorem read_spot (spot : v.Spot p d name) (holds : v.tree.Holds (d.2 ++ [name]) octets) :
    v.read p = .ok octets := by
  obtain ⟨number, content, hfile, rfl⟩ := holds
  have hlocate := spot.locate_of_no_link (fun target => by rw [hfile]; simp) .target
  rw [World.read_of_locate hlocate, Tree.read, hfile]
  rfl

/-! ### Saving that ends well -/

/-- A temporary file is no log file. -/
theorem temporaryName_apart (k : Location) (now : Int) : ¬ At L (k ++ [temporaryName now]) := by
  rintro ⟨n, hn, heq⟩
  have hname := List.singleton_inj.mp (List.append_inj' heq rfl).2
  have hstart : ∀ n ∈ Log.fileNames, n.head? ≠ some (.scalar '.') := by decide
  exact hstart n hn (hname ▸ rfl)

theorem temporaryName_ne (now : Int) : temporaryName now ≠ fileName := by
  intro heq
  have hstart := congrArg List.head? heq
  rw [show (temporaryName now).head? = some (.scalar '.') from rfl] at hstart
  revert hstart
  decide

theorem short_fileName : Tree.nameLength fileName ≤ Tree.maxNameLength := by decide

/-- A path into a directory that can be handed over has a spot beside the others there. -/
theorem spot_beside {a b : Text} (spot : w.Spot (directory.child a) d a)
    (hhanded : ∃ t, (directory.child b).handedOver = .ok t) (isName : Tree.IsName b)
    (short : Tree.nameLength b ≤ Tree.maxNameLength) : w.Spot (directory.child b) d b := by
  refine spot.beside rfl ?_ hhanded isName short
  rw [Path.child, Path.child, List.dropLast_concat]

/-- What replacing the file of a store has come to when it has ended well. -/
theorem replaceFile_ok {now : Int} (goes : GoesTo L w) (hs : s.path = directory.child fileName)
    (hq : w.LeadsInto may (directory.child (temporaryName now)))
    (h : (s.replaceFile (directory.child (temporaryName now))).run w = (.ok (), v)) :
    ∃ t octets d, s.collection.text = .ok t ∧ Utf8.encode t = .ok octets ∧
      w.Spot s.path d fileName ∧ Renews may (d.2 ++ [fileName]) octets w v ∧ GoesTo L v := by
  obtain ⟨x, hwrite, hrename⟩ := run_replaceFile_ok h
  obtain ⟨t, octets, k, number, htext, hencode, hk, hfile, hx⟩ :=
    LabelFile.write_ok goes.home.orderly hwrite
  obtain ⟨hmay, hlink⟩ := hq _ k hk
  have hnames : ∀ n : Text, (directory.child n).names =
      (directory.child n).names.dropLast ++ [n] := by
    intro n
    rw [Path.child, List.dropLast_concat]
  -- the temporary file has a spot, and so has the file of the store beside it
  rcases World.spot_or_refused (w := w) (hnames _) (temporaryName_isName now)
      (.inl (World.handedOver_of_locate hk)) with ⟨d, spot⟩ | ⟨why, hrefused⟩
  · have hk' : k = d.2 ++ [temporaryName now] := by
      refine Except.ok.inj (hk.symm.trans (spot.locate_of_no_link (fun target hget => ?_) _))
      exact (hq _ _ spot.locate_entry).2 target hget
    subst hk'
    have hgoes := (Keeps.of_place hx (by rintro a b rfl rfl; rfl)).goes goes
    have hlocate : ∃ l, x.locate .entry s.path = .ok l := by
      rw [Program.run_rename] at hrename
      rcases x.rename_cases _ s.path with ⟨e, he⟩ | ⟨_, l, _, -, hl, -, -⟩
      · rw [he] at hrename
        cases hrename
      · exact ⟨l, hl⟩
    obtain ⟨l, hl⟩ := hlocate
    rw [hs] at hl hrename ⊢
    have label : w.Spot (directory.child fileName) d fileName :=
      spot_beside spot ⟨_, World.handedOver_of_locate hl⟩ fileName_isName short_fileName
    have roads : w.KeepsRoads x := hx.toChanges.keepsRoads
    have hdirectory := (spot.roads roads).rename_ok (label.roads roads) hfile hrename
    obtain ⟨tree, hmoved, hnext, hget⟩ := (spot.roads roads).run_rename (label.roads roads)
      hgoes.home.orderly.sound (temporaryName_ne now) hfile hdirectory
    obtain rfl := (Prod.mk.inj (hmoved.symm.trans hrename)).2
    have hparent : x.tree.get? (d.2 ++ [fileName]).dropLast = some .directory := by
      rw [List.dropLast_concat]
      exact (label.roads roads).parent_directory hgoes.home.orderly.sound
    refine ⟨t, octets, d, htext, hencode, label, ⟨⟨number, _, (hget _).trans (if_pos rfl),
      Content.octets_ofOctets octets⟩, fun m hm => ?_, hx.here⟩,
      hgoes.moved hfile hparent hdirectory (temporaryName_apart d.2 now) hnext hget⟩
    by_cases hmk : m = d.2 ++ [temporaryName now]
    · subst hmk
      refine .inr ⟨hmay, hx.tree.ways.symm.plain (.inr ⟨_, _, hfile⟩), .inl ?_⟩
      exact (hget _).trans ((if_neg hm).trans (if_pos rfl))
    · refine .inl (((hget m).trans ((if_neg hm).trans (if_neg hmk))).trans ?_)
      exact hx.tree.same m hmk
  · cases (hrefused _).symm.trans hk

/-- Saving that ended well had nothing to save, or a file with the octets of the collection has taken the
place of what stood at the spot of the store's path. -/
theorem save_ok (goes : GoesTo L w) (hs : s.path = directory.child fileName)
    (hlog : ∀ m, At L m → may m) (hfree : ∀ k, ¬ may (k ++ [fileName]))
    (hq : w.LeadsInto may (temporaryFor s.path w.now)) (h : s.save.run w = (.ok (), v)) :
    s.hasNothingToSave.run w = (.ok true, w) ∧ Keeps L may w v ∨
      s.hasNothingToSave.run w = (.ok false, w) ∧ ∃ t octets d, s.collection.text = .ok t ∧
        Utf8.encode t = .ok octets ∧ w.Spot s.path d fileName ∧
        Renews may (d.2 ++ [fileName]) octets w v ∧ GoesTo L v := by
  have hasks := (asks_hasNothingToSave s).run w
  rcases hsome : (s.hasNothingToSave.run w).1 with f | b
  · rw [hsome] at hasks
    rw [save, Program.run_bind_error hasks] at h
    cases h
  rw [hsome] at hasks
  rw [save, Program.run_bind_ok hasks] at h
  cases b with
  | true =>
    have hlead := (goes.leads_log hlog .debug
      "No labels to save and file doesn't exist. Skipping save.").step
    rw [show (Program.log .debug _).run w = (.ok (), v) from h] at hlead
    exact .inl ⟨hasks, hlead⟩
  | false =>
    rw [if_neg (by simp), hs, lacksParent_child, if_neg (by simp),
      Program.run_bind_ok Program.run_now] at h
    dsimp only at h
    rw [hs, temporaryFor_child] at hq
    rw [temporaryFor_child] at h
    obtain ⟨x, hlog₁, hx⟩ := goes.keeps_log hlog .debug (Text.concat ["Atomically saving labels to ",
      (directory.child fileName).text, " via temporary file ",
      (directory.child (temporaryName w.now)).text])
    rw [Program.run_bind_ok hlog₁] at h
    rcases hreplace : (s.replaceFile (directory.child (temporaryName w.now))).run x with ⟨f | _, y⟩
    · rw [Program.run_bind_error hreplace] at h
      cases h
    rw [Program.run_bind_ok hreplace] at h
    obtain ⟨t, octets, d, htext, hencode, spot, renews, hgoes⟩ :=
      replaceFile_ok (hx.goes goes) hs (hq.changes hx.toChanges) hreplace
    have hlead := (hgoes.leads_logEvent hlog ⟨.info, .ok (Text.concat
      ["Labels successfully saved to ", (directory.child fileName).text]),
      details "labels.saved" (directory.child fileName) s.collection.size, none⟩).step
    rw [h] at hlead
    refine .inr ⟨hasks, t, octets, d, htext, hencode, ?_,
      (renews.before hx.toChanges).after hlead.toChanges (hfree _), hlead.goes hgoes⟩
    exact spot.roads hx.toChanges.keepsRoads_back

end Store

end LabelBook
