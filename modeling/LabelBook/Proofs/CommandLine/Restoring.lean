import LabelBook.Proofs.CommandLine.Answering
import LabelBook.Proofs.Store.Settling

/-!
Backup and restore. What one process has exported a later one can import: into an empty directory, which
then has a label file with the same octets and gives the same lists, and into the directory that it comes
from, whose label file then has the octets of the export as well.
-/

namespace LabelBook

open Log (At GoesTo Home Keeps Lodging Uses)
open Program Store

variable {L l f m : Location} {w v u x y : World} {directory file : Path} {settings : Settings} {s : Store}
  {t : Text} {octets : Octets} {may : Location → Prop}

/-! ### Files apart -/

/-- A world in which a file with some octets stands at the end of a path, at a place that the log does not
touch. -/
structure Holding (L : Location) (w : World) (p : Path) (octets : Octets) (f : Location) : Prop where
  spot : ∃ d name, w.Spot p d name ∧ f = d.2 ++ [name]
  holds : w.tree.Holds f octets
  unlogged : ¬ At L f

namespace Holding

theorem changes (h : Holding L w file octets f) (hv : w.Changes may v) (hf : ¬ may f) :
    Holding L v file octets f := by
  obtain ⟨⟨d, name, spot, rfl⟩, holds, unlogged⟩ := h
  refine ⟨⟨d, name, spot.roads hv.keepsRoads, rfl⟩, ?_, unlogged⟩
  rwa [Tree.Holds, hv.tree.same _ hf]

theorem renews {octets' : Octets} (h : Holding L w file octets f) (hv : Renews may m octets' w v)
    (roads : w.KeepsRoads v) (hm : f ≠ m) (hf : ¬ may f) : Holding L v file octets f := by
  obtain ⟨⟨d, name, spot, rfl⟩, holds, unlogged⟩ := h
  refine ⟨⟨d, name, spot.roads roads, rfl⟩, ?_, unlogged⟩
  rwa [Tree.Holds, (hv.others _ hm).resolve_right fun h => hf h.1]

theorem read (h : Holding L w file octets f) : w.read file = .ok octets := by
  obtain ⟨⟨d, name, spot, rfl⟩, holds, -⟩ := h
  exact read_spot spot holds

theorem ne_of_vacant (h : Holding L w file octets f) (vacant : w.tree.get? m = none) : f ≠ m := by
  rintro rfl
  obtain ⟨-, ⟨number, content, hfile, -⟩, -⟩ := h
  cases hfile.symm.trans vacant

end Holding

/-- A world with a store to be opened in a directory and a file with the octets of its text. -/
structure Backed (L : Location) (w : World) (directory file : Path) (s : Store) (octets : Octets)
    (l f : Location) : Prop where
  offers : Offers L w directory s l
  holding : Holding L w file octets f
  apart : l ≠ f

theorem Backed.changes (h : Backed L w directory file s octets l f) (hv : w.Changes may v)
    (hmay : ∀ m, may m → At L m) : Backed L v directory file s octets l f :=
  ⟨h.offers.changes hv fun hl => h.offers.unlogged (hmay l hl),
    h.holding.changes hv fun hf => h.holding.unlogged (hmay f hf), h.apart⟩

/-- An empty directory, with the paths of a label file and of the temporary file leading into it. -/
structure World.Empty (w : World) (directory : Path) (e : Nat × Location) : Prop where
  labels : w.Spot (directory.child fileName) e fileName
  temporary : w.Spot (directory.child (temporaryName w.now)) e (temporaryName w.now)
  vacant : ∀ n, w.tree.get? (e.2 ++ [n]) = none

/-- Once the log has been set up, a store can be saved there, and there are no labels yet. -/
theorem World.Empty.changes {e : Nat × Location} (h : w.Empty directory e) (hv : w.Changes (At L) v)
    (hnow : v.now = w.now) :
    v.Writable directory e ∧ v.tree.get? (e.2 ++ [fileName]) = none := by
  obtain ⟨labels, temporary, vacant⟩ := h
  refine ⟨(World.Writable.mk labels temporary (vacant _)).changes hv hnow, ?_⟩
  rw [hv.tree.same _ (fileName_unlogged e.2)]
  exact vacant fileName

/-- The backup stays when labels come to stand in a directory in which there were none. -/
theorem Backed.renews {e : Nat × Location} {now : Int} {octets' : Octets}
    (h : Backed L w directory file s octets l f) (hsome : s.collection.isEmpty = false)
    (hv : Renews (Beside L e now) (e.2 ++ [fileName]) octets' w v) (roads : w.KeepsRoads v)
    (vacant : w.tree.get? (e.2 ++ [fileName]) = none)
    (vacant' : w.tree.get? (e.2 ++ [temporaryName now]) = none) :
    Backed L v directory file s octets l f := by
  obtain ⟨offers, holding, apart⟩ := h
  obtain ⟨number, content, hfile⟩ := offers.file hsome
  have hl : ∀ m, w.tree.get? m = none → l ≠ m := by
    rintro m hm rfl
    cases hfile.symm.trans hm
  refine ⟨offers.renews hv vacant (hl _ vacant) ?_,
    holding.renews hv roads (holding.ne_of_vacant vacant) ?_, apart⟩
  · rintro (hlog | htemporary)
    · exact offers.unlogged hlog
    · exact hl _ vacant' htemporary
  · rintro (hlog | htemporary)
    · exact holding.unlogged hlog
    · exact holding.ne_of_vacant vacant' htemporary

namespace CommandLine

variable {i : Invocation} {d : Program Path}

/-! ### Exports -/

/-- An export that ended well has opened a store and written it. -/
theorem exportFile_ok (found : d.run u = (.ok directory, u))
    (h : (exportFile d (some (.string t))).run u = (.ok (), v)) :
    ∃ s x y, (openIn directory).run u = (.ok s, x) ∧
      (LabelFile.write s.collection (.ofText t)).run x = (.ok (), y) ∧
      y.Changes (fun _ => False) v := by
  unfold exportFile at h
  obtain ⟨s, x, hs, h⟩ := run_bind_eq_ok h
  obtain ⟨_, y, hwrite, h⟩ := run_bind_eq_ok (show (do
    LabelFile.write s.collection (.ofText t)
    Program.print (Text.concat ["exported ", Text.ofNat s.collection.size, " labels to ",
      (Json.string t).plain, "\n"]) : Program Unit).run x = (.ok (), v) from h)
  obtain ⟨-, rfl⟩ := Prod.mk.inj h
  exact ⟨s, x, y, (run_bind_ok found _).symm.trans hs, hwrite, .refl _ y.tree, id, rfl⟩

/-- A path to a file that nothing else uses: a file or nothing stands at its end, and that is the place of
no log file and another than the one that the path of the labels leads to, which is no log file either. -/
structure Aside (settings : Settings) (w : World) (directory file : Path) (l f : Location) : Prop where
  spot : ∃ d name, (settings.prepared w).Spot file d name ∧ f = d.2 ++ [name]
  plain : (settings.prepared w).tree.Plain f
  labels : (settings.prepared w).locate .target (directory.child fileName) = .ok l
  apart : l ≠ f
  unlogged : ∀ m, Uses settings.log.directory w m → m ≠ f ∧ m ≠ l

/-- What an export leaves: the file with the octets of the store, beside the labels as they were. -/
theorem runWith_export (starts : i.Starts w settings directory)
    (command : i.command = .exportFile (some (.string t)))
    (aside : Aside settings w directory (.ofText t) l f)
    (hrun : (i.runWith settings).run w = (.ok 0, v)) :
    ∃ L s x text octets, (openIn directory).run (settings.prepared w) = (.ok s, x) ∧ s.Kept ∧
      s.path = directory.child fileName ∧ s.collection.text = .ok text ∧
      Utf8.encode text = .ok octets ∧ Lodging settings.log.directory L v ∧
      Backed L v directory (.ofText t) s octets l f := by
  obtain ⟨u, status, hsetUp, hcommand, -⟩ := runWith_zero hrun
  obtain ⟨L, lodging, goes, huses⟩ := starts.fresh.setUp_ok starts.room hsetUp
  have homes := sameHomes_of_run hcommand
  have found := (homely_directoryFor _ _).after starts.found (sameHomes_of_run hsetUp)
  rw [command] at hcommand
  obtain ⟨_, v', hexport, hnone⟩ := run_bind_eq_ok hcommand
  obtain ⟨-, rfl⟩ := Prod.mk.inj hnone
  have hprepared : settings.prepared w = u := by rw [Settings.prepared, hsetUp]
  obtain ⟨⟨d, name, spot, rfl⟩, plain, labels, apart, unlogged⟩ := aside
  rw [hprepared] at spot plain labels ⊢
  have hl : ¬ At L l := fun hm => (unlogged l (huses l hm)).2 rfl
  have hf : ¬ At L (d.2 ++ [name]) := fun hm => (unlogged _ (huses _ hm)).1 rfl
  obtain ⟨s, x, y, hopen, hwrite, hprint⟩ :=
    exportFile_ok found hexport
  obtain ⟨keeps, hpath, kept, -⟩ := openIn_ok goes hopen
  have offers := offers_of_openIn goes hopen labels hl
  -- the file is written at its own place
  have spot' := spot.roads keeps.toChanges.keepsRoads
  obtain ⟨text, octets, k, number, htext, hencode, hk, hfile, hedits⟩ :=
    LabelFile.write_ok (keeps.goes goes).home.orderly hwrite
  have hplace := spot'.locate_of_no_link (keeps.tree.ways.plain plain).ne_link .writing
  obtain rfl := Except.ok.inj (hplace.symm.trans hk)
  have roads : u.KeepsRoads v' := trans_of World.KeepsRoads keeps.toChanges.keepsRoads
    (trans_of World.KeepsRoads hedits.toChanges.keepsRoads hprint.keepsRoads)
  have home : Home L v' := (((keeps.goes goes).home.changes hedits.toChanges).changes hprint)
  have holding : Holding L y (.ofText t) octets (d.2 ++ [name]) :=
    ⟨⟨d, name, spot'.roads hedits.toChanges.keepsRoads, rfl⟩,
      ⟨number, _, hfile, Content.octets_ofOctets octets⟩, hf⟩
  refine ⟨L, s, x, text, octets, hopen, kept, hpath, htext, hencode, lodging.roads roads home homes,
    ?_, holding.changes hprint id, apart⟩
  exact ((offers.changes keeps.toChanges hl).changes hedits.toChanges apart).changes hprint id

/-! ### Imports -/

/-- The reply to an import. -/
def importReply (n : Nat) : Reply :=
  ⟨0, Text.concat ["imported ", Text.ofNat n, " labels\n"], []⟩

theorem run_importFile {c : Collection} (found : d.run u = (.ok directory, u))
    (hread : LabelFile.contents u (.ofText t) = .ok c)
    (hopen : (openIn directory).run u = (.ok s, x))
    (hsave : (s.merge c).1.save.run x = (.ok (), y)) :
    (importFile d (some (.string t))).run u =
      (.ok (), { y with printed := (importReply c.size).output :: y.printed }) := by
  have hopened : (openStore d).run u = (.ok s, x) := (run_bind_ok found _).trans hopen
  have hincoming : (LabelFile.read (.ofText t)).run u = (.ok c, u) := by
    rw [LabelFile.run_read, hread]
  unfold importFile
  rw [run_bind_ok (show (Program.ofExcept _).run u = (.ok (Path.ofText t), u) from rfl),
    run_bind_ok hincoming, run_bind_ok hopened]
  exact run_bind_ok hsave _

/-- An import whose store can be saved tells how many records there were. -/
theorem import_replies {c : Collection} (command : i.command = .importFile (some (.string t)))
    (hsetUp : settings.setUp.run w = (.ok (), u))
    (found : (directoryFor i.directory (some settings)).run u = (.ok directory, u))
    (hread : LabelFile.contents u (.ofText t) = .ok c)
    (hopen : (openIn directory).run u = (.ok s, x))
    (hsave : (s.merge c).1.save.run x = (.ok (), y)) :
    ∃ v, Replies (i.runWith settings) (importReply c.size) w v ∧ y.Changes (fun _ => False) v ∧
      u.SameHomes v := by
  have hcommand : (i.command.run (directoryFor i.directory (some settings))).run u =
      (.ok none, { y with printed := (importReply c.size).output :: y.printed }) := by
    rw [command]
    exact run_bind_ok (run_importFile found hread hopen hsave) _
  have hmutters := mutters_save (s.merge c).1 x
  rw [hsave] at hmutters
  exact ⟨_, replies_of_command hsetUp hcommand
    (trans_of World.Mutters (mutters_of_openIn hopen) hmutters) rfl (output_print _ y) rfl,
    ⟨.refl _ y.tree, id, rfl⟩, sameHomes_of_run hcommand⟩

/-- An import whose records come to make up the store puts a file with their octets in the place of the
labels. -/
theorem import_saves {c : Collection} {text : Text} {e : Nat × Location}
    (command : i.command = .importFile (some (.string t)))
    (hsetUp : settings.setUp.run w = (.ok (), u)) (lodging : Lodging settings.log.directory L u)
    (goes : GoesTo L u)
    (found : (directoryFor i.directory (some settings)).run u = (.ok directory, u))
    (hread : LabelFile.contents u (.ofText t) = .ok c) (offers : Offers L u directory s l)
    (writable : u.Writable directory e) (hmerge : (s.merge c).1 = ⟨c, directory.child fileName⟩)
    (hsome : c.isEmpty = false) (htext : c.text = .ok text) (hencode : Utf8.encode text = .ok octets) :
    ∃ v, Replies (i.runWith settings) (importReply c.size) w v ∧
      Lodging settings.log.directory L v ∧ v.HasLabels directory octets ∧
      Renews (Beside L e u.now) (e.2 ++ [fileName]) octets u v ∧ u.KeepsRoads v := by
  obtain ⟨x, hopen, keeps⟩ := offers.run_openIn goes
  have hnow := now_of_run hopen
  have goes' := keeps.goes goes
  have writable' := writable.changes keeps.toChanges hnow
  have offers' := offers.changes keeps.toChanges offers.unlogged
  have blind : x.tree.Blind (e.2 ++ [fileName]) :=
    writable'.labels.blind goes'.home.orderly.sound (opened_fileOrNothing offers'.opened)
  obtain ⟨y, hsave⟩ := run_save_written (s := ⟨c, directory.child fileName⟩) goes' rfl writable'
    blind.directory hsome htext hencode
  obtain ⟨renews, hgoes⟩ := renews_of_save goes' rfl writable' hsome htext hencode hsave
  rw [← hmerge] at hsave
  obtain ⟨v, replies, hprint, homes⟩ := import_replies command hsetUp found hread hopen hsave
  have roads : u.KeepsRoads v := trans_of World.KeepsRoads keeps.toChanges.keepsRoads
    (trans_of World.KeepsRoads (renews.keepsRoads blind) hprint.keepsRoads)
  rw [hnow] at renews
  have renews' : Renews (Beside L e u.now) (e.2 ++ [fileName]) octets u v :=
    (renews.before (keeps.toChanges.mono fun _ => .inl)).after
      (hprint.mono fun _ => False.elim) (beside_apart u.now e.2)
  exact ⟨v, replies, lodging.roads roads (hgoes.home.changes hprint) homes,
    ⟨e, writable.labels.roads roads, renews'.file⟩, renews', roads⟩

/-- An import without records into a directory without labels touches nothing but the log. -/
theorem import_nothing {e : Nat × Location} (command : i.command = .importFile (some (.string t)))
    (hsetUp : settings.setUp.run w = (.ok (), u)) (lodging : Lodging settings.log.directory L u)
    (goes : GoesTo L u)
    (found : (directoryFor i.directory (some settings)).run u = (.ok directory, u))
    (hread : LabelFile.contents u (.ofText t) = .ok .empty)
    (spot : u.Spot (directory.child fileName) e fileName)
    (vacant : u.tree.get? (e.2 ++ [fileName]) = none) :
    ∃ v, Replies (i.runWith settings) (importReply 0) w v ∧
      Lodging settings.log.directory L v ∧ u.Changes (At L) v := by
  obtain ⟨x, hopen, keeps⟩ := (offers_empty (L := L) spot vacant).run_openIn goes
  have vacant' : x.tree.get? (e.2 ++ [fileName]) = none := by
    rw [keeps.tree.same _ (fileName_unlogged e.2)]
    exact vacant
  obtain ⟨y, hsave, keeps'⟩ := run_save_nothing (s := ⟨.empty, directory.child fileName⟩)
    (keeps.goes goes) rfl (spot.roads keeps.toChanges.keepsRoads) vacant' rfl
  obtain ⟨v, replies, hprint, homes⟩ := import_replies command hsetUp found hread hopen hsave
  have changes : u.Changes (At L) v := (keeps.toChanges.trans keeps'.toChanges).trans
    (hprint.mono fun _ => False.elim)
  exact ⟨v, replies, lodging.roads changes.keepsRoads (lodging.home.changes changes) homes, changes⟩

/-! ### Lists -/

/-- The reply to the question for the records, or those of a kind. -/
def listReply (c : Collection) (kind : Argument) : Reply :=
  ⟨0, Text.concat ((c.records.filter (isWanted kind)).map listLine), []⟩

theorem listReply_asWritten (c : Collection) (kind : Argument) :
    listReply ⟨c.records.map Record.asWritten⟩ kind = listReply c kind := by
  rw [listReply, listReply, List.filter_map, List.map_map]
  rfl

theorem run_lines (rs : List Record) : ∀ w : World, (forIn rs PUnit.unit fun r _ => do
      Program.print (listLine r)
      return ForInStep.yield PUnit.unit : Program PUnit).run w =
    (.ok PUnit.unit, { w with printed := (rs.map listLine).reverse ++ w.printed }) := by
  induction rs with
  | nil => exact fun _ => rfl
  | cons r rs ih =>
    intro w
    rw [List.forIn_cons, run_bind_ok (show (do
      Program.print (listLine r)
      return ForInStep.yield PUnit.unit : Program (ForInStep PUnit)).run w =
        (.ok (.yield PUnit.unit), { w with printed := listLine r :: w.printed }) from rfl)]
    refine (ih _).trans ?_
    rw [List.map_cons, List.reverse_cons, List.append_assoc, List.singleton_append]

/-- The list rests on the store that is opened alone. -/
theorem list_replies {kind : Argument} (command : i.command = .list kind)
    (hsetUp : settings.setUp.run w = (.ok (), u))
    (found : (directoryFor i.directory (some settings)).run u = (.ok directory, u))
    (hopen : (openIn directory).run u = (.ok s, x)) :
    ∃ v, Replies (i.runWith settings) (listReply s.collection kind) w v := by
  have hopened : (openStore (directoryFor i.directory (some settings))).run u = (.ok s, x) :=
    (run_bind_ok found _).trans hopen
  have hlist : (list (directoryFor i.directory (some settings)) kind).run u = (.ok (), { x with
      printed := ((s.collection.records.filter (isWanted kind)).map listLine).reverse ++ x.printed }) := by
    unfold list
    rw [run_bind_ok hopened]
    exact run_bind_ok (run_lines _ x) _
  have hcommand : (i.command.run (directoryFor i.directory (some settings))).run u = (.ok none, { x with
      printed := ((s.collection.records.filter (isWanted kind)).map listLine).reverse ++ x.printed }) := by
    rw [command]
    exact run_bind_ok hlist _
  refine ⟨_, replies_of_command hsetUp hcommand (mutters_of_openIn hopen) rfl ?_ rfl⟩
  simp [World.output, Text.concat, listReply]

/-! ### Command lines -/

/-- A command line that carries out a command on a directory, by settings that it finds. -/
def Carries (args : List Text) (w : World) (settings : Settings) (directory : Path) (c : Command) :
    Prop :=
  ∃ i, demand args = .run i ∧ i.Finds w settings ∧
    (directoryFor i.directory (some settings)).run w = (.ok directory, w) ∧ i.command = c

theorem size_asWritten (c : Collection) :
    (Collection.mk (c.records.map Record.asWritten)).size = c.size := List.length_map _

theorem isEmpty_asWritten (c : Collection) :
    (Collection.mk (c.records.map Record.asWritten)).isEmpty = c.isEmpty := by
  rw [Collection.isEmpty, Collection.isEmpty, List.isEmpty_map]

theorem references_asWritten (c : Collection) :
    (c.records.map Record.asWritten).map Record.reference = c.references := by
  rw [List.map_map]
  rfl

/-- A store whose text has octets and can be read and written again. -/
structure Written (s : Store) (directory : Path) (text : Text) (octets : Octets) : Prop where
  path : s.path = directory.child fileName
  kept : s.Kept
  written : s.collection.text = .ok text
  encoded : Utf8.encode text = .ok octets
  whole : ∀ r ∈ s.collection.records, r.asWritten.hasBreak = false
  settled : ∀ r ∈ s.collection.records, r.Settled

namespace Written

variable {text : Text}

theorem text_asWritten (written : Written s directory text octets) :
    Collection.text ⟨s.collection.records.map Record.asWritten⟩ = .ok text := by
  obtain ⟨text', htext', hsame⟩ := Collection.text_asWritten written.written
  rw [htext', hsame written.settled]

theorem contents (written : Written s directory text octets) (h : Holding L w file octets f) :
    LabelFile.contents w file = .ok ⟨s.collection.records.map Record.asWritten⟩ := by
  have regular : ∀ r ∈ s.collection.records, r.Regular :=
    fun r hr => (written.kept.described r hr).regular
  rw [LabelFile.contents_of_text written.written regular written.encoded h.read,
    Collection.ofText_whole written.written regular written.whole]

theorem merge_empty (written : Written s directory text octets) (p : Path) :
    (Store.merge ⟨.empty, p⟩ ⟨s.collection.records.map Record.asWritten⟩).1 =
      ⟨⟨s.collection.records.map Record.asWritten⟩, p⟩ := by
  have nodup := written.kept.nodup
  rw [← references_asWritten] at nodup
  exact congrArg (Store.mk · p) (Collection.setAll_of_nodup (c := .empty) nodup)

theorem merge_self (written : Written s directory text octets) :
    (s.merge ⟨s.collection.records.map Record.asWritten⟩).1 =
      ⟨⟨s.collection.records.map Record.asWritten⟩, directory.child fileName⟩ := by
  obtain ⟨⟨rs⟩, p⟩ := s
  obtain rfl := written.path
  have nodup : (([] ++ rs).map Record.reference).Nodup := written.kept.nodup
  exact congrArg (Store.mk · _)
    (Collection.setAll_of_references nodup (references_asWritten ⟨rs⟩).symm)

end Written

/-! ### Later processes -/

variable {text : Text} {target : Path} {e : Nat × Location}

/-- Importing a backup into an empty directory. -/
theorem restores (written : Written s directory text octets)
    (lodging : Lodging settings.log.directory L v)
    (backed : Backed L v directory (.ofText t) s octets l f) (later : v.Later x)
    (command : i.command = .importFile (some (.string t)))
    (found : (directoryFor i.directory (some settings)).run x = (.ok target, x))
    (empty : x.Empty target e) :
    ∃ y m, Replies (i.runWith settings) (importReply s.collection.size) x y ∧
      Lodging settings.log.directory L y ∧ Backed L y directory (.ofText t) s octets l f ∧
      Offers L y target ⟨⟨s.collection.records.map Record.asWritten⟩, target.child fileName⟩ m ∧
      (s.collection.isEmpty = false → y.HasLabels target octets) ∧
      (s.collection.isEmpty = true → y.tree.get? (e.2 ++ [fileName]) = none) := by
  obtain ⟨u, hsetUp, hchanges, goes, lodging', homes, hnow⟩ := setUp_later lodging later
  have found' := (homely_directoryFor i.directory (some settings)).after found homes
  have backed' := (backed.changes later.changes fun _ => False.elim).changes hchanges fun _ => id
  obtain ⟨writable, vacant⟩ := empty.changes hchanges hnow
  have hread := written.contents backed'.holding
  cases hsome : s.collection.isEmpty with
  | true =>
    have hnone : s.collection.records = [] := List.isEmpty_iff.mp hsome
    rw [hnone] at hread
    obtain ⟨y, replies, lodging'', hy⟩ := import_nothing command hsetUp lodging' goes found' hread
      writable.labels vacant
    have vacant' : y.tree.get? (e.2 ++ [fileName]) = none := by
      rw [hy.tree.same _ (fileName_unlogged e.2)]
      exact vacant
    refine ⟨y, e.2 ++ [fileName], ?_, lodging'', backed'.changes hy fun _ => id, ?_,
      fun h => Bool.noConfusion h, fun _ => vacant'⟩
    · rw [Collection.size, hnone]
      exact replies
    · rw [hnone]
      exact offers_empty (writable.labels.roads hy.keepsRoads) vacant'
  | false =>
    obtain ⟨y, replies, lodging'', labels, renews, roads⟩ := import_saves command hsetUp lodging' goes
      found' hread (offers_empty writable.labels vacant) writable (written.merge_empty _)
      ((isEmpty_asWritten _).trans hsome) written.text_asWritten written.encoded
    have kept : Kept ⟨s.collection, target.child fileName⟩ := ⟨written.kept.nodup, written.kept.described⟩
    obtain ⟨m, offers⟩ := offers_of_labels labels written.written written.encoded kept written.whole
    refine ⟨y, m, size_asWritten s.collection ▸ replies, lodging'', ?_, offers, fun _ => labels,
      fun h => Bool.noConfusion h⟩
    exact backed'.renews hsome renews roads vacant writable.vacant

/-- Importing a backup into the directory that it comes from. -/
theorem restores_own (written : Written s directory text octets)
    (lodging : Lodging settings.log.directory L v)
    (backed : Backed L v directory (.ofText t) s octets l f) (later : v.Later x)
    (command : i.command = .importFile (some (.string t)))
    (found : (directoryFor i.directory (some settings)).run x = (.ok directory, x))
    (writable : x.Writable directory e) (hsome : s.collection.isEmpty = false) :
    ∃ y, Replies (i.runWith settings) (importReply s.collection.size) x y ∧
      y.HasLabels directory octets ∧ Holding L y (.ofText t) octets f := by
  obtain ⟨u, hsetUp, hchanges, goes, lodging', homes, hnow⟩ := setUp_later lodging later
  have found' := (homely_directoryFor i.directory (some settings)).after found homes
  obtain ⟨offers, holding, apart⟩ :=
    (backed.changes later.changes fun _ => False.elim).changes hchanges fun _ => id
  have writable' := writable.changes hchanges hnow
  obtain ⟨y, replies, -, labels, renews, roads⟩ := import_saves command hsetUp lodging' goes found'
    (written.contents holding) offers writable' written.merge_self
    ((isEmpty_asWritten _).trans hsome) written.text_asWritten written.encoded
  refine ⟨y, size_asWritten s.collection ▸ replies, labels, holding.renews renews roads ?_ ?_⟩
  · rintro rfl
    have hplace := writable'.labels.locate_of_no_link holding.holds.plain.ne_link .target
    exact apart (Except.ok.inj (offers.leads.symm.trans hplace))
  · rintro (hlog | htemporary)
    · exact holding.unlogged hlog
    · exact holding.ne_of_vacant writable'.vacant htemporary

/-- Two directories with the same records, as they are and as they were written, have the same lists. -/
theorem lists_alike {j : Invocation} {kind : Argument} {p : Path}
    (lodging : Lodging settings.log.directory L v) (offers : Offers L v directory s l)
    (offers' : Offers L v target ⟨⟨s.collection.records.map Record.asWritten⟩, p⟩ m)
    (later : v.Later x) (command : i.command = .list kind)
    (found : (directoryFor i.directory (some settings)).run x = (.ok directory, x))
    (command' : j.command = .list kind)
    (found' : (directoryFor j.directory (some settings)).run x = (.ok target, x)) :
    ∃ y z, Replies (i.runWith settings) (listReply s.collection kind) x y ∧
      Replies (j.runWith settings) (listReply s.collection kind) x z := by
  obtain ⟨u, hsetUp, hchanges, goes, -, homes, -⟩ := setUp_later lodging later
  have hopens : ∀ {directory : Path} {s : Store} {l : Location}, Offers L v directory s l →
      ∃ y, (openIn directory).run u = (.ok s, y) := by
    intro directory s l offers
    have offers' := (offers.changes later.changes id).changes hchanges offers.unlogged
    obtain ⟨y, hopen, -⟩ := offers'.run_openIn goes
    exact ⟨y, hopen⟩
  obtain ⟨y, hopen⟩ := hopens offers
  obtain ⟨y', hopen'⟩ := hopens offers'
  obtain ⟨z, hz⟩ := list_replies command hsetUp ((homely_directoryFor _ _).after found homes) hopen
  obtain ⟨z', hz'⟩ :=
    list_replies command' hsetUp ((homely_directoryFor _ _).after found' homes) hopen'
  rw [listReply_asWritten] at hz'
  exact ⟨z, z', hz, hz'⟩

/-- What has been exported can be imported. In an empty directory the import counts the records and makes
a label file with the octets of the export, or none if there are no records; afterwards the lists of the
two directories, or those of a kind, are the same. In the directory that was exported the import leaves
a label file with the octets of the export, if there are records. There is room for the log of the first
process: a link or a moved directory there could lead the log to the labels or the export, see
`Log.Ground`. -/
theorem export_import {exporting importing : List Text} {o : World}
    (fresh : Log.Fresh w) (room : Log.Room settings.log.directory w)
    (exports : Carries exporting w settings directory (.exportFile (some (.string t))))
    (aside : Aside settings w directory (.ofText t) l f)
    (hrun : (run exporting).run w = (.ok 0, v))
    (hopen : (openIn directory).run (settings.prepared w) = (.ok s, o))
    (whole : ∀ r ∈ s.collection.records, r.hasBreak = false)
    (finite : ∀ r ∈ s.collection.records, ∀ n ∈ Json.entryFloats r.extras, n.isFinite = true)
    (later : v.Later x)
    (imports : Carries importing x settings target (.importFile (some (.string t))))
    (empty : x.Empty target e) :
    ∃ octets y, v.read (.ofText t) = .ok octets ∧
      Replies (run importing) (importReply s.collection.size) x y ∧ y.read (.ofText t) = .ok octets ∧
      (s.collection.isEmpty = false → y.read (target.child fileName) = .ok octets) ∧
      (s.collection.isEmpty = true → y.tree.get? (e.2 ++ [fileName]) = none) ∧
      (∀ z listing listing' kind, y.Later z → Carries listing z settings directory (.list kind) →
        Carries listing' z settings target (.list kind) →
        ∃ a b, Replies (run listing) (listReply s.collection kind) z a ∧
          Replies (run listing') (listReply s.collection kind) z b) ∧
      ∀ z importing' k, v.Later z ∨ y.Later z →
        Carries importing' z settings directory (.importFile (some (.string t))) →
        z.Writable directory k → s.collection.isEmpty = false →
        ∃ a, Replies (run importing') (importReply s.collection.size) z a ∧
          a.read (directory.child fileName) = .ok octets ∧ a.read (.ofText t) = .ok octets := by
  obtain ⟨i, hexport, finds, found, command⟩ := exports
  rw [finds.run_args hexport] at hrun
  obtain ⟨L, s', _, text, octets, hopen', kept, path, htext, hencode, lodging, backed⟩ :=
    runWith_export ⟨fresh, finds, room, found⟩ command aside hrun
  obtain rfl := Except.ok.inj (Prod.mk.inj (hopen'.symm.trans hopen)).1
  have written : Written s' directory text octets := by
    exact ⟨path, kept, htext, hencode, fun r hr => Record.hasBreak_asWritten (whole r hr),
      fun r hr => Record.settled_of_finite (finite r hr)⟩
  obtain ⟨j, himport, finds', found', command'⟩ := imports
  obtain ⟨y, m, replies, lodging', backed', offers, hsome, hnone⟩ :=
    restores written lodging backed later command' found' empty
  refine ⟨octets, y, backed.holding.read, replies.of_run (finds'.run_args himport),
    backed'.holding.read, fun h => (hsome h).read, hnone, ?_, ?_⟩
  · rintro z listing listing' kind later' ⟨i₁, h₁, finds₁, found₁, command₁⟩
      ⟨i₂, h₂, finds₂, found₂, command₂⟩
    obtain ⟨a, b, ha, hb⟩ := lists_alike lodging' backed'.offers offers later' command₁ found₁ command₂
      found₂
    exact ⟨a, b, ha.of_run (finds₁.run_args h₁), hb.of_run (finds₂.run_args h₂)⟩
  · rintro z importing' k later' ⟨i₁, h₁, finds₁, found₁, command₁⟩ writable hrecords
    have hown : ∃ a, Replies (i₁.runWith settings) (importReply s'.collection.size) z a ∧
        a.HasLabels directory octets ∧ Holding L a (.ofText t) octets f := by
      rcases later' with later' | later'
      · exact restores_own written lodging backed later' command₁ found₁ writable hrecords
      · exact restores_own written lodging' backed' later' command₁ found₁ writable hrecords
    obtain ⟨a, ha, labels, holding⟩ := hown
    exact ⟨a, ha.of_run (finds₁.run_args h₁), labels.read, holding.read⟩

/-- A command line that exports the labels of a directory to a file beside it. -/
def houseExport : List Text := ["--data-dir", "d", "export", "f"]

/-- A command line that imports them into a directory. -/
def houseImport (directory : Text) : List Text := ["--data-dir", directory, "import", "f"]

/-- A command line that lists the labels of a directory. -/
def houseList (directory : Text) : List Text := ["--data-dir", directory, "list"]

/-- The record of the label. -/
def houseRecord : Record := ⟨.address, "b", some "food", [], rfl⟩

set_option maxRecDepth 20000 in
theorem housedWorld_aside : Aside usualSettings housedWorld (.ofText "d") (.ofText "f")
    ["d", fileName] ["f"] := by
  refine ⟨⟨(Tree.maxLinks, []), "f", ⟨⟨"f", ?_⟩, ?_, ?_, ?_, ?_⟩, rfl⟩, .inl ?_, ?_, by decide, ?_⟩
  · cbv
  · cbv
  · cbv
  · exact ⟨by decide, by decide, by decide⟩
  · decide
  · cbv
  · show World.locate _ _ _ = _
    cbv
  · intro m h
    obtain ⟨n, hn, rfl⟩ := (Log.uses_iff housedWorld_log (World.locate_root housedWorld)).mp h
    have hfree : ∀ n ∈ Log.fileNames, n ≠ ("f" : Text) := by decide
    exact ⟨by simp [hfree n hn], by simp⟩

set_option maxRecDepth 20000 in
theorem open_house : ∃ o, (openIn (.ofText "d")).run (usualSettings.prepared housedWorld) =
    (.ok ⟨⟨[houseRecord]⟩, Path.child (.ofText "d") fileName⟩, o) := by
  have heval : ((openIn (.ofText "d")).run (usualSettings.prepared housedWorld)).1 =
      .ok ⟨⟨[houseRecord]⟩, Path.child (.ofText "d") fileName⟩ := by cbv
  exact ⟨_, Prod.ext heval rfl⟩

/-- The world after the export, as a later process finds it. -/
def exportedWorld : World := { ((run houseExport).run housedWorld).2 with logger := .initial }

set_option maxRecDepth 20000 in
theorem run_houseExport : ((run houseExport).run housedWorld).1 = .ok 0 ∧
    exportedWorld.here = [] ∧
    exportedWorld.tree.get? [("d" : Text)] = some .directory ∧
    exportedWorld.tree.get? [("e" : Text)] = some .directory ∧
    exportedWorld.tree.entries.map Prod.fst =
      [[("f" : Text)], [Log.jsonName], [Log.textName], ["d"], ["e"], ["d", fileName]] := by
  cbv
  exact ⟨rfl, rfl, trivial⟩

theorem exportedWorld_vacant {l : Location} (hl : l ∉ [[], [("f" : Text)], [Log.jsonName],
    [Log.textName], ["d"], ["e"], ["d", fileName]]) : exportedWorld.tree.get? l = none := by
  rcases hget : exportedWorld.tree.get? l with _ | entry
  · rfl
  · obtain ⟨hnil, hl⟩ := not_or.mp (List.mem_cons.not.mp hl)
    rw [← run_houseExport.2.2.2.2] at hl
    rcases Tree.mem_of_get? hget with ⟨rfl, -⟩ | hmem
    · exact absurd rfl hnil
    · exact absurd (List.mem_map_of_mem hmem) hl

/-- A label file has its spot in a directory there, and a temporary file beside it. -/
theorem exportedWorld_spots {n : Text} (isName : Tree.IsName n)
    (short : Tree.nameLength n ≤ Tree.maxNameLength)
    (hdirectory : exportedWorld.tree.get? [n] = some .directory)
    (labels : ∃ t, Path.handedOver ⟨.here, [n, fileName]⟩ = .ok t)
    (temporary : ∃ t, Path.handedOver ⟨.here, [n, temporaryName 0]⟩ = .ok t) :
    exportedWorld.Spot ⟨.here, [n, fileName]⟩ (Tree.maxLinks, [n]) fileName ∧
    exportedWorld.Spot ⟨.here, [n, temporaryName exportedWorld.now]⟩ (Tree.maxLinks, [n])
      (temporaryName exportedWorld.now) := by
  have here : exportedWorld.here = [] := run_houseExport.2.1
  rw [show exportedWorld.now = 0 from run_time (run houseExport) housedWorld]
  exact ⟨World.spot_inside here isName short hdirectory fileName_isName short_fileName labels,
    World.spot_inside here isName short hdirectory (temporaryName_isName 0) (by decide) temporary⟩

theorem exportedWorld_empty : exportedWorld.Empty (.ofText "e") (Tree.maxLinks, ["e"]) := by
  have hlabels : Path.handedOver ⟨.here, ["e", fileName]⟩ = .ok "e/labels.jsonl" := by cbv
  have htemporary : Path.handedOver ⟨.here, ["e", temporaryName 0]⟩ = .ok "e/.labels.jsonl.tmp.0" := by
    cbv
  obtain ⟨labels, temporary⟩ := exportedWorld_spots ⟨by decide, by decide, by decide⟩ (by decide)
    run_houseExport.2.2.2.1 ⟨_, hlabels⟩ ⟨_, htemporary⟩
  have hne : ("e" : Text) ≠ "d" := by decide
  exact ⟨labels, temporary, fun n => exportedWorld_vacant (by simp [hne])⟩

theorem exportedWorld_writable : exportedWorld.Writable (.ofText "d") (Tree.maxLinks, ["d"]) := by
  have hlabels : Path.handedOver ⟨.here, ["d", fileName]⟩ = .ok "d/labels.jsonl" := by cbv
  have htemporary : Path.handedOver ⟨.here, ["d", temporaryName 0]⟩ = .ok "d/.labels.jsonl.tmp.0" := by
    cbv
  obtain ⟨labels, temporary⟩ := exportedWorld_spots ⟨by decide, by decide, by decide⟩ (by decide)
    run_houseExport.2.2.1 ⟨_, hlabels⟩ ⟨_, htemporary⟩
  exact ⟨labels, temporary, exportedWorld_vacant (by simp [temporaryName_ne])⟩

theorem houseCarries {args : List Text} {w : World} {directory : Text} {c : Command}
    (hdemand : demand args = .run ⟨none, some directory, c⟩) (same : housedWorld.SameHomes w)
    (hdirectory : (directoryFor (some directory) (some usualSettings)).run housedWorld =
      (.ok (.ofText directory), housedWorld)) :
    Carries args w usualSettings (.ofText directory) c := by
  have hsettings : Settings.default.run housedWorld = (.ok usualSettings, housedWorld) := by cbv
  exact ⟨_, hdemand, .usual (fun _ _ h => by cases h) (Settings.homely_default.after hsettings same),
    (homely_directoryFor _ _).after hdirectory same, rfl⟩

set_option maxRecDepth 20000 in
/-- A label that was exported is imported into the other directory, is listed there, and is imported where
it comes from. -/
theorem export_import_housed : ∃ octets y z a b, exportedWorld.read (.ofText "f") = .ok octets ∧
    Replies (run (houseImport "e")) ⟨0, "imported 1 labels\n", []⟩ exportedWorld y ∧
    y.read (Path.child (.ofText "e") fileName) = .ok octets ∧
    Replies (run (houseList "d")) ⟨0, "addr\tb\tfood\n", []⟩ { y with logger := .initial } a ∧
    Replies (run (houseList "e")) ⟨0, "addr\tb\tfood\n", []⟩ { y with logger := .initial } b ∧
    Replies (run (houseImport "d")) ⟨0, "imported 1 labels\n", []⟩ exportedWorld z ∧
    z.read (Path.child (.ofText "d") fileName) = .ok octets := by
  obtain ⟨o, hopen⟩ := open_house
  have hhere : (directoryFor (some "d") (some usualSettings)).run housedWorld =
      (.ok (.ofText "d"), housedWorld) := by cbv
  have hthere : (directoryFor (some "e") (some usualSettings)).run housedWorld =
      (.ok (.ofText "e"), housedWorld) := by cbv
  have homes : housedWorld.SameHomes exportedWorld :=
    (run_sameHomes (run houseExport) housedWorld).trans ⟨rfl, rfl, rfl⟩
  have himport : importReply 1 = ⟨0, "imported 1 labels\n", []⟩ := by cbv
  have hlist : listReply ⟨[houseRecord]⟩ none = ⟨0, "addr\tb\tfood\n", []⟩ := by cbv
  have exports : Carries houseExport housedWorld usualSettings (.ofText "d")
      (.exportFile (some (.string "f"))) := houseCarries (by cbv) (.refl housedWorld) hhere
  have imports : Carries (houseImport "e") exportedWorld usualSettings (.ofText "e")
      (.importFile (some (.string "f"))) := houseCarries (by cbv) homes hthere
  have later : World.Later ((run houseExport).run housedWorld).2 exportedWorld :=
    ⟨rfl, rfl, ⟨rfl, rfl, rfl⟩, rfl⟩
  obtain ⟨octets, y, hread, hy, -, hsome, -, hlists, hown⟩ := export_import housedWorld_fresh
    housedWorld_room exports housedWorld_aside (Prod.ext run_houseExport.1 rfl) hopen
    (List.forall_mem_singleton.mpr (by decide))
    (List.forall_mem_singleton.mpr fun _ h => absurd h List.not_mem_nil)
    later imports exportedWorld_empty
  have homes' : housedWorld.SameHomes { y with logger := .initial } := by
    exact homes.trans ((sameHomes_of_run hy.run).trans ⟨rfl, rfl, rfl⟩)
  obtain ⟨a, b, ha, hb⟩ := hlists { y with logger := .initial } (houseList "d") (houseList "e") none
    ⟨rfl, rfl, ⟨rfl, rfl, rfl⟩, rfl⟩ (houseCarries (by cbv) homes' hhere)
    (houseCarries (by cbv) homes' hthere)
  obtain ⟨z, hz, hback, -⟩ := hown exportedWorld (houseImport "d") (Tree.maxLinks, ["d"])
    (.inl later)
    (houseCarries (c := .importFile (some (.string "f"))) (by cbv) homes hhere)
    exportedWorld_writable rfl
  exact ⟨octets, y, z, a, b, hread, himport ▸ hy, hsome rfl, hlist ▸ ha, hlist ▸ hb, himport ▸ hz,
    hback⟩

end CommandLine

end LabelBook
