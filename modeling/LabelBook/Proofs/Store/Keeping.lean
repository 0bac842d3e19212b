import LabelBook.Proofs.Store.Replacing

/-!
The label file from one process to the next. Opening a store touches nothing but the log and tells that
no directory stands at its path; saving it puts a file with its octets there; and where such a file
stands the store is opened as it was written, if no string in it has a break.
-/

namespace LabelBook

open Log (At GoesTo Keeps)

variable {L : Location} {w v : World} {may : Location → Prop} {directory : Path} {octets : Octets}
  {l : Location} {d : Nat × Location}

/-- A world in which a file with some octets stands at the path of the labels of a directory. -/
def World.HasLabels (w : World) (directory : Path) (octets : Octets) : Prop :=
  ∃ d, w.Spot (directory.child Store.fileName) d Store.fileName ∧
    w.tree.Holds (d.2 ++ [Store.fileName]) octets

theorem World.Spot.species_vacant {p : Path} {name : Text} (spot : w.Spot p d name)
    (vacant : w.tree.get? (d.2 ++ [name]) = none) :
    w.species p = .error (.system .notFound p.text none) := by
  have hl := spot.locate_of_no_link (fun target => by rw [vacant]; simp) .target
  rw [World.species_of_locate hl, Tree.species, vacant]
  rfl

/-- A world in which the store of a directory can be saved: the path of its file and that of the temporary
file lead into the directory, and nothing stands at the latter. -/
structure World.Writable (w : World) (directory : Path) (d : Nat × Location) : Prop where
  labels : w.Spot (directory.child Store.fileName) d Store.fileName
  temporary : w.Spot (directory.child (Store.temporaryName w.now)) d (Store.temporaryName w.now)
  vacant : w.tree.get? (d.2 ++ [Store.temporaryName w.now]) = none

namespace World

theorem Writable.changes (writable : w.Writable directory d) (h : w.Changes (At L) v)
    (hnow : v.now = w.now) : v.Writable directory d := by
  obtain ⟨labels, temporary, vacant⟩ := writable
  refine ⟨labels.roads h.keepsRoads, ?_, ?_⟩ <;> rw [hnow]
  · exact temporary.roads h.keepsRoads
  · rw [h.tree.same _ (Store.temporaryName_apart d.2 w.now)]
    exact vacant

theorem HasLabels.read (h : w.HasLabels directory octets) :
    w.read (directory.child Store.fileName) = .ok octets :=
  let ⟨_, spot, holds⟩ := h
  Store.read_spot spot holds

theorem HasLabels.changes (h : w.HasLabels directory octets) (hv : w.Changes may v)
    (hfree : ∀ k, ¬ may (k ++ [Store.fileName])) : v.HasLabels directory octets := by
  obtain ⟨d, spot, holds⟩ := h
  refine ⟨d, spot.roads hv.keepsRoads, ?_⟩
  rwa [Tree.Holds, hv.tree.same _ (hfree d.2)]

end World

namespace Store

variable {s : Store} {c : Collection} {t : Text}

theorem fileName_unlogged (k : Location) : ¬ At L (k ++ [fileName]) := (fileName_apart k).1

/-- What a store was opened on is no directory, and only events have been logged. -/
theorem openIn_ok (goes : GoesTo L w) (h : (openIn directory).run w = (.ok s, v)) :
    Keeps L (At L) w v ∧ s.path = directory.child fileName ∧ s.Kept ∧
      (∃ t, (directory.child fileName).handedOver = .ok t) ∧
      ∀ d, v.Spot (directory.child fileName) d fileName → v.tree.Blind (d.2 ++ [fileName]) := by
  obtain ⟨u, v', -, told, told', hrun⟩ := run_openIn_tells w directory
  obtain ⟨hopened, rfl⟩ := Prod.mk.inj (hrun.symm.trans h)
  have hu := told.keeps goes fun _ => id
  have hv := told'.keeps (hu.goes goes) fun _ => id
  have hplace := opened_fileOrNothing hopened
  refine ⟨trans_of _ hu hv, congrArg Store.path (openIn_loaded h), openIn_kept h,
    ⟨_, hplace.handedOver⟩, fun d spot => ?_⟩
  have spot' := spot.roads hv.toChanges.keepsRoads_back
  exact (spot'.blind (hu.goes goes).home.orderly.sound hplace).sameWays hv.tree.ways

/-- A store with records that has been saved is in its file, and all ways to directories lead there
still. -/
theorem save_replaced (goes : GoesTo L w) (hs : s.path = directory.child fileName)
    (blind : ∀ d, w.Spot s.path d fileName → w.tree.Blind (d.2 ++ [fileName]))
    (noLink : w.NoLinkAt directory (temporaryName w.now)) (hsome : s.collection.isEmpty = false)
    (h : s.save.run w = (.ok (), v)) :
    (∃ t octets, s.collection.text = .ok t ∧ Utf8.encode t = .ok octets ∧
      v.HasLabels directory octets) ∧ w.KeepsRoads v ∧ GoesTo L v := by
  have hlead : w.LeadsInto (Passing L) (temporaryFor s.path w.now) := by
    rw [hs]
    exact (leadsInto_temporary noLink).mono fun _ => .inr
  rcases save_ok goes hs (fun _ => .inl) passing_apart hlead h with
    ⟨hnothing, -⟩ | ⟨-, t, octets, d, htext, hencode, spot, renews, hgoes⟩
  · rw [hasNothingToSave, hsome] at hnothing
    cases hnothing
  · have roads := renews.keepsRoads (blind d spot)
    refine ⟨⟨t, octets, htext, hencode, d, ?_, renews.file⟩, roads, hgoes⟩
    rw [← hs]
    exact spot.roads roads

/-! ### Saving where there is room -/

/-- A collection with octets takes the place of the file of a store. -/
theorem run_replaceFile_written {now : Int} (orderly : w.Orderly)
    (hs : s.path = directory.child fileName)
    (labels : w.Spot (directory.child fileName) d fileName)
    (temporary : w.Spot (directory.child (temporaryName now)) d (temporaryName now))
    (vacant : w.tree.get? (d.2 ++ [temporaryName now]) = none)
    (hfree : w.tree.get? (d.2 ++ [fileName]) ≠ some .directory)
    (htext : s.collection.text = .ok t) (hencode : Utf8.encode t = .ok octets) :
    ∃ v, (s.replaceFile (directory.child (temporaryName now))).run w = (.ok (), v) := by
  have hl := temporary.locate_of_no_link (fun target => by rw [vacant]; simp) .writing
  obtain ⟨x, hwrite⟩ :=
    LabelFile.run_write_into orderly htext hencode hl (by rw [vacant]; simp)
  obtain ⟨_, _, l, number, -, -, hl', hfile, hx⟩ := LabelFile.write_ok orderly hwrite
  obtain rfl := Except.ok.inj (hl.symm.trans hl')
  have roads := hx.toChanges.keepsRoads
  have hfree' : x.tree.get? (d.2 ++ [fileName]) ≠ some .directory := by
    rw [Ne, hx.tree.ways.directory_iff]
    exact hfree
  obtain ⟨tree, hrename, -⟩ := (temporary.roads roads).run_rename (labels.roads roads)
    (orderly.changes hx.toChanges).sound (temporaryName_ne now) hfile hfree'
  exact ⟨_, run_replaceFile_moved hwrite (hs ▸ hrename)⟩

/-- A store with records and octets is saved where there is room. -/
theorem run_save_written (goes : GoesTo L w) (hs : s.path = directory.child fileName)
    (writable : w.Writable directory d)
    (hfree : w.tree.get? (d.2 ++ [fileName]) ≠ some .directory)
    (hsome : s.collection.isEmpty = false) (htext : s.collection.text = .ok t)
    (hencode : Utf8.encode t = .ok octets) : ∃ v, s.save.run w = (.ok (), v) := by
  rw [save, Program.run_bind_ok (run_hasNothingToSave_records hsome), if_neg (by simp), hs,
    lacksParent_child, if_neg (by simp), Program.run_bind_ok Program.run_now]
  dsimp only
  rw [temporaryFor_child]
  obtain ⟨x, hlog, hx⟩ := goes.keeps_log (fun _ => id) .debug (Text.concat
    ["Atomically saving labels to ", (directory.child fileName).text, " via temporary file ",
      (directory.child (temporaryName w.now)).text])
  have hnow := Program.now_of_run hlog
  obtain ⟨labels, temporary, vacant⟩ := writable.changes hx.toChanges hnow
  rw [hnow] at temporary vacant
  have hfree' : x.tree.get? (d.2 ++ [fileName]) ≠ some .directory := by
    rw [Ne, hx.tree.ways.directory_iff]
    exact hfree
  obtain ⟨y, hreplace⟩ := run_replaceFile_written (hx.goes goes).home.orderly hs labels temporary
    vacant hfree' htext hencode
  rw [Program.run_bind_ok hlog, Program.run_bind_ok hreplace]
  exact Program.run_logEvent_ok _ y

/-- The places that saving in a directory touches besides that of the file of the store. -/
def Beside (L : Location) (d : Nat × Location) (now : Int) (m : Location) : Prop :=
  At L m ∨ m = d.2 ++ [temporaryName now]

theorem beside_apart (now : Int) (k : Location) : ¬ Beside L d now (k ++ [fileName]) := by
  rintro (hlog | heq)
  · exact fileName_unlogged k hlog
  · exact temporaryName_ne now (List.singleton_inj.mp (List.append_inj' heq rfl).2).symm

/-- What saving there leaves: the file of the store, the log and nothing else that is new. -/
theorem renews_of_save (goes : GoesTo L w) (hs : s.path = directory.child fileName)
    (writable : w.Writable directory d) (hsome : s.collection.isEmpty = false)
    (htext : s.collection.text = .ok t) (hencode : Utf8.encode t = .ok octets)
    (h : s.save.run w = (.ok (), v)) :
    Renews (Beside L d w.now) (d.2 ++ [fileName]) octets w v ∧ GoesTo L v := by
  have hlead : w.LeadsInto (Beside L d w.now) (temporaryFor s.path w.now) := by
    rw [hs, temporaryFor_child]
    intro aim l hl
    have hplace := writable.temporary.locate_of_no_link
      (fun target => by rw [writable.vacant]; simp) aim
    obtain rfl := Except.ok.inj (hplace.symm.trans hl)
    exact ⟨.inr rfl, fun target => by rw [writable.vacant]; simp⟩
  rcases save_ok goes hs (fun _ => .inl) (beside_apart w.now) hlead h with
    ⟨hnothing, -⟩ | ⟨-, t', octets', e, htext', hencode', spot, renews, hgoes⟩
  · rw [run_hasNothingToSave_records hsome] at hnothing
    cases hnothing
  · rw [hs] at spot
    obtain rfl := Except.ok.inj (htext.symm.trans htext')
    obtain rfl := Except.ok.inj (hencode.symm.trans hencode')
    obtain rfl := writable.labels.unique spot
    exact ⟨renews, hgoes⟩

/-! ### Stores that are there -/

/-- A world in which a store is to be opened in a directory, from a place that the log does not touch. -/
structure Offers (L : Location) (w : World) (directory : Path) (s : Store) (l : Location) : Prop where
  leads : w.locate .target (directory.child fileName) = .ok l
  unlogged : ¬ At L l
  opened : opened w (directory.child fileName) = .ok s

theorem Offers.changes (offers : Offers L w directory s l) (h : w.Changes may v) (hl : ¬ may l) :
    Offers L v directory s l := by
  obtain ⟨leads, unlogged, hopened⟩ := offers
  exact ⟨h.locate_iff.mpr leads, unlogged, (opened_of_changes h leads hl).trans hopened⟩

theorem Offers.run_openIn (offers : Offers L w directory s l) (goes : GoesTo L w) :
    ∃ v, (openIn directory).run w = (.ok s, v) ∧ Keeps L (At L) w v := by
  obtain ⟨u, v, -, told, told', hrun⟩ := run_openIn_tells w directory
  have hu := told.keeps goes fun _ => id
  have hopened := (offers.changes hu.toChanges offers.unlogged).opened
  exact ⟨v, hopened ▸ hrun, (told.trans told').keeps goes fun _ => id⟩

/-- A store that could be opened was offered. -/
theorem offers_of_openIn (goes : GoesTo L w) (h : (openIn directory).run w = (.ok s, v))
    (hl : w.locate .target (directory.child fileName) = .ok l) (unlogged : ¬ At L l) :
    Offers L w directory s l := by
  obtain ⟨u, _, -, told, -, hrun⟩ := run_openIn_tells w directory
  have hu := told.keeps goes fun _ => id
  have hopened := (Prod.mk.inj (hrun.symm.trans h)).1
  exact ⟨hl, unlogged, (opened_of_changes hu.toChanges hl unlogged).symm.trans hopened⟩

/-- A store with records is offered from a file. -/
theorem Offers.file (offers : Offers L w directory s l) (hsome : s.collection.isEmpty = false) :
    ∃ number content, w.tree.get? l = some (.file number content) := by
  have hopened := offers.opened
  unfold Store.opened at hopened
  split at hopened
  · next c hc =>
    obtain ⟨octets, hread, -⟩ := LabelFile.contents_ok hc
    rw [World.read_of_locate offers.leads, Tree.read] at hread
    split at hread
    · next number content hfile => exact ⟨number, content, hfile⟩
    · cases hread
    · cases hread
    · cases hread
  · rw [← Except.ok.inj hopened] at hsome
    cases hsome
  · cases hopened

/-- A file that comes to stand where nothing stood does not concern a store that is offered from another
place. -/
theorem Offers.renews {m : Location} (offers : Offers L w directory s l)
    (h : Renews may m octets w v) (vacant : w.tree.get? m = none) (hm : l ≠ m) (hl : ¬ may l) :
    Offers L v directory s l := by
  have hways : w.tree.SameWays v.tree := by
    intro k
    by_cases hk : k = m
    · subst hk
      exact .inr ⟨.inl vacant, h.file.plain⟩
    · exact (h.others k hk).imp_right And.right
  have hsame := (h.others l hm).resolve_right fun hmay => hl hmay.1
  have leads := World.locate_ways hways h.here offers.leads
  have hread : v.read (directory.child fileName) = w.read (directory.child fileName) := by
    rw [World.read_of_locate leads, World.read_of_locate offers.leads, Tree.read, Tree.read, hsame]
  refine ⟨leads, offers.unlogged, ?_⟩
  rw [← offers.opened]
  unfold Store.opened LabelFile.contents
  rw [hread]

/-- A store is offered as it was written. -/
theorem offers_of_labels (labels : w.HasLabels directory octets) (htext : c.text = .ok t)
    (hencode : Utf8.encode t = .ok octets) (kept : Kept ⟨c, directory.child fileName⟩)
    (whole : ∀ r ∈ c.records, r.asWritten.hasBreak = false) :
    ∃ l, Offers L w directory ⟨⟨c.records.map Record.asWritten⟩, directory.child fileName⟩ l := by
  have hread := labels.read
  obtain ⟨e, spot, holds⟩ := labels
  refine ⟨_, spot.locate_of_no_link holds.plain.ne_link .target, fileName_unlogged e.2, ?_⟩
  rcases opened_of_text htext kept hencode hread with
    ⟨-, hopened⟩ | ⟨before, r, after, _, hrecords, -, hr, -⟩
  · exact hopened
  · rw [whole r (by rw [hrecords]; simp)] at hr
    cases hr

/-- Where nothing stands at the spot of the file an empty store is offered. -/
theorem offers_empty (spot : w.Spot (directory.child fileName) d fileName)
    (vacant : w.tree.get? (d.2 ++ [fileName]) = none) :
    Offers L w directory ⟨.empty, directory.child fileName⟩ (d.2 ++ [fileName]) := by
  have hl := spot.locate_of_no_link (fun target => by rw [vacant]; simp) .target
  exact ⟨hl, fileName_unlogged d.2, opened_missing (spot.species_vacant vacant)⟩

/-- An empty store is not saved where there is no file. -/
theorem run_save_nothing (goes : GoesTo L w) (hs : s.path = directory.child fileName)
    (spot : w.Spot (directory.child fileName) d fileName)
    (vacant : w.tree.get? (d.2 ++ [fileName]) = none) (hnone : s.collection.isEmpty = true) :
    ∃ v, s.save.run w = (.ok (), v) ∧ Keeps L (At L) w v := by
  obtain ⟨t, hhanded⟩ := spot.handedOver
  have hspecies := spot.species_vacant vacant
  have hnowhere : w.LeadsNowhere (directory.child fileName) := fun kind => by rw [hspecies]; simp
  rw [← hs] at hhanded hspecies hnowhere
  rcases run_hasNothingToSave_nowhere hnone hhanded hnowhere with ⟨hnothing, -⟩ | ⟨-, hlong⟩
  · rw [save, Program.run_bind_ok hnothing]
    exact goes.keeps_log (fun _ => id) _ _
  · cases hspecies.symm.trans hlong

/-- A store is opened from its file with the records as they were written. -/
theorem run_openIn_labels (goes : GoesTo L w) (labels : w.HasLabels directory octets)
    (htext : c.text = .ok t) (hencode : Utf8.encode t = .ok octets)
    (kept : Kept ⟨c, directory.child fileName⟩)
    (whole : ∀ r ∈ c.records, r.asWritten.hasBreak = false) :
    ∃ v, (openIn directory).run w =
      (.ok ⟨⟨c.records.map Record.asWritten⟩, directory.child fileName⟩, v) :=
  have ⟨_, offers⟩ := offers_of_labels labels htext hencode kept whole
  have ⟨v, hopen, _⟩ := offers.run_openIn goes
  ⟨v, hopen⟩

end Store

end LabelBook
