import LabelBook.Proofs.Json.Writable
import LabelBook.Proofs.Rewriting
import LabelBook.Proofs.Store.Dictionary

/-!
Saving what was loaded. A record that was read from a line can be written again if its strings are
well-formed and its further entries do not have too many levels; nothing else that a line can hold
stands in the way. So a store that has just been opened in a directory is saved exactly if all of its
records are such, unless it has nothing to save, or there is no room for the name of a temporary file.
-/

namespace LabelBook

namespace Record

variable {r : Record} {es fs : Entries}

/-- A record that a file can hold: its strings are well-formed, and no further entry that is kept has too
many levels. -/
structure Savable (r : Record) : Prop where
  wellFormed : ∀ s ∈ r.strings, s.isWellFormed = true
  levels : ∀ e ∈ r.extras, e.2.isNull = false → e.2.levels ≤ Json.maxWrittenLevels

/-! ### Further entries -/

theorem levels_of_writtenExtras (h : writtenExtras es = .ok fs) :
    ∀ e ∈ es, e.2.isNull = false → e.2.levels ≤ Json.maxWrittenLevels := by
  induction es generalizing fs with
  | nil => exact fun e he => absurd he List.not_mem_nil
  | cons e es ih =>
    obtain ⟨k, v⟩ := e
    cases hv : v.isNull with
    | true =>
      obtain rfl := eq_null_of_isNull hv
      exact List.forall_mem_cons.mpr ⟨(fun hnull => by cases hnull), ih h⟩
    | false =>
      obtain ⟨w, gs, hw, hgs, -⟩ := writtenExtras_cons hv h
      exact List.forall_mem_cons.mpr ⟨fun _ => Json.levels_of_writable hw, ih hgs⟩

theorem writtenExtras_of_levels
    (levels : ∀ e ∈ es, e.2.isNull = false → e.2.levels ≤ Json.maxWrittenLevels)
    (wellFormed : ∀ s ∈ Json.entryStrings es, s.isWellFormed = true) :
    ∃ fs, writtenExtras es = .ok fs := by
  induction es with
  | nil => exact ⟨[], rfl⟩
  | cons e es ih =>
    obtain ⟨k, v⟩ := e
    obtain ⟨hlevels, hrest⟩ := List.forall_mem_cons.mp levels
    obtain ⟨fs, hfs⟩ := ih hrest fun s hs =>
      wellFormed s (List.mem_cons_of_mem k (List.mem_append_right _ hs))
    cases hv : v.isNull with
    | true =>
      obtain rfl := eq_null_of_isNull hv
      exact ⟨fs, hfs⟩
    | false =>
      have hw := Json.writable_of_levels (hlevels hv) fun s hs =>
        wellFormed s (List.mem_cons_of_mem k (List.mem_append_left _ hs))
      refine ⟨(k, v.spelled) :: fs, ?_⟩
      rw [writtenExtras, hw, hfs]
      · rfl
      · rintro rfl
        cases hv

/-- Entries that are left out hold no string but their keys. -/
theorem entryStrings_filter (hkeys : ∀ e ∈ es, e.1.isWellFormed = true) :
    (Json.entryStrings (es.filter fun e => !e.2.isNull)).all Text.isWellFormed =
      (Json.entryStrings es).all Text.isWellFormed := by
  induction es with
  | nil => rfl
  | cons e es ih =>
    obtain ⟨k, v⟩ := e
    obtain ⟨hk, hrest⟩ := List.forall_mem_cons.mp hkeys
    rw [Json.entryStrings, List.all_cons, List.all_append, ← ih hrest]
    cases hv : v.isNull with
    | true =>
      obtain rfl := eq_null_of_isNull hv
      rw [List.filter_cons_of_neg (by simp [Json.isNull]), hk]
      rfl
    | false =>
      rw [List.filter_cons_of_pos (by simp [hv]), Json.entryStrings, List.all_cons, List.all_append]

theorem entriesHoldLongInt_filter (h : Json.entriesHoldLongInt es = false) :
    Json.entriesHoldLongInt (es.filter fun e => !e.2.isNull) = false :=
  Json.entriesHoldLongInt_eq_false.mpr fun e he =>
    Json.entriesHoldLongInt_eq_false.mp h e (List.mem_of_mem_filter he)

/-! ### Lines -/

/-- The strings in the line of a record are well-formed if those in the record are. -/
theorem isWellFormed_writtenObject (regular : r.Regular) :
    (Json.strings r.writtenObject).all Text.isWellFormed = r.strings.all Text.isWellFormed := by
  have hextras : (Json.entryStrings r.keptExtras).all Text.isWellFormed =
      (Json.entryStrings r.extras).all Text.isWellFormed := by
    rw [keptExtras, Json.entryStrings_spelled, entryStrings_filter regular.wellFormed]
  rw [writtenObject, Json.strings, Json.entryStrings_append, List.all_append, hextras]
  obtain ⟨body, ref, label, extras, sound⟩ := r
  rcases body with ⟨_ | origin⟩ | _ | _ | _ | spendable | _ <;> cases label <;>
    simp [fieldEntries, labelEntries, bodyEntries, Json.entryStrings, Json.strings, strings,
      bodyStrings, Text.ofString, Text.isWellFormed, CodePoint.isLone, kind, Body.kind, Kind.name,
      Bool.and_assoc]

/-- The integers in the fields of a record are none. -/
theorem fieldEntries_short (r : Record) : Json.entriesHoldLongInt r.fieldEntries = false := by
  obtain ⟨body, ref, label, extras, sound⟩ := r
  rcases body with ⟨_ | origin⟩ | _ | _ | _ | spendable | _ <;> cases label <;> rfl

/-- A record whose integers are not too long has a line that can be encoded exactly if a file can hold
it. -/
theorem encoded_iff (regular : r.Regular) (short : Json.entriesHoldLongInt r.extras = false) :
    (∃ t octets, r.line = .ok t ∧ Utf8.encode t = .ok octets) ↔ r.Savable := by
  constructor
  · rintro ⟨t, octets, hline, hencode⟩
    obtain ⟨rfl, -⟩ := line_ok hline regular
    have hwell := Utf8.encode_ok_iff.mp ⟨octets, hencode⟩
    rw [Text.isWellFormed_append, Bool.and_eq_true, Json.isWellFormed_print,
      isWellFormed_writtenObject regular] at hwell
    refine ⟨List.all_eq_true.mp hwell.1, ?_⟩
    unfold line written at hline
    cases hextras : writtenExtras r.extras with
    | error e => rw [hextras] at hline; cases hline
    | ok fs => exact levels_of_writtenExtras hextras
  · rintro ⟨wellFormed, levels⟩
    obtain ⟨fs, hfs⟩ := writtenExtras_of_levels levels fun s hs =>
      wellFormed s (List.mem_cons_of_mem _ (List.mem_append_right _ hs))
    obtain rfl : fs = r.keptExtras := writtenExtras_eq hfs
    have hlong : Json.entriesHoldLongInt (r.fieldEntries ++ r.keptExtras) = false := by
      rw [Json.entriesHoldLongInt_append, fieldEntries_short, keptExtras,
        Json.entriesHoldLongInt_spelled, entriesHoldLongInt_filter short]
      rfl
    have hline : r.line = .ok (r.writtenObject.print false ++ [.scalar '\n']) := by
      rw [line, written, hfs]
      simp only [Except.map, hlong]
      rfl
    have hwell : Text.isWellFormed (r.writtenObject.print false ++ [.scalar '\n']) = true := by
      rw [Text.isWellFormed_append, Json.isWellFormed_print, isWellFormed_writtenObject regular,
        List.all_eq_true.mpr wellFormed]
      rfl
    obtain ⟨octets, hoctets⟩ := Utf8.encode_ok_iff.mpr hwell
    exact ⟨_, octets, hline, hoctets⟩

/-- No integer in a record that was read from a line is too long. -/
theorem ofLine_short {number : Int} {t : Text} (h : ofLine number t = .ok r) :
    Json.entriesHoldLongInt r.extras = false := by
  obtain ⟨entries, hparse, hread⟩ := ofLine_ok h
  obtain ⟨-, -, -, hextras⟩ := ofEntries_ok (ofMapping_ok hread).2
  refine Json.entriesHoldLongInt_eq_false.mpr fun e he => ?_
  rw [hextras, Entries.without] at he
  exact Json.entriesHoldLongInt_eq_false.mp (Json.parse_short hparse) e (List.mem_of_mem_filter he)

end Record

namespace Collection

/-- Records have a text that can be encoded exactly if a file can hold each of them. -/
theorem encoded_iff {rs : List Record} (regular : ∀ r ∈ rs, r.Regular)
    (short : ∀ r ∈ rs, Json.entriesHoldLongInt r.extras = false) :
    (∃ t octets, text ⟨rs⟩ = .ok t ∧ Utf8.encode t = .ok octets) ↔ ∀ r ∈ rs, r.Savable := by
  induction rs with
  | nil => exact iff_of_true ⟨[], [], rfl, rfl⟩ fun r hr => absurd hr List.not_mem_nil
  | cons r rs ih =>
    obtain ⟨hregular, hregulars⟩ := List.forall_mem_cons.mp regular
    obtain ⟨hshort, hshorts⟩ := List.forall_mem_cons.mp short
    rw [List.forall_mem_cons, ← Record.encoded_iff hregular hshort, ← ih hregulars hshorts]
    constructor
    · rintro ⟨t, octets, ht, hencode⟩
      obtain ⟨a, b, ha, hb, rfl⟩ := linesOf_cons ht
      have hwell := Utf8.encode_ok_iff.mp ⟨octets, hencode⟩
      rw [Text.isWellFormed_append, Bool.and_eq_true] at hwell
      obtain ⟨o, ho⟩ := Utf8.encode_ok_iff.mpr hwell.1
      obtain ⟨o', ho'⟩ := Utf8.encode_ok_iff.mpr hwell.2
      exact ⟨⟨a, o, ha, ho⟩, b, o', hb, ho'⟩
    · rintro ⟨⟨a, o, ha, ho⟩, b, o', hb, ho'⟩
      obtain ⟨octets, hencode⟩ := Utf8.encode_ok_iff.mpr (show (a ++ b).isWellFormed = true by
        rw [Text.isWellFormed_append, Utf8.encode_ok_iff.mp ⟨o, ho⟩, Utf8.encode_ok_iff.mp ⟨o', ho'⟩]
        rfl)
      refine ⟨a ++ b, octets, ?_, hencode⟩
      rw [text, linesOf, ha]
      simp only [show linesOf rs = .ok b from hb]
      rfl

end Collection

/-! ### Room for the temporary file -/

theorem Tree.get?_of_species {t : Tree} {l : Location} (h : t.species l = .ok .directory) :
    t.get? l = some .directory := by
  unfold species at h
  split at h
  · cases h
  · assumption
  · cases h
  · cases h

namespace World

variable {w : World} {p : Path} {name : Text}

/-- A path that the system refuses because it, or a name on it, is too long. -/
def TooLong (w : World) (p : Path) : Prop :=
  w.locate .entry p = .error (.system .nameTooLong p.text none)

theorem located_of_species {kind : Species} (h : w.species p = .ok kind) :
    ∃ l, w.locate .target p = .ok l ∧ w.tree.species l = .ok kind := by
  cases hlocate : w.locate .target p with
  | error r => rw [World.species, hlocate] at h; cases h
  | ok l =>
    rw [species_of_locate hlocate] at h
    cases htree : w.tree.species l with
    | error why => rw [htree] at h; cases h
    | ok k =>
      rw [htree] at h
      exact ⟨l, rfl, by rw [htree, Except.ok.inj h]⟩

/-- A name of its own in a directory has a spot there, or it is too long. -/
theorem spot_or_tooLong (there : w.species p = .ok .directory) (isName : Tree.IsName name)
    (hhanded : (p.child name).handedOver = .ok (p.child name).text ∨
      (p.child name).handedOver = .error (.system .nameTooLong (p.child name).text none)) :
    (∃ d, w.Spot (p.child name) d name) ∨ w.TooLong (p.child name) := by
  have hnames : (p.child name).names = (p.child name).names.dropLast ++ [name] := by
    rw [Path.child, List.dropLast_concat]
  rcases hhanded with hhanded | hhanded
  · obtain ⟨l, hlocate, hspecies⟩ := located_of_species there
    have hl : w.tree.get? l = some .directory := Tree.get?_of_species hspecies
    rw [locate_of_handedOver (handedOver_of_locate hlocate)] at hlocate
    cases hwalk : w.tree.walk .target Tree.maxLinks (w.start p) p.names with
    | error why => rw [hwalk] at hlocate; cases hlocate
    | ok m =>
      rw [hwalk] at hlocate
      obtain rfl : m = l := Except.ok.inj hlocate
      obtain ⟨links, hdescend⟩ := Tree.descend_of_walk hwalk hl
      have hway : w.tree.descend Tree.maxLinks (w.start (p.child name))
          (p.child name).names.dropLast = .ok (links, m) := by
        rw [Path.child, List.dropLast_concat]
        exact hdescend
      rcases Nat.lt_or_ge Tree.maxNameLength (Tree.nameLength name) with hlong | hshort
      · refine .inr ?_
        rw [TooLong, locate_of_descend hhanded hnames isName.2.2 hway,
          Tree.walk_longName isName hlong]
        rfl
      · exact .inl ⟨_, ⟨_, hhanded⟩, hnames, hway, isName, hshort⟩
  · exact .inr (by rw [TooLong, locate, hhanded])

end World

namespace Store

variable {w v u : World} {s : Store} {directory : Path}

/-- The temporary file of the store of a directory stands in that directory. -/
theorem temporaryFor_child (directory : Path) (now : Int) :
    temporaryFor (directory.child fileName) now = directory.child (temporaryName now) := by
  rw [temporaryFor_eq, Path.parent]
  simp [Path.child]

theorem lacksParent_child (directory : Path) : lacksParent (directory.child fileName) = false := by
  have hname : (directory.child fileName).name = fileName := by simp [Path.name, Path.child]
  have hparent : (directory.child fileName).parent ≠ directory.child fileName := by
    intro heq
    have hlength := congrArg (fun q => q.names.length) heq
    simp [Path.parent, Path.child] at hlength
  rw [lacksParent, hname, Bool.or_eq_false_iff]
  exact ⟨by decide, by simpa using hparent⟩

theorem fileName_isName : Tree.IsName fileName := ⟨by decide, by decide, by decide⟩

/-- What a store that was opened holds can be encoded exactly if a file can hold each record. -/
theorem openIn_encoded_iff (h : (openIn directory).run w = (.ok s, v)) :
    (∃ t octets, s.collection.text = .ok t ∧ Utf8.encode t = .ok octets) ↔
      ∀ r ∈ s.collection.records, r.Savable := by
  have hread : ∀ r ∈ s.collection.records,
      r.Regular ∧ Json.entriesHoldLongInt r.extras = false := by
    rw [openIn_loaded h]
    refine Collection.forall_mem_setAll (fun r hr => absurd hr List.not_mem_nil) fun r hr => ?_
    obtain ⟨n, t, hline⟩ := loaded_lines r hr
    exact ⟨(Record.ofLine_described hline).regular, Record.ofLine_short hline⟩
  exact Collection.encoded_iff (fun r hr => (hread r hr).1) fun r hr => (hread r hr).2

/-- Saving does not end well without room for the temporary file. -/
theorem Housed.not_tooLong (housed : s.Housed v) (hsome : s.hasNothingToSave.run v = (.ok false, v))
    (h : s.save.run v = (.ok (), u)) : ¬ v.TooLong (temporaryFor s.path v.now) := by
  intro hlong
  obtain ⟨-, x, x', -, told, hreplace, -⟩ := run_save_ok housed.quiet hsome h
  obtain ⟨y, hwrite, -⟩ := run_replaceFile_ok hreplace
  have hrefused : ∃ r, v.locate .writing (temporaryFor s.path v.now) = .error r := by
    rcases housed.spot_or_refused with ⟨d, spot⟩ | ⟨why, hrefused⟩
    · cases spot.locate_entry.symm.trans hlong
    · exact ⟨_, hrefused .writing⟩
  obtain ⟨r, hr⟩ := hrefused
  cases htext : s.collection.text with
  | error e => cases (LabelFile.run_write_unwritable htext).symm.trans hwrite
  | ok t => cases (LabelFile.run_write_refused htext (told.locate .writing _ ▸ hr)).symm.trans hwrite

/-- Where a store can be kept, nothing but the length of a name and its records stand in the way of
saving it. -/
theorem Fault.cause {f : Failure} (fault : s.Fault v f) (ready : s.Ready v)
    (hpath : s.path = directory.child fileName) (place : v.FileOrNothing s.path)
    (room : (∃ d, v.Spot (temporaryFor s.path v.now) d (temporaryName v.now)) ∨
      v.TooLong (temporaryFor s.path v.now)) :
    v.TooLong (temporaryFor s.path v.now) ∨
      ¬ ∃ t octets, s.collection.text = .ok t ∧ Utf8.encode t = .ok octets := by
  have hname : s.path.name = fileName := by rw [hpath]; simp [Path.name, Path.child]
  cases fault with
  | noParent h => rw [hpath, lacksParent_child] at h; cases h
  | unwritable e h =>
    refine .inr ?_
    rintro ⟨t, octets, ht, -⟩
    cases h.symm.trans ht
  | uncreatable r h =>
    rcases room with ⟨d, spot⟩ | hlong
    · have hnone := ready.vacant _ spot.locate_entry
      have hwriting := spot.locate_of_no_link (fun target => by rw [hnone]; simp) .writing
      cases h.symm.trans hwriting
    · exact .inl hlong
  | unencodable t e ht h =>
    refine .inr ?_
    rintro ⟨t', octets, ht', hoctets⟩
    obtain rfl := Except.ok.inj (ht.symm.trans ht')
    cases h.symm.trans hoctets
  | unplaceable why h =>
    exfalso
    cases h with
    | busy h => rw [hname] at h; revert h; decide
    | nameTooLong h => rw [hname] at h; revert h; decide
    | isDirectory l h hl =>
      obtain ⟨hnames, -⟩ := names_of_lacksParent (p := s.path) (by rw [hpath, lacksParent_child])
      rcases World.spot_or_refused hnames (hname ▸ fileName_isName) (.inl place.handedOver) with
        ⟨d, spot⟩ | ⟨why, hrefused⟩
      · obtain rfl := Except.ok.inj (spot.locate_entry.symm.trans h)
        have htarget := spot.locate_of_no_link (fun target => by rw [hl]; simp) .target
        have hspecies : v.species s.path = .ok .directory := by
          rw [World.species_of_locate htarget, Tree.species, hl]
          rfl
        rcases place with hplace | hplace <;> cases hspecies.symm.trans hplace
      · cases (hrefused .entry).symm.trans h

/-- A store that was opened in a directory where nothing stands at the temporary path is saved, however
much later, exactly if it has nothing to save, or there is room for the name of the temporary file and a
file can hold each record. -/
theorem save_opened_iff (proper : directory.Proper) (sound : w.Sound) (quiet : w.Quiet)
    (there : w.species directory = .ok .directory)
    (hopened : (openIn directory).run w = (.ok s, v)) (later : v.SameEntries u)
    (vacant : ∀ l, u.locate .entry (temporaryFor s.path u.now) = .ok l → u.tree.get? l = none) :
    (∃ x, s.save.run u = (.ok (), x)) ↔
      (s.collection.isEmpty = true ∧ u.LeadsNowhere s.path) ∨
        ¬ u.TooLong (temporaryFor s.path u.now) ∧ ∀ r ∈ s.collection.records, r.Savable := by
  have hpath : s.path = directory.child fileName := congrArg Store.path (openIn_loaded hopened)
  obtain ⟨x, told, hrun⟩ := run_openIn quiet directory
  obtain rfl : x = v := (Prod.mk.inj (hrun.symm.trans hopened)).2
  have same : w.SameEntries u := told.sameEntries.trans later
  have place : u.FileOrNothing s.path := by
    rw [World.FileOrNothing, later.species, hpath]
    exact openIn_fileOrNothing quiet hopened
  have ready : s.Ready u := ⟨housed_child (same.sound sound) same.quiet proper hpath place, vacant⟩
  have room : (∃ d, u.Spot (temporaryFor s.path u.now) d (temporaryName u.now)) ∨
      u.TooLong (temporaryFor s.path u.now) := by
    have hhanded := Path.handedOver_child ready.handedOver (temporaryName_passes u.now)
    rw [hpath, temporaryFor_child]
    rw [← temporaryFor_eq, hpath, temporaryFor_child] at hhanded
    exact World.spot_or_tooLong (same.species directory ▸ there) (temporaryName_isName u.now) hhanded
  rw [← openIn_encoded_iff hopened]
  by_cases hidle : s.collection.isEmpty = true ∧ u.LeadsNowhere s.path
  · refine iff_of_true ?_ (.inl hidle)
    rcases run_hasNothingToSave_nowhere hidle.1 ready.handedOver hidle.2 with
      ⟨hnothing, -⟩ | ⟨-, hspecies⟩
    · obtain ⟨x, hx, -⟩ := run_save_idle hnothing ready.quiet
      exact ⟨x, hx⟩
    · rcases place with hplace | hplace <;> cases hspecies.symm.trans hplace
  · have hsome := run_hasNothingToSave_some hidle
    rw [or_iff_right hidle]
    constructor
    · rintro ⟨x, hx⟩
      refine ⟨ready.not_tooLong hsome hx, ?_⟩
      rcases ready.run_save hsome with ⟨f, y, hf, -⟩ | ⟨y, octets, l, -, replaced⟩
      · cases hf.symm.trans hx
      · obtain ⟨t, ht, hoctets⟩ := replaced.encoded
        exact ⟨t, octets, ht, hoctets⟩
    · rintro ⟨hroom, htext⟩
      rcases ready.run_save hsome with ⟨f, y, -, fault, -⟩ | ⟨y, octets, l, hy, -⟩
      · exact absurd htext ((fault.cause ready hpath place room).resolve_left hroom)
      · exact ⟨y, hy⟩

/-- A line whose label is a surrogate on its own, as an escape spells it. -/
def loneLine : Text := "\x7b\"type\": \"addr\", \"ref\": \"a\", \"label\": \"\\ud800\"\x7d\n"

/-- The record of that line. -/
def loneRecord : Record := { Collection.plainRecord with label := some [.lone 0], extras := [] }

/-- A world with a label file that has this line. -/
def loneWorld : World := fileWorld (loneLine.map fun c => UInt8.ofNat c.toNat)

theorem loneWorld_opened : opened loneWorld ⟨.here, [fileName]⟩ =
    .ok ⟨⟨[loneRecord]⟩, ⟨.here, [fileName]⟩⟩ := by
  have hcontent : Collection.ofOctets (Path.text ⟨.here, [fileName]⟩)
      (loneLine.map fun c => UInt8.ofNat c.toNat) = .ok ⟨[loneRecord]⟩ := by cbv
  rw [opened, LabelFile.contents, loneWorld, fileWorld_read]
  dsimp only
  rw [hcontent]
  rfl

theorem fileWorld_get? (octets : Octets) {l : Location} (hl : l ≠ []) :
    (fileWorld octets).tree.get? l =
      if l = [fileName] then some (.file 0 (.ofOctets octets)) else none := by
  rw [Tree.get?_of_ne_nil _ hl]
  exact Tree.lookup_cons_ite _ _ _ _

theorem fileWorld_sound (octets : Octets) : (fileWorld octets).Sound :=
  ⟨Tree.sound_of_single fun _ => fileWorld_get? octets, rfl⟩

theorem fileWorld_here (octets : Octets) : (fileWorld octets).species ⟨.here, []⟩ = .ok .directory := by
  have hlocate : (fileWorld octets).locate .target ⟨.here, []⟩ = .ok [] := by
    rw [World.locate_of_handedOver (by decide +kernel : Path.handedOver ⟨.here, []⟩ = .ok "."),
      Tree.walk]
    rfl
  rw [World.species_of_locate hlocate]
  rfl

theorem fileWorld_vacant {octets : Octets} (told : (fileWorld octets).SameFiles v) :
    ∀ l, v.locate .entry (temporaryFor ⟨.here, [fileName]⟩ v.now) = .ok l → v.tree.get? l = none := by
  intro l hl
  have spot : (fileWorld octets).Spot ⟨.here, [temporaryName 0]⟩ (Tree.maxLinks, [])
      (temporaryName 0) :=
    World.spot_here (temporaryName_isName 0) (by decide) (by decide +kernel)
  rw [told.locate, told.now] at hl
  obtain rfl := Except.ok.inj (spot.locate_entry.symm.trans hl)
  rw [told.tree, fileWorld_get? octets (by simp), if_neg (by decide)]

/-- The record is loaded, and then nothing can be saved. -/
theorem save_opened_iff_lone : ∃ s v, (openIn ⟨.here, []⟩).run loneWorld = (.ok s, v) ∧
    s.collection.records = [loneRecord] ∧ ¬ ∃ u, s.save.run v = (.ok (), u) := by
  have hpath : Path.child ⟨.here, []⟩ fileName = ⟨.here, [fileName]⟩ := rfl
  obtain ⟨v, told, hrun⟩ := run_openIn (fileWorld_quiet _) ⟨.here, []⟩
  rw [hpath, show opened (fileWorld _) _ = _ from loneWorld_opened] at hrun
  refine ⟨_, v, hrun, rfl, fun hsaved => ?_⟩
  have proper : Path.Proper ⟨.here, []⟩ := fun n hn => absurd hn List.not_mem_nil
  rw [save_opened_iff proper (fileWorld_sound _) (fileWorld_quiet _) (fileWorld_here _) hrun
    ⟨fun _ => rfl, rfl, told.quiet⟩ (fileWorld_vacant told)] at hsaved
  rcases hsaved with ⟨hempty, -⟩ | ⟨-, hsavable⟩
  · cases hempty
  · exact absurd ((hsavable loneRecord List.mem_cons_self).wellFormed [.lone 0] (by decide)) (by decide)

end Store

end LabelBook
