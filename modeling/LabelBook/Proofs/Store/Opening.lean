import LabelBook.Proofs.Collection
import LabelBook.Proofs.Files.Writing
import LabelBook.Proofs.Json.Keys
import LabelBook.Proofs.Log.Emitting
import LabelBook.Proofs.Record.Acceptance
import LabelBook.Store.Basic

/-!
Opening a store. What comes of it depends on the content of the file alone: the records are set one
after another, a file that is missing counts as empty, and any other failure of the file is one to
load it. A store that was opened has no two records of one reference, and all of them were read from
entries.
-/

namespace LabelBook

/-! ### Records that were read from a text -/

namespace Record

variable {number : Int} {t : Text} {entries : Entries} {r : Record}

theorem ofMapping_described (hdistinct : Json.DistinctKeys (.object entries))
    (h : ofMapping entries = .ok r) : r.Described :=
  ⟨r.kind, entries, hdistinct, (ofMapping_ok h).2⟩

/-- What stands behind a record that was read from a line. -/
theorem ofLine_ok (h : ofLine number t = .ok r) :
    ∃ entries, Json.parse t = .ok (.object entries) ∧ ofMapping entries = .ok r := by
  unfold ofLine at h
  cases hparse : Json.parse t with
  | error e => rw [hparse] at h; cases h
  | ok v =>
    rw [hparse] at h
    cases v with
    | object entries =>
      refine ⟨entries, rfl, ?_⟩
      cases hread : ofMapping entries with
      | error e =>
        simp only [Except.mapError, Except.bind, ofJson, hread] at h
        cases h
      | ok q =>
        simp only [Except.mapError, Except.bind, ofJson, hread] at h
        rw [Except.ok.inj h]
    | null | bool _ | int _ | float _ | string _ | array _ => cases h

theorem ofLine_described (h : ofLine number t = .ok r) : r.Described := by
  obtain ⟨entries, hparse, hread⟩ := ofLine_ok h
  exact ofMapping_described (Json.parse_distinct hparse) hread

end Record

theorem Record.ofLine_error {number : Int} {t : Text} {f : Failure}
    (h : Record.ofLine number t = .error f) : f.isFile = false := by
  have hmap : ∀ g : Failure, (∃ e, g = .json e) ∨ g = .noObject ∨ (∃ r, g = .rejected r) →
      (Failure.ofLine number g).isFile = false := by
    rintro g (⟨e, rfl⟩ | rfl | ⟨r, rfl⟩)
    · cases e <;> rfl
    · rfl
    · rfl
  unfold ofLine at h
  cases hparse : Json.parse t with
  | error e =>
    rw [hparse] at h
    rw [← Except.error.inj h]
    exact hmap _ (Or.inl ⟨e, rfl⟩)
  | ok v =>
    rw [hparse] at h
    cases v with
    | object entries =>
      simp only [Except.mapError, Except.bind, ofJson] at h
      cases hread : ofMapping entries with
      | error r =>
        rw [hread] at h
        rw [← Except.error.inj h]
        exact hmap _ (Or.inr (Or.inr ⟨r, rfl⟩))
      | ok q => rw [hread] at h; cases h
    | null | bool _ | int _ | float _ | string _ | array _ =>
      rw [← Except.error.inj h]
      exact hmap _ (Or.inr (Or.inl rfl))

namespace Collection

theorem recordsFrom_error {number : Nat} {ts : List Text} {f : Failure}
    (h : recordsFrom number ts = .error f) : f.isFile = false := by
  induction ts generalizing number with
  | nil => cases h
  | cons t ts ih =>
    rw [recordsFrom] at h
    split at h
    · exact ih h
    · split at h
      · next hf =>
        cases h
        exact Record.ofLine_error hf
      · cases hrest : recordsFrom (number + 1) ts with
        | error g =>
          rw [hrest] at h
          cases h
          exact ih hrest
        | ok rs => rw [hrest] at h; cases h

/-- The content of a file is never taken for a missing file. -/
theorem ofOctets_error {path : Text} {octets : Octets} {f : Failure}
    (h : ofOctets path octets = .error f) (missing : Text) (cause : Option Failure) :
    f ≠ .file .missing missing cause := by
  unfold ofOctets at h
  split at h
  · cases h
    exact fun heq => by cases heq
  · next t _ =>
    split at h
    · cases h
      exact fun heq => by cases heq
    · next hread =>
      cases h
      rintro rfl
      cases hrecords : recordsFrom 1 t.unifyLineEnds.lines with
      | error g =>
        rw [ofText, hrecords] at hread
        cases hread
        cases recordsFrom_error hrecords
      | ok rs => rw [ofText, hrecords] at hread; cases hread
    · cases h

/-- Every line that is not blank gives a record. -/
theorem recordsFrom_ok {number : Nat} {ts : List Text} {rs : List Record}
    (h : recordsFrom number ts = .ok rs) :
    List.Forall₂ (fun t r => ∃ n, Record.ofLine n t = .ok r) (ts.filter fun t => !t.isBlank) rs := by
  induction ts generalizing number rs with
  | nil => exact Except.ok.inj h ▸ .nil
  | cons t ts ih =>
    rw [recordsFrom] at h
    split at h
    · next hblank =>
      rw [List.filter_cons_of_neg (by simp [hblank])]
      exact ih h
    · next hblank =>
      rw [List.filter_cons_of_pos (by simpa using hblank)]
      split at h
      · cases h
      · next r hr =>
        obtain ⟨qs, hqs, rfl⟩ := Except.eq_ok_of_map h
        exact .cons ⟨_, hr⟩ (ih hqs)

theorem recordsFrom_lines {number : Nat} {ts : List Text} {rs : List Record}
    (h : recordsFrom number ts = .ok rs) : ∀ r ∈ rs, ∃ n t, Record.ofLine n t = .ok r := by
  have hlines := recordsFrom_ok h
  generalize ts.filter (fun t => !t.isBlank) = us at hlines
  clear h
  induction hlines with
  | nil => exact fun r hr => absurd hr List.not_mem_nil
  | cons hline _ ih =>
    obtain ⟨n, hn⟩ := hline
    exact List.forall_mem_cons.mpr ⟨⟨n, _, hn⟩, ih⟩

theorem ofOctets_lines {path : Text} {octets : Octets} {c : Collection}
    (h : ofOctets path octets = .ok c) : ∀ r ∈ c.records, ∃ n t, Record.ofLine n t = .ok r := by
  unfold ofOctets at h
  split at h
  · cases h
  · next t _ =>
    split at h
    · cases h
    · cases h
    · next hread =>
      cases h
      obtain ⟨rs, hrs, rfl⟩ := Except.eq_ok_of_map hread
      exact recordsFrom_lines hrs

end Collection

/-! ### The content of a label file -/

namespace World

variable {w v : World} {p : Path}

theorem SameEntries.read (h : w.SameEntries v) (p : Path) : v.read p = w.read p := by
  unfold World.read
  rw [h.locate]
  unfold Tree.read
  simp only [h.get?]

theorem SameEntries.species (h : w.SameEntries v) (p : Path) : v.species p = w.species p := by
  unfold World.species
  rw [h.locate]
  unfold Tree.species
  simp only [h.get?]

theorem species_of_read {t : Tree} {l : Location} :
    (∀ octets, t.read l = .ok octets → t.species l = .ok .file) ∧
      (t.read l = .error .notFound ↔ t.species l = .error .notFound) := by
  unfold Tree.read Tree.species
  rcases t.get? l with _ | (_ | _ | _) <;> simp

/-- What is read is a file. -/
theorem read_ok {octets : Octets} (h : w.read p = .ok octets) : w.species p = .ok .file := by
  cases hlocate : w.locate .target p with
  | error r =>
    rw [World.read, hlocate] at h
    cases h
  | ok l =>
    rw [read_of_locate hlocate] at h
    cases htree : w.tree.read l with
    | error why => rw [htree] at h; cases h
    | ok o => rw [species_of_locate hlocate, species_of_read.1 o htree]; rfl

/-- Where no file is found to be read, nothing is found at all. -/
theorem read_notFound {path : Text} {target : Option Text}
    (h : w.read p = .error (.system .notFound path target)) :
    w.species p = .error (.system .notFound p.text none) := by
  cases hhanded : p.handedOver with
  | error r =>
    have hread : w.read p = .error r := by
      unfold World.read World.locate
      rw [hhanded]
    rw [Except.error.inj (hread.symm.trans h)] at hhanded
    cases Path.handedOver_system hhanded
  | ok t =>
    cases hlocate : w.locate .target p with
    | error r =>
      obtain ⟨why, rfl, -⟩ := locate_error hhanded hlocate
      rw [World.read, hlocate] at h
      cases h
      rw [World.species, hlocate]
    | ok l =>
      rw [read_of_locate hlocate] at h
      cases htree : w.tree.read l with
      | error why =>
        rw [htree] at h
        cases h
        rw [species_of_locate hlocate, species_of_read.2.mp htree]
        rfl
      | ok o => rw [htree] at h; cases h

/-- Where nothing is found, no file is found to be read. -/
theorem read_of_species (h : w.species p = .error (.system .notFound p.text none)) :
    w.read p = .error (.system .notFound p.text none) := by
  cases hlocate : w.locate .target p with
  | error r =>
    rw [World.species, hlocate] at h
    rw [World.read, hlocate, Except.error.inj h]
  | ok l =>
    rw [species_of_locate hlocate] at h
    cases htree : w.tree.species l with
    | error why =>
      rw [htree] at h
      cases h
      rw [read_of_locate hlocate, species_of_read.2.mpr htree]
      rfl
    | ok kind => rw [htree] at h; cases h

/-- A path at which a store can be kept: it leads to a file, or nothing is found there. -/
def FileOrNothing (w : World) (p : Path) : Prop :=
  w.species p = .ok .file ∨ w.species p = .error (.system .notFound p.text none)

theorem FileOrNothing.handedOver (h : w.FileOrNothing p) : p.handedOver = .ok p.text := by
  cases hhanded : p.handedOver with
  | ok t => rw [Path.handedOver_eq hhanded]
  | error r =>
    have hspecies : w.species p = .error r := by
      unfold World.species World.locate
      rw [hhanded]
    rcases h with h | h
    · cases hspecies.symm.trans h
    · rw [Except.error.inj (hspecies.symm.trans h)] at hhanded
      cases Path.handedOver_system hhanded

end World

/-- The collection in a file of a world. -/
def LabelFile.contents (w : World) (p : Path) : Except Failure Collection :=
  match w.read p with
  | .error r => .error (readFailure p (.refused r))
  | .ok octets => Collection.ofOctets p.text octets

theorem LabelFile.contents_ok {w : World} {p : Path} {c : Collection}
    (h : LabelFile.contents w p = .ok c) :
    ∃ octets, w.read p = .ok octets ∧ Collection.ofOctets p.text octets = .ok c := by
  unfold contents at h
  split at h
  · cases h
  · next octets hread => exact ⟨octets, hread, h⟩

theorem LabelFile.contents_missing {w : World} {p : Path} {path : Text} {cause : Option Failure}
    (h : LabelFile.contents w p = .error (.file .missing path cause)) :
    ∃ text target, w.read p = .error (.system .notFound text target) := by
  unfold contents at h
  split at h
  · next r hread =>
    unfold readFailure at h
    split at h
    · next why text target heq =>
      cases heq
      by_cases hwhy : why = .notFound
      · rw [hread, hwhy]
        exact ⟨text, target, rfl⟩
      · rw [if_neg hwhy] at h
        cases h
    · cases h
  · exact absurd rfl (Collection.ofOctets_error h path cause)

theorem LabelFile.run_read (p : Path) (w : World) :
    (LabelFile.read p).run w = (LabelFile.contents w p, w) := by
  rw [read, contents, Program.run_bind, Program.run_orElse, Program.run_read]
  cases w.read p with
  | error r => rfl
  | ok octets => exact Program.run_ofExcept _

namespace Store

variable {w v : World} {s : Store} {directory p : Path}

/-- What opening the store of a file comes to. -/
def opened (w : World) (p : Path) : Except Failure Store :=
  match LabelFile.contents w p with
  | .ok c => .ok ⟨Collection.empty.setAll c.records, p⟩
  | .error (.file .missing _ _) => .ok ⟨.empty, p⟩
  | .error f => .error (if f.isFile then .file .loading p.text (some f) else f)

theorem opened_error {f : Failure} (h : LabelFile.contents w p = .error f)
    (hf : ∀ path cause, f = .file .missing path cause → False) :
    opened w p = .error (if f.isFile then .file .loading p.text (some f) else f) := by
  unfold opened
  split
  · next hc => cases h.symm.trans hc
  · next path cause hc => exact absurd (Except.error.inj (h.symm.trans hc)) (hf path cause)
  · next g _ hc =>
    rw [Except.error.inj (h.symm.trans hc)]

/-- Opening a store names its file in the log, looks at the content of that, and tells the log what came
of it. -/
theorem run_openIn_tells (w : World) (directory : Path) : ∃ u v,
    (Program.log .debug (Text.concat
      ["Label file path: ", (directory.child fileName).text])).run w = (.ok (), u) ∧
    w.Tells u ∧ u.Tells v ∧ (openIn directory).run w = (opened u (directory.child fileName), v) := by
  obtain ⟨u, hlog, told⟩ := World.tells_log .debug
    (Text.concat ["Label file path: ", (directory.child fileName).text]) w
  refine ⟨u, ?_⟩
  rw [openIn, Program.run_bind_ok hlog, Program.run_outcome_bind, LabelFile.run_read]
  dsimp only
  split
  · next c hc =>
    obtain ⟨v, hv, told'⟩ := World.tells_logEvent _ u
    refine ⟨v, hlog, told, told', (Program.run_bind_ok hv _).trans ?_⟩
    rw [opened, hc]
    rfl
  · next hc =>
    obtain ⟨v, hv, told'⟩ := World.tells_logEvent _ u
    refine ⟨v, hlog, told, told', (Program.run_bind_ok hv _).trans ?_⟩
    rw [opened, hc]
    rfl
  · next f hf hc =>
    refine ⟨u, hlog, told, .refl u, ?_⟩
    rw [opened_error hc hf]
    split <;> rfl

theorem opened_congr (h : w.SameEntries v) (p : Path) : opened v p = opened w p := by
  unfold opened LabelFile.contents
  rw [h.read]

/-- With a log that goes to the console alone, opening a store changes no file. -/
theorem run_openIn (quiet : w.Quiet) (directory : Path) : ∃ v, w.SameFiles v ∧
    (openIn directory).run w = (opened w (directory.child fileName), v) := by
  obtain ⟨u, v, -, told, told', hrun⟩ := run_openIn_tells w directory
  have same := told.sameFiles quiet
  exact ⟨v, same.trans (told'.sameFiles same.quiet),
    hrun.trans (by rw [opened_congr same.sameEntries])⟩

/-- No two records of a store have the same reference, and all of them were read from entries. -/
structure Kept (s : Store) : Prop where
  nodup : s.collection.references.Nodup
  described : ∀ r ∈ s.collection.records, r.Described

theorem Kept.empty (p : Path) : Kept ⟨.empty, p⟩ :=
  ⟨List.nodup_nil, fun _ hr => absurd hr List.not_mem_nil⟩

theorem Kept.setAll (kept : s.Kept) {rs : List Record} (h : ∀ r ∈ rs, r.Described) :
    Kept ⟨s.collection.setAll rs, p⟩ :=
  ⟨Collection.nodup_setAll kept.nodup rs, Collection.forall_mem_setAll kept.described h⟩

/-- The store of a file that is not there is empty. -/
theorem opened_missing (h : w.species p = .error (.system .notFound p.text none)) :
    opened w p = .ok ⟨.empty, p⟩ := by
  rw [opened, LabelFile.contents, World.read_of_species h]
  rfl

/-- A store can be kept where it was opened. -/
theorem opened_fileOrNothing (h : opened w p = .ok s) : w.FileOrNothing p := by
  unfold opened at h
  split at h
  · next c hc =>
    obtain ⟨octets, hread, -⟩ := LabelFile.contents_ok hc
    exact Or.inl (World.read_ok hread)
  · next path cause hc =>
    obtain ⟨_, _, hread⟩ := LabelFile.contents_missing hc
    exact Or.inr (World.read_notFound hread)
  · cases h

theorem openIn_fileOrNothing (quiet : w.Quiet) (h : (openIn directory).run w = (.ok s, v)) :
    v.FileOrNothing (directory.child fileName) := by
  obtain ⟨u, told, hrun⟩ := run_openIn quiet directory
  obtain ⟨hstore, rfl⟩ := Prod.mk.inj (hrun.symm.trans h)
  rw [World.FileOrNothing, told.sameEntries.species]
  exact opened_fileOrNothing hstore

/-! ### What was loaded -/

/-- The records that opening the store of a directory finds in its file, as they stand there, a
reference as often as it is repeated; none if there is no file. -/
def loaded (directory : Path) (w : World) : List Record :=
  let p := directory.child fileName
  let v := ((Program.log .debug (Text.concat ["Label file path: ", p.text])).run w).2
  match LabelFile.contents v p with
  | .ok c => c.records
  | .error _ => []

theorem loaded_lines : ∀ r ∈ loaded directory w, ∃ n t, Record.ofLine n t = .ok r := by
  unfold loaded
  dsimp only
  split
  · next c hc =>
    obtain ⟨octets, -, hcontent⟩ := LabelFile.contents_ok hc
    exact Collection.ofOctets_lines hcontent
  · exact fun r hr => absurd hr List.not_mem_nil

theorem loaded_described : ∀ r ∈ loaded directory w, r.Described := by
  intro r hr
  obtain ⟨n, t, h⟩ := loaded_lines r hr
  exact Record.ofLine_described h

/-- A store that was opened has the records of its file set one after another. -/
theorem openIn_loaded (h : (openIn directory).run w = (.ok s, v)) :
    s = ⟨Collection.empty.setAll (loaded directory w), directory.child fileName⟩ := by
  unfold openIn at h
  rcases hlog : (Program.log .debug (Text.concat
      ["Label file path: ", (directory.child fileName).text])).run w with ⟨f | _, u⟩
  · rw [Program.run_bind_error hlog] at h
    cases h
  · rw [Program.run_bind_ok hlog, Program.run_outcome_bind, LabelFile.run_read] at h
    rw [loaded, hlog]
    dsimp only at h ⊢
    split at h
    · next c hc =>
      rw [hc]
      rw [Program.run_bind] at h
      split at h <;> cases h
      rfl
    · next hc =>
      rw [hc]
      rw [Program.run_bind] at h
      split at h <;> cases h
      rfl
    · split at h <;> cases h

theorem openIn_kept (h : (openIn directory).run w = (.ok s, v)) : s.Kept := by
  rw [openIn_loaded h]
  exact (Kept.empty (directory.child fileName)).setAll loaded_described

end Store

end LabelBook
