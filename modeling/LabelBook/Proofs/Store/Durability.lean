import LabelBook.Proofs.Codec
import LabelBook.Proofs.Store.Opening
import LabelBook.Proofs.Store.Saving

/-!
What is saved is there when the store is opened again. Saving that ends well leaves the octets of the
collection in the file, whether or not an old temporary file was in the way; opening reads them back
record by record, up to the first record with a break in a string, which makes the whole file
unreadable.
-/

namespace LabelBook

variable {w v u : World} {p : Path} {octets : Octets}

/-! ### A file that has been written -/

theorem LabelFile.run_write_directory {c : Collection} {t : Text} {d : Nat × Location} {name : Text}
    (h : c.text = .ok t) (spot : w.Spot p d name)
    (hl : w.tree.get? (d.2 ++ [name]) = some .directory) :
    ∃ f, (LabelFile.write c p).run w = (.error f, w) := by
  have hlocate := spot.locate_of_no_link (fun target htarget => by rw [hl] at htarget; cases htarget)
    .writing
  have hwrite : (Program.write p []).run w =
      (.error (.refused (.system .isDirectory p.text none)), w) := by
    rw [Program.run_write, World.change, hlocate]
    simp only [Tree.write, hl]
    rfl
  exact ⟨_, by rw [LabelFile.run_write h, LabelFile.writeText, Program.run_bind_error hwrite]⟩

namespace Store

variable {s : Store}

/-- A file that has been replaced has been written and moved. -/
theorem run_replaceFile_ok {temporary : Path} (h : (s.replaceFile temporary).run w = (.ok (), u)) :
    ∃ v, (LabelFile.write s.collection temporary).run w = (.ok (), v) ∧
      (Program.rename temporary s.path).run v = (.ok (), u) := by
  have hnever : ∀ (f : Failure) (v : World),
      (discard temporary >>= fun _ => (Program.fail f : Program Unit)).run v ≠ (.ok (), u) := by
    intro f v heq
    rw [Program.run_bind] at heq
    split at heq <;> cases heq
  rw [replaceFile, Program.run_outcome_bind] at h
  rcases hwrite : (LabelFile.write s.collection temporary).run w with ⟨f | _, v⟩
  · rw [hwrite] at h
    exact absurd h (hnever _ _)
  · rw [hwrite] at h
    dsimp only at h
    rw [Program.run_outcome_bind] at h
    rcases hrename : (Program.rename temporary s.path).run v with ⟨f | _, v'⟩
    · rw [hrename] at h
      dsimp only at h
      split at h
      · exact absurd h (hnever _ _)
      · cases h
    · rw [hrename] at h
      exact ⟨v, rfl, hrename.trans h⟩

/-- A world in which no link stands at the path of the temporary file. -/
def NoLink (s : Store) (w : World) : Prop :=
  ∀ l target, w.locate .entry (temporaryFor s.path w.now) = .ok l →
    w.tree.get? l ≠ some (.link target)

/-- A world in which the path of a store leads to the octets of its collection, unless it led to a
directory or on to too many links before. -/
def Persisted (s : Store) (w v : World) : Prop :=
  ∃ t octets, s.collection.text = .ok t ∧ Utf8.encode t = .ok octets ∧
    (w.species s.path ≠ .ok .directory →
      w.species s.path ≠ .error (.system .tooManyLinks s.path.text none) →
      v.read s.path = .ok octets)

theorem Housed.replaceFile_ok (housed : s.Housed w) (noLink : s.NoLink w)
    (hparent : lacksParent s.path = false)
    (h : (s.replaceFile (temporaryFor s.path w.now)).run w = (.ok (), u)) :
    s.Persisted w u ∧ u.Quiet := by
  obtain ⟨v, hwrite, hrename⟩ := run_replaceFile_ok h
  obtain ⟨hnames, hempty⟩ := names_of_lacksParent hparent
  obtain ⟨hdot, hne⟩ := housed.name_ne hnames
  cases htext : s.collection.text with
  | error e => cases (LabelFile.run_write_unwritable htext).symm.trans hwrite
  | ok t =>
    rcases housed.spot_or_refused with ⟨d, spot⟩ | ⟨why, hrefused⟩
    · have htakes : w.TakesFile (d.2 ++ [temporaryName w.now]) := by
        cases hget : w.tree.get? (d.2 ++ [temporaryName w.now]) with
        | none => exact Or.inl hget
        | some e =>
          cases e with
          | file number content => exact Or.inr ⟨number, content, hget⟩
          | directory =>
            obtain ⟨f, hf⟩ := LabelFile.run_write_directory htext spot hget
            cases hf.symm.trans hwrite
          | link target => exact absurd hget (noLink _ target spot.locate_entry)
      cases hencode : Utf8.encode t with
      | error e =>
        obtain ⟨v', hv', -⟩ := LabelFile.run_write_unencodable htext hencode spot housed.quiet htakes
        cases hv'.symm.trans hwrite
      | ok octets =>
        obtain ⟨v', hv', hfile⟩ := LabelFile.run_write_ok htext hencode spot housed.quiet htakes
        obtain rfl : v' = v := (Prod.mk.inj (hv'.symm.trans hwrite)).2
        rcases hfile.run_rename housed.sound spot htakes housed.handedOver hnames hdot hempty hne with
          ⟨why, -, hwhy⟩ | ⟨u', hu', hspot, -, hmoved⟩
        · cases hwhy.symm.trans hrename
        · obtain rfl : u' = u := (Prod.mk.inj (hu'.symm.trans hrename)).2
          exact ⟨⟨t, octets, htext, hencode, hspot.read_file housed.sound hmoved.here
            (hmoved.keepsWays htakes) hmoved.file⟩, hmoved.quiet⟩
    · cases (LabelFile.run_write_refused htext (hrefused .writing)).symm.trans hwrite

/-- Saving that had something to save and ended well has replaced the file, between two events for the
log. -/
theorem run_save_ok (quiet : w.Quiet) (hsome : s.hasNothingToSave.run w = (.ok false, w))
    (h : s.save.run w = (.ok (), u)) : lacksParent s.path = false ∧ ∃ v v' e, w.SameFiles v ∧
      (s.replaceFile (temporaryFor s.path w.now)).run v = (.ok (), v') ∧
      (Program.logEvent e).run v' = (.ok (), u) := by
  rw [save, Program.run_bind_ok hsome, if_neg (by simp)] at h
  cases hparent : lacksParent s.path with
  | true => rw [hparent, if_pos rfl] at h; cases h
  | false =>
    rw [hparent, if_neg (by simp), Program.run_bind_ok Program.run_now] at h
    dsimp only at h
    obtain ⟨v, hlog, told⟩ := Program.run_log quiet .debug
      (Text.concat ["Atomically saving labels to ", s.path.text, " via temporary file ",
        (temporaryFor s.path w.now).text])
    rw [Program.run_bind_ok hlog] at h
    rcases hreplace : (s.replaceFile (temporaryFor s.path w.now)).run v with ⟨f | _, v'⟩
    · rw [Program.run_bind_error hreplace] at h
      cases h
    · rw [Program.run_bind_ok hreplace] at h
      exact ⟨rfl, v, v', _, told, hreplace, h⟩

/-- Saving that had something to save and ended well has left the octets of the collection in the
file. -/
theorem Housed.save_written (housed : s.Housed w) (noLink : s.NoLink w)
    (hsome : s.hasNothingToSave.run w = (.ok false, w)) (h : s.save.run w = (.ok (), u)) :
    s.Persisted w u ∧ u.Quiet := by
  obtain ⟨hparent, v, v', e, told, hreplace, hlog⟩ := run_save_ok housed.quiet hsome h
  have hnoLink : s.NoLink v := by
    intro l target hl
    rw [told.now, told.locate] at hl
    rw [told.tree]
    exact noLink l target hl
  rw [← told.now] at hreplace
  obtain ⟨⟨t, octets, htext, hencode, hread⟩, quiet⟩ :=
    (housed.told told).replaceFile_ok hnoLink hparent hreplace
  obtain ⟨u', hlog', told'⟩ := Program.run_logEvent quiet e
  obtain rfl : u' = u := (Prod.mk.inj (hlog'.symm.trans hlog)).2
  refine ⟨⟨t, octets, htext, hencode, fun hdirectory hlinks => ?_⟩, told'.quiet⟩
  rw [told'.sameEntries.read]
  rw [← told.sameEntries.species] at hdirectory hlinks
  exact hread hdirectory hlinks

/-- Saving that ends well had nothing to save, or has left the octets of the collection in the file. -/
theorem Housed.save_ok (housed : s.Housed w) (noLink : s.NoLink w)
    (h : s.save.run w = (.ok (), u)) :
    (s.collection.isEmpty = true ∧ w.LeadsNowhere s.path ∧ w.SameEntries u) ∨
      s.Persisted w u ∧ u.Quiet := by
  by_cases hidle : s.collection.isEmpty = true ∧ w.LeadsNowhere s.path
  · obtain ⟨hempty, hnowhere⟩ := hidle
    rcases run_hasNothingToSave_nowhere hempty housed.handedOver hnowhere with
      ⟨hrun, -⟩ | ⟨hrun, -⟩
    · obtain ⟨v, hv, told⟩ := run_save_idle hrun housed.quiet
      obtain rfl : v = u := (Prod.mk.inj (hv.symm.trans h)).2
      exact Or.inl ⟨hempty, hnowhere, told.sameEntries⟩
    · rw [save, Program.run_bind_error hrun] at h
      cases h
  · exact Or.inr (housed.save_written noLink (run_hasNothingToSave_some hidle) h)

end Store

/-! ### The content that has been written -/

theorem Collection.return_not_mem_text {rs : List Record} {t : Text} (h : text ⟨rs⟩ = .ok t)
    (regular : ∀ r ∈ rs, r.Regular) : .scalar '\r' ∉ t := by
  induction rs generalizing t with
  | nil =>
    rw [← Except.ok.inj h]
    exact List.not_mem_nil
  | cons r rs ih =>
    obtain ⟨a, b, ha, hb, rfl⟩ := linesOf_cons h
    obtain ⟨rfl, -⟩ := Record.line_ok ha (regular r List.mem_cons_self)
    have hrest := ih hb fun q hq => regular q (List.mem_cons_of_mem r hq)
    simp [Json.return_not_mem_print, hrest]

/-- What the file of some records is read as. -/
theorem LabelFile.contents_of_text {rs : List Record} {t : Text} (htext : Collection.text ⟨rs⟩ = .ok t)
    (regular : ∀ r ∈ rs, r.Regular) (hencode : Utf8.encode t = .ok octets)
    (hread : w.read p = .ok octets) : LabelFile.contents w p =
      match Collection.ofText t with
      | .error (.line n cause) => .error (.file (.malformed (some n)) p.text (some cause))
      | .error e => .error e
      | .ok c => .ok c := by
  have hunify := Text.unifyLineEnds_eq (Collection.return_not_mem_text htext regular)
  have hcontents : contents w p = Collection.ofOctets p.text octets := by rw [contents, hread]
  rw [hcontents]
  rcases hof : Collection.ofText t with f | c
  · cases f <;> simp only [Collection.ofOctets, Utf8.decode_encode hencode, hunify, hof]
  · simp only [Collection.ofOctets, Utf8.decode_encode hencode, hunify, hof]

namespace Store

variable {s : Store} {directory : Path}

/-- The store of a file that has been written is opened with the records that were written, or not at
all: then the first record with a break in a string is the line that is malformed. -/
theorem opened_of_text {rs : List Record} {t : Text} (htext : Collection.text ⟨rs⟩ = .ok t)
    (kept : Kept ⟨⟨rs⟩, p⟩) (hencode : Utf8.encode t = .ok octets) (hread : w.read p = .ok octets) :
    (∀ r ∈ rs, r.asWritten.hasBreak = false) ∧
        opened w p = .ok ⟨⟨rs.map Record.asWritten⟩, p⟩ ∨
      ∃ before r after cause, rs = before ++ r :: after ∧
        (∀ q ∈ before, q.asWritten.hasBreak = false) ∧ r.asWritten.hasBreak = true ∧
        opened w p = .error (.file .loading p.text (some (.file
          (.malformed (some (before.length + 1))) p.text (some cause)))) := by
  have regular : ∀ r ∈ rs, r.Regular := fun r hr => (kept.described r hr).regular
  have hcontents := LabelFile.contents_of_text htext regular hencode hread
  rcases Collection.first_or_none (fun r => r.asWritten.hasBreak) rs with
    hnone | ⟨before, r, after, rfl, hbefore, hr⟩
  · rw [Collection.ofText_whole htext regular hnone] at hcontents
    refine Or.inl ⟨hnone, ?_⟩
    have hnodup : ((rs.map Record.asWritten).map Record.reference).Nodup := by
      rw [List.map_map]
      exact kept.nodup
    rw [opened, hcontents]
    dsimp only
    rw [Collection.setAll_of_nodup (by simpa [Collection.references, Collection.empty] using hnodup)]
    rfl
  · obtain ⟨cause, hcause⟩ := Collection.ofText_cut htext regular hbefore hr
    rw [hcause] at hcontents
    refine Or.inr ⟨before, r, after, cause, rfl, hbefore, hr, ?_⟩
    rw [opened_error hcontents (by simp)]
    rfl

/-! ### Changes -/

/-- A change to a store: a record is set, or the records of a collection are. -/
inductive Change where
  | set (r : Record)
  | merge (c : Collection)

/-- The records that a change brings. -/
def Change.records : Change → List Record
  | set r => [r]
  | merge c => c.records

/-- The store after a change. -/
def Change.apply (s : Store) : Change → Store
  | set r => s.set r
  | merge c => (s.merge c).1

theorem Change.apply_eq (s : Store) (c : Change) :
    c.apply s = ⟨s.collection.setAll c.records, s.path⟩ := by
  cases c <;> rfl

theorem Kept.changes {changes : List Change} (kept : s.Kept)
    (described : ∀ c ∈ changes, ∀ r ∈ c.records, r.Described) :
    (changes.foldl Change.apply s).Kept ∧ (changes.foldl Change.apply s).path = s.path := by
  induction changes generalizing s with
  | nil => exact ⟨kept, rfl⟩
  | cons c changes ih =>
    have hnext : (c.apply s).Kept := by
      rw [Change.apply_eq]
      exact kept.setAll (described c List.mem_cons_self)
    obtain ⟨hkept, hpath⟩ := ih hnext fun d hd => described d (List.mem_cons_of_mem c hd)
    exact ⟨hkept, by rw [List.foldl_cons, hpath, Change.apply_eq]⟩

/-! ### Opening again -/

theorem temporaryFor_child_ne (directory : Path) (now : Int) :
    temporaryFor (directory.child fileName) now ≠ directory.child fileName := by
  intro heq
  have hnames := congrArg (fun q => q.names.getLast?) heq
  simp only [temporaryFor_eq, Path.child, List.getLast?_concat, Option.some.injEq] at hnames
  have hstart := congrArg List.head? hnames
  rw [show (temporaryName now).head? = some (.scalar '.') from rfl] at hstart
  revert hstart
  decide

theorem child_proper (proper : directory.Proper) : (directory.child fileName).Proper := by
  intro n hn
  rcases List.mem_append.mp hn with hn | hn
  · exact proper n hn
  · rw [List.mem_singleton.mp hn]
    exact ⟨by decide, by decide, by decide⟩

/-- A store that can be kept in the file of a directory can be saved there. -/
theorem housed_child (sound : v.Sound) (quiet : v.Quiet) (proper : directory.Proper)
    (hpath : s.path = directory.child fileName) (hplace : v.FileOrNothing s.path) : s.Housed v := by
  refine ⟨sound, quiet, ?_, hplace.handedOver, ?_⟩
  · rw [hpath]
    exact child_proper proper
  · rw [hpath]
    exact temporaryFor_child_ne directory v.now

/-- What opening comes to after a store has been saved in a place for it. -/
theorem opened_of_saved (kept : s.Kept) (housed : s.Housed v) (hplace : v.FileOrNothing s.path)
    (noLink : s.NoLink v) (saved : s.save.run v = (.ok (), u)) :
    (∀ r ∈ s.collection.records, r.asWritten.hasBreak = false) ∧
        opened u s.path = .ok ⟨⟨s.collection.records.map Record.asWritten⟩, s.path⟩ ∨
      ∃ before r after cause, s.collection.records = before ++ r :: after ∧
        (∀ q ∈ before, q.asWritten.hasBreak = false) ∧ r.asWritten.hasBreak = true ∧
        opened u s.path = .error (.file .loading s.path.text (some (.file
          (.malformed (some (before.length + 1))) s.path.text (some cause)))) := by
  rcases housed.save_ok noLink saved with ⟨hempty, hnowhere, hsame⟩ | ⟨persisted, -⟩
  · have hnil : s.collection.records = [] := List.isEmpty_iff.mp hempty
    refine Or.inl ⟨by rw [hnil]; simp, ?_⟩
    rcases hplace with hfile | hnothing
    · exact absurd hfile (hnowhere .file)
    · rw [opened_congr hsame, opened_missing hnothing, hnil]
      rfl
  · obtain ⟨t, octets, htext, hencode, hread⟩ := persisted
    have hread := hread (by rcases hplace with h | h <;> rw [h] <;> simp)
      (by rcases hplace with h | h <;> rw [h] <;> simp)
    exact opened_of_text htext ⟨kept.nodup, kept.described⟩ hencode hread

/-- A store that was opened, changed and saved is opened again with the same records in the same order,
each with its kind, identifier, label, origin and spendability and with what its line says of its
further entries, if no string in what is written has a break. Otherwise it is not opened: the first
record with a break makes its line malformed. When the store is saved, its path has to lead to a file
or to nothing, as it did when the store was opened. -/
theorem reopen_saved {changes : List Change} {s₀ : Store} {w₁ u' : World} (proper : directory.Proper)
    (hopened : (openIn directory).run w = (.ok s₀, w₁))
    (described : ∀ c ∈ changes, ∀ r ∈ c.records, r.Described) (sound : v.Sound) (quiet : v.Quiet)
    (place : v.FileOrNothing (directory.child fileName))
    (noLink : (changes.foldl Change.apply s₀).NoLink v)
    (saved : (changes.foldl Change.apply s₀).save.run v = (.ok (), u))
    (afterwards : u.SameEntries u') :
    ((∃ s z, (openIn directory).run u' = (.ok s, z)) ↔
        ∀ r ∈ (changes.foldl Change.apply s₀).collection.records, r.asWritten.hasBreak = false) ∧
      (∀ s z, (openIn directory).run u' = (.ok s, z) →
        s.path = (changes.foldl Change.apply s₀).path ∧ s.collection.records =
          (changes.foldl Change.apply s₀).collection.records.map Record.asWritten) ∧
      ∀ f z, (openIn directory).run u' = (.error f, z) → ∃ before r after cause,
        (changes.foldl Change.apply s₀).collection.records = before ++ r :: after ∧
        (∀ q ∈ before, q.asWritten.hasBreak = false) ∧ r.asWritten.hasBreak = true ∧
        f = .file .loading (directory.child fileName).text (some (.file
          (.malformed (some (before.length + 1))) (directory.child fileName).text (some cause))) := by
  obtain ⟨kept, hpath⟩ := (openIn_kept hopened).changes described
  set s := changes.foldl Change.apply s₀
  have hfile : s.path = directory.child fileName :=
    hpath.trans (congrArg Store.path (openIn_loaded hopened))
  rw [← hfile] at place ⊢
  have housed : s.Housed v := housed_child sound quiet proper hfile place
  obtain ⟨z, -, hrun⟩ := run_openIn afterwards.quiet directory
  rw [opened_congr afterwards, ← hfile] at hrun
  rcases opened_of_saved kept housed place noLink saved with
    ⟨hnone, hresult⟩ | ⟨before, r, after, cause, hrecords, hbefore, hr, hresult⟩
  · rw [hrun, hresult]
    refine ⟨⟨fun _ => hnone, fun _ => ⟨_, z, rfl⟩⟩, fun s' z' heq => ?_, fun f z' heq => ?_⟩
    · cases heq
      exact ⟨rfl, rfl⟩
    · cases heq
  · rw [hrun, hresult]
    refine ⟨⟨?_, fun hnone => ?_⟩, fun s' z' heq => ?_, fun f z' heq => ?_⟩
    · rintro ⟨s', z', heq⟩
      cases heq
    · rw [hnone r (by rw [hrecords]; simp)] at hr
      cases hr
    · cases heq
    · cases heq
      exact ⟨before, r, after, cause, hrecords, hbefore, hr, rfl⟩

/-- A store with a record that has a break in its label. -/
def splitStore : Store := ⟨⟨[Collection.splitRecord]⟩, ⟨.here, [fileName]⟩⟩

theorem linkedWorld_fileSpot : linkedWorld.Spot ⟨.here, [fileName]⟩ (Tree.maxLinks, []) fileName :=
  World.spot_here ⟨by decide, by decide, by decide⟩ (by decide) (by decide +kernel)

theorem linkedWorld_file : linkedWorld.tree.get? [fileName] = none := by
  rw [linkedWorld_get? _ (by simp), if_neg (by decide)]

theorem splitStore_ready : splitStore.Ready linkedWorld :=
  ⟨⟨besideStore_ready.sound, besideStore_ready.quiet, besideStore_ready.proper,
    besideStore_ready.handedOver, besideStore_ready.apart⟩, besideStore_ready.vacant⟩

theorem splitStore_saved (told : linkedWorld.SameFiles v) :
    ∃ u, splitStore.save.run v = (.ok (), u) ∧ u.Quiet := by
  have htext : ∃ t octets, splitStore.collection.text = .ok t ∧ Utf8.encode t = .ok octets :=
    ⟨_, _, rfl, rfl⟩
  obtain ⟨t, octets, ht, hoctets⟩ := htext
  rcases (splitStore_ready.told told).run_save (run_hasNothingToSave_records rfl) with
    ⟨f, u, -, fault, -⟩ | ⟨u, octets, l, hu, replaced⟩
  · exfalso
    cases fault.told told with
    | noParent h => revert h; decide
    | unwritable e h => cases ht.symm.trans h
    | uncreatable r h =>
      have hspot : linkedWorld.Spot _ (Tree.maxLinks, []) _ := World.spot_here
        (temporaryName_isName linkedWorld.now) (by decide) (by decide +kernel)
      have hget : linkedWorld.tree.get? [temporaryName linkedWorld.now] = none := by
        rw [linkedWorld_get? _ (by simp), if_neg (by decide)]
      have hlocate := hspot.locate_of_no_link
        (fun target => by rw [List.nil_append, hget]; simp) .writing
      cases hlocate.symm.trans h
    | unencodable t' e ht' h =>
      obtain rfl := Except.ok.inj (ht.symm.trans ht')
      cases hoctets.symm.trans h
    | unplaceable why h =>
      cases h with
      | busy h => revert h; decide
      | nameTooLong h => revert h; decide
      | isDirectory l h hl =>
        rw [← Except.ok.inj (linkedWorld_fileSpot.locate_entry.symm.trans h), List.nil_append,
          linkedWorld_file] at hl
        cases hl
  · exact ⟨u, hu, replaced.hasFile.quiet⟩

theorem linkedWorld_opened : ∃ v, linkedWorld.SameFiles v ∧
    (openIn ⟨.here, []⟩).run linkedWorld = (.ok ⟨.empty, ⟨.here, [fileName]⟩⟩, v) := by
  obtain ⟨v, told, hv⟩ := run_openIn linkedWorld_quiet ⟨.here, []⟩
  refine ⟨v, told, hv.trans ?_⟩
  have hread : linkedWorld.read ⟨.here, [fileName]⟩ =
      .error (.system .notFound (Path.text ⟨.here, [fileName]⟩) none) := by
    have hlocate := linkedWorld_fileSpot.locate_of_no_link
      (fun target => by rw [List.nil_append, linkedWorld_file]; simp) .target
    rw [World.read_of_locate hlocate, Tree.read, List.nil_append, linkedWorld_file]
    rfl
  have hopened : opened linkedWorld ⟨.here, [fileName]⟩ = .ok ⟨.empty, ⟨.here, [fileName]⟩⟩ := by
    rw [opened, LabelFile.contents, hread]
    rfl
  rw [show Path.child ⟨.here, []⟩ fileName = ⟨.here, [fileName]⟩ from rfl, hopened]

/-- A record with a break in its label is set and saved without a failure, and the store cannot be
opened again. -/
theorem reopen_saved_split : ∃ w₁ u f z,
    (openIn ⟨.here, []⟩).run linkedWorld = (.ok ⟨.empty, ⟨.here, [fileName]⟩⟩, w₁) ∧
    splitStore.save.run w₁ = (.ok (), u) ∧ (openIn ⟨.here, []⟩).run u = (.error f, z) := by
  obtain ⟨w₁, told, hopened⟩ := linkedWorld_opened
  obtain ⟨u, hu, quiet⟩ := splitStore_saved told
  have ready := splitStore_ready.told told
  have proper : Path.Proper ⟨.here, []⟩ := fun n hn => absurd hn List.not_mem_nil
  have described : ∀ c ∈ [Change.set Collection.splitRecord], ∀ r ∈ c.records, r.Described := by
    intro c hc r hr
    rw [List.mem_singleton.mp hc] at hr
    exact Collection.described_samples r (List.mem_cons_of_mem _ hr)
  have place := openIn_fileOrNothing linkedWorld_quiet hopened
  have hagain := reopen_saved proper hopened described ready.sound told.quiet place
    (fun l target hl => by rw [ready.vacant l hl]; simp) hu ⟨fun _ => rfl, rfl, quiet⟩
  rcases hrun : (openIn ⟨.here, []⟩).run u with ⟨f | s, z⟩
  · exact ⟨w₁, u, f, z, hopened, hu, hrun⟩
  · exact absurd (hagain.1.mp ⟨s, z, hrun⟩ Collection.splitRecord List.mem_cons_self) (by decide)

end Store

end LabelBook
