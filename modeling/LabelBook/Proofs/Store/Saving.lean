import LabelBook.Proofs.Files.Moving
import LabelBook.Store.Basic

/-!
Saving a store. Either nothing needs to be saved, or a file with the octets of the collection takes the
place of what the path of the store named, or the files are as they were and the failure names the
path. The temporary file is gone in the end, whatever happens. Only the question whether there is a file
that an empty store would replace can go unanswered; then the refusal itself is the failure.
-/

namespace LabelBook

/-- A path at which nothing is found. -/
def World.LeadsNowhere (w : World) (p : Path) : Prop := ∀ kind, w.species p ≠ .ok kind

theorem Tree.species_error {t : Tree} {l : Location} {why : Reason} (h : t.species l = .error why) :
    why.meansAbsent = true := by
  unfold species at h
  split at h
  · cases h; rfl
  · cases h
  · cases h
  · cases h; rfl

/-- Why nothing is found at a path that can be handed over. -/
theorem World.species_error {w : World} {p : Path} {t : Text} (hhanded : p.handedOver = .ok t)
    (h : w.LeadsNowhere p) : ∃ why, w.species p = .error (.system why p.text none) ∧
      (why.meansAbsent = true ∨ why = .nameTooLong) := by
  cases hlocate : w.locate .target p with
  | error r =>
    obtain ⟨why, rfl, hwalk⟩ := World.locate_error hhanded hlocate
    exact ⟨why, by rw [species, hlocate], Tree.walk_target_error hwalk⟩
  | ok l =>
    have hspecies : w.species p = World.refuse p (w.tree.species l) := by rw [species, hlocate]
    cases htree : w.tree.species l with
    | ok kind => exact absurd (by rw [hspecies, htree]; rfl) (h kind)
    | error why => exact ⟨why, by rw [hspecies, htree]; rfl, Or.inl (Tree.species_error htree)⟩

namespace Store

variable {s : Store} {w v u : World} {p : Path} {d : Nat × Location} {name : Text}
  {octets : Octets}

/-! ### Whether there is something to save -/

theorem run_hasNothingToSave_records (h : s.collection.isEmpty = false) :
    s.hasNothingToSave.run w = (.ok false, w) := by
  rw [hasNothingToSave, h]
  rfl

theorem run_hasNothingToSave_found {kind : Species} (h : s.collection.isEmpty = true)
    (hspecies : w.species s.path = .ok kind) : s.hasNothingToSave.run w = (.ok false, w) := by
  have hexists : (Program.exists? s.path).run w = (.ok true, w) := by
    unfold Program.exists?
    rw [Program.run_ask]
    simp only [World.answer, hspecies]
    rfl
  rw [hasNothingToSave, if_pos h, Program.run_bind_ok hexists]
  rfl

/-- The question about a path that leads nowhere is answered, unless a name on the way is too long. -/
theorem run_hasNothingToSave_nowhere {t : Text} (h : s.collection.isEmpty = true)
    (hhanded : s.path.handedOver = .ok t) (hnowhere : w.LeadsNowhere s.path) :
    s.hasNothingToSave.run w = (.ok true, w) ∧
        w.species s.path ≠ .error (.system .nameTooLong s.path.text none) ∨
      s.hasNothingToSave.run w = (.error (.refused (.system .nameTooLong s.path.text none)), w) ∧
        w.species s.path = .error (.system .nameTooLong s.path.text none) := by
  obtain ⟨why, hspecies, hwhy⟩ := World.species_error hhanded hnowhere
  have hrun : s.hasNothingToSave.run w =
      if why.meansAbsent then (.ok true, w)
      else (.error (.refused (.system why s.path.text none)), w) := by
    have hexists : (Program.exists? s.path).run w =
        if why.meansAbsent then (.ok false, w)
        else (.error (.refused (.system why s.path.text none)), w) := by
      unfold Program.exists?
      rw [Program.run_ask]
      simp only [World.answer, hspecies]
      cases why.meansAbsent <;> rfl
    rw [hasNothingToSave, if_pos h, Program.run_bind, hexists]
    cases why.meansAbsent <;> rfl
  rw [hspecies, hrun]
  rcases hwhy with hwhy | rfl
  · rw [if_pos hwhy]
    refine Or.inl ⟨rfl, fun heq => ?_⟩
    cases heq
    cases hwhy
  · exact Or.inr ⟨rfl, rfl⟩

/-- A store with records, or with a path at which something is found, has something to save. -/
theorem run_hasNothingToSave_some (h : ¬ (s.collection.isEmpty = true ∧ w.LeadsNowhere s.path)) :
    s.hasNothingToSave.run w = (.ok false, w) := by
  cases hempty : s.collection.isEmpty with
  | false => exact run_hasNothingToSave_records hempty
  | true =>
    have hfound : ¬ w.LeadsNowhere s.path := fun hnowhere => h ⟨hempty, hnowhere⟩
    unfold World.LeadsNowhere at hfound
    push Not at hfound
    obtain ⟨kind, hkind⟩ := hfound
    exact run_hasNothingToSave_found hempty hkind

/-! ### Taking the temporary file away -/

/-- Taking away a file that has come to stand where nothing stood leaves everything as it was. -/
theorem run_discard_file (h : w.HasFile v (d.2 ++ [name]) octets) (spot : w.Spot p d name)
    (hl : w.tree.get? (d.2 ++ [name]) = none) :
    ∃ u, (discard p).run v = (.ok (), u) ∧ w.SameEntries u := by
  obtain ⟨u, hu, hsame⟩ := h.run_remove spot hl
  refine ⟨u, ?_, hsame⟩
  rw [discard, Program.run_outcome_bind, hu]
  rfl

/-- Where there is no file to take away, nothing is taken away; a reason but absence is told. -/
theorem run_discard_none {why : Reason} (quiet : w.Quiet)
    (h : w.change .entry p w.tree.remove = (.error (.system why p.text none), w)) :
    ∃ u, (discard p).run w = (.ok (), u) ∧ w.SameEntries u := by
  have hremove : (Program.remove p).run w = (.error (.refused (.system why p.text none)), w) := by
    rw [Program.run_remove, h]
    rfl
  rw [discard, Program.run_outcome_bind, hremove]
  dsimp only
  split
  · obtain ⟨u, hu, hsame⟩ := Program.run_log quiet .warning (Text.concat
      ["Could not remove temporary label file ", p.text, ": ", (Refusal.system why p.text none).message])
    exact ⟨u, hu, hsame.sameEntries⟩
  · exact ⟨w, rfl, fun _ => rfl, rfl, quiet⟩

/-! ### The temporary file -/

/-- The name of the temporary file at a time. -/
def temporaryName (now : Int) : Text := Text.concat [temporaryStart, Text.ofInt (Clock.millis now)]

theorem temporaryFor_eq (p : Path) (now : Int) :
    temporaryFor p now = p.parent.child (temporaryName now) := rfl

theorem temporaryName_isName (now : Int) : Tree.IsName (temporaryName now) := by
  have hstart : ∃ t, temporaryName now = .scalar '.' :: .scalar 'l' :: t := ⟨_, rfl⟩
  obtain ⟨t, ht⟩ := hstart
  rw [ht]
  refine ⟨?_, ?_, ?_⟩ <;> simp [Text.ofString]

theorem passes_of_mem_ofNat {n : Nat} {c : CodePoint} (h : c ∈ Text.ofNat n) : Path.Passes c := by
  obtain ⟨digit, hdigit, rfl⟩ := List.mem_map.mp h
  rintro rfl
  have hnull := Nat.isDigit_of_mem_toDigits (by decide) (by decide) hdigit
  revert hnull
  decide

theorem temporaryName_passes (now : Int) : ∀ c ∈ temporaryName now, Path.Passes c := by
  intro c hc
  rw [temporaryName, Text.concat, List.flatten_cons, List.flatten_cons, List.flatten_nil,
    List.append_nil] at hc
  rcases List.mem_append.mp hc with hc | hc
  · have hplain : ∀ c ∈ temporaryStart, ∃ d : Char, c = .scalar d ∧ d ≠ '\x00' := by
      intro c hc
      obtain ⟨d, hd, rfl⟩ := List.mem_map.mp hc
      exact ⟨d, rfl, by rintro rfl; revert hd; decide⟩
    obtain ⟨d, rfl, hd⟩ := hplain c hc
    exact hd
  · cases hmillis : Clock.millis now with
    | ofNat n =>
      rw [hmillis] at hc
      exact passes_of_mem_ofNat hc
    | negSucc n =>
      rw [hmillis] at hc
      rcases List.mem_cons.mp hc with rfl | hc
      · simp [Path.Passes]
      · exact passes_of_mem_ofNat hc

/-! ### Replacing the file -/

/-- What saving a store in a world rests on: the path is one that a text spells and that can be handed
to the system, and the temporary file has another one. -/
structure Housed (s : Store) (w : World) : Prop where
  sound : w.Sound
  quiet : w.Quiet
  proper : s.path.Proper
  handedOver : s.path.handedOver = .ok s.path.text
  apart : temporaryFor s.path w.now ≠ s.path

/-- A world with nothing at the path of the temporary file. -/
structure Ready (s : Store) (w : World) : Prop extends s.Housed w where
  vacant : ∀ l, w.locate .entry (temporaryFor s.path w.now) = .ok l → w.tree.get? l = none

/-- Why a store cannot be saved, with the failure that tells it. -/
inductive Fault (s : Store) (w : World) : Failure → Prop where
  | noParent (h : lacksParent s.path = true) : Fault s w (parentFailure s.path)
  | unwritable (e : WriteError) (h : s.collection.text = .error e) :
    Fault s w (exportFailure (temporaryFor s.path w.now) s.path
      (.file .writing (temporaryFor s.path w.now).text (some (.unwritable e))))
  | uncreatable (r : Refusal) (h : w.locate .writing (temporaryFor s.path w.now) = .error r) :
    Fault s w (exportFailure (temporaryFor s.path w.now) s.path
      (.file .writing (temporaryFor s.path w.now).text (some (.refused r))))
  | unencodable (t : Text) (e : Utf8.EncodeError) (ht : s.collection.text = .ok t)
    (h : Utf8.encode t = .error e) :
    Fault s w (exportFailure (temporaryFor s.path w.now) s.path
      (.file .writing (temporaryFor s.path w.now).text (some (.unencodable e))))
  | unplaceable (why : Reason) (h : w.Unplaceable s.path why) :
    Fault s w (renameFailure (temporaryFor s.path w.now) s.path
      (.refused (.system why (temporaryFor s.path w.now).text (some s.path.text))))

/-- A world in which a file with the octets of a store's collection has taken the place of what the path
of the store named, and nothing else is different. The path leads to the file, unless it led to a
directory or on to too many links, as it does when it goes through its own last name. -/
structure Replaced (s : Store) (w v : World) (octets : Octets) (l : Location) : Prop where
  encoded : ∃ t, s.collection.text = .ok t ∧ Utf8.encode t = .ok octets
  place : w.locate .entry s.path = .ok l
  hasFile : w.HasFile v l octets
  vacant : ∀ m, v.locate .entry (temporaryFor s.path w.now) = .ok m → v.tree.get? m = none
  read : w.species s.path ≠ .ok .directory →
    w.species s.path ≠ .error (.system .tooManyLinks s.path.text none) → v.read s.path = .ok octets

theorem run_replaceFile_unwritten {temporary : Path} {f : Failure}
    (hwrite : (LabelFile.write s.collection temporary).run w = (.error f, v))
    (hdiscard : (discard temporary).run v = (.ok (), u)) :
    (s.replaceFile temporary).run w = (.error (exportFailure temporary s.path f), u) := by
  rw [replaceFile, Program.run_outcome_bind, hwrite]
  dsimp only
  rw [Program.run_bind_ok hdiscard]
  rfl

theorem run_replaceFile_unmoved {temporary : Path} {why : Reason} {path : Text} {target : Option Text}
    (hwrite : (LabelFile.write s.collection temporary).run w = (.ok (), v))
    (hrename : (Program.rename temporary s.path).run v =
      (.error (.refused (.system why path target)), v))
    (hdiscard : (discard temporary).run v = (.ok (), u)) :
    (s.replaceFile temporary).run w =
      (.error (renameFailure temporary s.path (.refused (.system why path target))), u) := by
  rw [replaceFile, Program.run_outcome_bind, hwrite]
  dsimp only
  rw [Program.run_outcome_bind, hrename]
  dsimp only
  rw [if_pos (show Failure.isSystem (.refused (.system why path target)) = true from rfl),
    Program.run_bind_ok hdiscard]
  rfl

theorem run_replaceFile_moved {temporary : Path}
    (hwrite : (LabelFile.write s.collection temporary).run w = (.ok (), v))
    (hrename : (Program.rename temporary s.path).run v = (.ok (), u)) :
    (s.replaceFile temporary).run w = (.ok (), u) := by
  rw [replaceFile, Program.run_outcome_bind, hwrite]
  dsimp only
  rw [Program.run_outcome_bind, hrename]
  rfl

/-- A path that leaves room for a file beside it ends in a name. -/
theorem names_of_lacksParent (h : lacksParent p = false) :
    p.names = p.names.dropLast ++ [p.name] ∧ p.name ≠ [] := by
  rw [lacksParent, Bool.or_eq_false_iff] at h
  have hempty : p.name ≠ [] := by simpa using h.1
  have hnames : p.names ≠ [] := by
    intro hnil
    rw [Path.name, hnil] at hempty
    exact hempty rfl
  refine ⟨?_, hempty⟩
  rw [Path.name, List.getLast?_eq_some_getLast hnames]
  exact (List.dropLast_append_getLast hnames).symm

/-- The temporary file has another name than the file of the store. -/
theorem Housed.name_ne (housed : s.Housed w)
    (hnames : s.path.names = s.path.names.dropLast ++ [s.path.name]) :
    s.path.name ≠ "." ∧ temporaryName w.now ≠ s.path.name := by
  refine ⟨(housed.proper s.path.name (by rw [hnames]; simp)).dot, fun heq => housed.apart ?_⟩
  rw [temporaryFor_eq, heq, Path.child, Path.parent, ← hnames]

/-- The temporary file has a spot, or the system refuses to lead to it. -/
theorem Housed.spot_or_refused (housed : s.Housed w) :
    (∃ d, w.Spot (temporaryFor s.path w.now) d (temporaryName w.now)) ∨ ∃ why, ∀ aim,
      w.locate aim (temporaryFor s.path w.now) =
        .error (.system why (temporaryFor s.path w.now).text none) := by
  have hnames : (temporaryFor s.path w.now).names =
      (temporaryFor s.path w.now).names.dropLast ++ [temporaryName w.now] := by
    rw [temporaryFor_eq, Path.child, List.dropLast_concat]
  exact World.spot_or_refused hnames (temporaryName_isName w.now)
    (Path.handedOver_child housed.handedOver (temporaryName_passes w.now))

/-- Nothing can be taken away where the temporary file is going to be. -/
theorem Ready.run_discard (ready : s.Ready w) :
    ∃ u, (discard (temporaryFor s.path w.now)).run w = (.ok (), u) ∧ w.SameEntries u := by
  set temporary := temporaryFor s.path w.now
  have hrefused : ∃ why, w.change .entry temporary w.tree.remove =
      (.error (.system why temporary.text none), w) := by
    rcases ready.spot_or_refused with ⟨d, spot⟩ | ⟨why, hrefused⟩
    · have hl := ready.vacant _ spot.locate_entry
      refine ⟨.notFound, ?_⟩
      rw [World.change, spot.locate_entry]
      simp only [Tree.remove, hl]
    · exact ⟨why, by rw [World.change, hrefused]⟩
  obtain ⟨why, hwhy⟩ := hrefused
  exact run_discard_none ready.quiet hwhy

/-- Replacing the file of a store puts the new file in its place, or leaves everything as it was. -/
theorem Ready.run_replaceFile (ready : s.Ready w) (hparent : lacksParent s.path = false) :
    (∃ f v, (s.replaceFile (temporaryFor s.path w.now)).run w = (.error f, v) ∧ s.Fault w f ∧
        w.SameEntries v) ∨
      ∃ v octets l, (s.replaceFile (temporaryFor s.path w.now)).run w = (.ok (), v) ∧
        s.Replaced w v octets l := by
  obtain ⟨hnames, hempty⟩ := names_of_lacksParent hparent
  obtain ⟨u, hdiscard, hsame⟩ := ready.run_discard
  cases htext : s.collection.text with
  | error e => exact Or.inl ⟨_, u, run_replaceFile_unwritten (LabelFile.run_write_unwritable htext)
      hdiscard, .unwritable e htext, hsame⟩
  | ok t =>
    rcases ready.spot_or_refused with ⟨d, spot⟩ | ⟨why, hrefused⟩
    · have hl : w.tree.get? (d.2 ++ [temporaryName w.now]) = none := ready.vacant _ spot.locate_entry
      cases hencode : Utf8.encode t with
      | error e =>
        obtain ⟨v, hwrite, hfile⟩ := LabelFile.run_write_unencodable htext hencode spot ready.quiet
          (Or.inl hl)
        obtain ⟨u, hdiscard, hsame⟩ := run_discard_file hfile spot hl
        exact Or.inl ⟨_, u, run_replaceFile_unwritten hwrite hdiscard, .unencodable t e htext hencode,
          hsame⟩
      | ok octets =>
        obtain ⟨v, hwrite, hfile⟩ := LabelFile.run_write_ok htext hencode spot ready.quiet (Or.inl hl)
        obtain ⟨hdot, hne⟩ := ready.name_ne hnames
        rcases hfile.run_rename ready.sound spot (Or.inl hl) ready.handedOver hnames hdot hempty hne
          with ⟨why, hwhy, hrename⟩ | ⟨v', hrename, hspot, hdirectory, hmoved⟩
        · obtain ⟨u, hdiscard, hsame⟩ := run_discard_file hfile spot hl
          exact Or.inl ⟨_, u, run_replaceFile_unmoved hwrite hrename hdiscard, .unplaceable why hwhy,
            hsame⟩
        · have hnew := hmoved.hasFile hl
          exact Or.inr ⟨v', octets, _, run_replaceFile_moved hwrite hrename, ⟨t, htext, hencode⟩,
            hspot.locate_entry, hnew, fun m => hnew.vacant hdirectory spot hl hne,
            hspot.read_file ready.sound hnew.here hnew.keepsWays hnew.file⟩
    · exact Or.inl ⟨_, u, run_replaceFile_unwritten
        (LabelFile.run_write_refused htext (hrefused .writing)) hdiscard,
        .uncreatable _ (hrefused .writing), hsame⟩

/-! ### Worlds in which something has been told -/

theorem Housed.told (housed : s.Housed w) (h : w.SameFiles v) : s.Housed v :=
  ⟨h.sameEntries.sound housed.sound, h.quiet, housed.proper, housed.handedOver, h.now ▸ housed.apart⟩

theorem Ready.told (ready : s.Ready w) (h : w.SameFiles v) : s.Ready v :=
  ⟨ready.toHoused.told h, fun l hl => h.tree ▸ ready.vacant l (by rwa [h.now, h.locate] at hl)⟩

theorem Fault.told {f : Failure} (fault : s.Fault v f) (h : w.SameFiles v) : s.Fault w f := by
  cases fault with
  | noParent hparent => exact .noParent hparent
  | unwritable e htext => rw [h.now]; exact .unwritable e htext
  | uncreatable r hlocate =>
    rw [h.now, h.locate] at hlocate
    rw [h.now]
    exact .uncreatable r hlocate
  | unencodable t e ht he => rw [h.now]; exact .unencodable t e ht he
  | unplaceable why hwhy =>
    rw [h.now]
    refine .unplaceable why ?_
    cases hwhy with
    | busy hname => exact .busy hname
    | nameTooLong hname => exact .nameTooLong hname
    | isDirectory l hl hget => exact .isDirectory l (by rwa [h.locate] at hl) (h.tree ▸ hget)

theorem Replaced.told {l : Location} (replaced : s.Replaced v u octets l) (h : w.SameFiles v) :
    s.Replaced w u octets l := by
  have hspecies : v.species s.path = w.species s.path := by
    unfold World.species
    rw [h.locate, h.tree]
  obtain ⟨encoded, place, hasFile, vacant, read⟩ := replaced
  rw [h.locate] at place
  rw [h.now] at vacant
  rw [hspecies] at read
  exact ⟨encoded, place, h.hasFile hasFile, vacant, read⟩

theorem Replaced.tell {l : Location} (replaced : s.Replaced w v octets l) (h : v.SameFiles u) :
    s.Replaced w u octets l := by
  refine ⟨replaced.encoded, replaced.place, replaced.hasFile.sameFiles h, fun m hm => ?_,
    fun hdirectory hlinks => ?_⟩
  · rw [h.locate] at hm
    rw [h.tree]
    exact replaced.vacant m hm
  · rw [World.read, h.locate, h.tree]
    exact replaced.read hdirectory hlinks

/-! ### Saving -/

theorem run_save_idle (h : s.hasNothingToSave.run w = (.ok true, w)) (quiet : w.Quiet) :
    ∃ v, s.save.run w = (.ok (), v) ∧ w.SameFiles v := by
  obtain ⟨v, hv, hsame⟩ := Program.run_log quiet .debug
    "No labels to save and file doesn't exist. Skipping save."
  refine ⟨v, ?_, hsame⟩
  rw [save, Program.run_bind_ok h]
  exact hv

/-- Saving a store that has something to save. -/
theorem Ready.run_save (ready : s.Ready w) (h : s.hasNothingToSave.run w = (.ok false, w)) :
    (∃ f v, s.save.run w = (.error f, v) ∧ s.Fault w f ∧ w.SameEntries v) ∨
      ∃ v octets l, s.save.run w = (.ok (), v) ∧ s.Replaced w v octets l := by
  rw [save, Program.run_bind_ok h, if_neg (by simp)]
  cases hparent : lacksParent s.path with
  | true => exact Or.inl ⟨_, w, rfl, .noParent hparent, fun _ => rfl, rfl, ready.quiet⟩
  | false =>
    rw [if_neg (by simp), Program.run_bind_ok Program.run_now]
    dsimp only
    obtain ⟨w', hlog, told⟩ := Program.run_log ready.quiet .debug
      (Text.concat ["Atomically saving labels to ", s.path.text, " via temporary file ",
        (temporaryFor s.path w.now).text])
    rw [Program.run_bind_ok hlog, ← told.now]
    rcases (ready.told told).run_replaceFile hparent with
      ⟨f, v, hrun, fault, hsame⟩ | ⟨v, octets, l, hrun, replaced⟩
    · exact Or.inl ⟨f, v, Program.run_bind_error hrun _, fault.told told,
        told.sameEntries.trans hsame⟩
    · rw [Program.run_bind_ok hrun]
      obtain ⟨u, hlog, tell⟩ := Program.run_logEvent replaced.hasFile.quiet _
      exact Or.inr ⟨u, octets, l, hlog, (replaced.tell tell).told told⟩

/-- What saving a store can end in. -/
inductive Ending where
  | nothing
  | replaced
  | failed

/-- What a world and a result have to be for an ending. -/
def Ending.Holds (s : Store) (w : World) (result : Except Failure Unit) (v : World) : Ending → Prop
  | nothing => s.collection.isEmpty = true ∧ w.LeadsNowhere s.path ∧ result = .ok () ∧
      w.SameEntries v
  | replaced => result = .ok () ∧ ∃ octets l, s.Replaced w v octets l
  | failed => ∃ f, result = .error f ∧ s.Fault w f ∧ f.path? = some s.path ∧ w.SameEntries v ∧
      ∀ m, v.locate .entry (temporaryFor s.path w.now) = .ok m → v.tree.get? m = none

/-- The question whether there is a file that an empty store would replace gets no answer, since a name
on the way is too long, as it can be that a link leads to. -/
def Unanswered (s : Store) (w : World) : Prop :=
  s.collection.isEmpty = true ∧ w.species s.path = .error (.system .nameTooLong s.path.text none)

theorem Unanswered.leadsNowhere (h : s.Unanswered w) : w.LeadsNowhere s.path := by
  intro kind hkind
  rw [h.2] at hkind
  cases hkind

theorem Fault.path_eq {f : Failure} (h : s.Fault w f) (proper : s.path.Proper) :
    f.path? = some s.path := by
  have hpath : ∀ what cause, (Failure.file what s.path.text cause).path? = some s.path :=
    fun _ _ => congrArg some (Path.ofText_text proper)
  cases h <;> exact hpath _ _

/-- A path at which nothing is found cannot have been replaced without a change. -/
theorem Replaced.changes {l : Location} (replaced : s.Replaced w v octets l) (same : w.SameEntries v)
    (hhanded : s.path.handedOver = .ok s.path.text) : ¬ w.LeadsNowhere s.path := by
  intro hnowhere
  obtain ⟨number, content, hfile, -⟩ := replaced.hasFile.file
  rw [same.get?] at hfile
  have hentry := replaced.place
  rw [World.locate_of_handedOver hhanded] at hentry
  cases hwalk : w.tree.walk .entry Tree.maxLinks (w.start s.path) s.path.names with
  | error why => rw [hwalk] at hentry; cases hentry
  | ok m =>
    rw [hwalk] at hentry
    obtain rfl : m = l := Except.ok.inj hentry
    refine hnowhere .file ?_
    rw [World.species, World.locate_of_handedOver hhanded, Tree.walk_target_of_entry hwalk hfile]
    simp only [Except.mapError, Tree.species, hfile]
    rfl

/-- The endings exclude each other. -/
theorem Ending.Holds.unique {result : Except Failure Unit} {e e' : Ending}
    (hhanded : s.path.handedOver = .ok s.path.text) (h : e.Holds s w result v)
    (h' : e'.Holds s w result v) : e = e' := by
  have hclash : nothing.Holds s w result v → ¬ replaced.Holds s w result v := by
    rintro ⟨-, hnowhere, -, same⟩ ⟨-, _, _, hreplaced⟩
    exact hreplaced.changes same hhanded hnowhere
  have hok : failed.Holds s w result v → result ≠ .ok () := by
    rintro ⟨f, rfl, -⟩ heq
    cases heq
  cases e <;> cases e'
  case nothing.replaced => exact absurd h' (hclash h)
  case replaced.nothing => exact absurd h (hclash h')
  case nothing.failed => exact absurd h.2.2.1 (hok h')
  case failed.nothing => exact absurd h'.2.2.1 (hok h)
  case replaced.failed => exact absurd h.1 (hok h')
  case failed.replaced => exact absurd h'.1 (hok h)
  all_goals rfl

/-- Saving a store ends in exactly one of three ways, unless the question whether there is a file goes
unanswered; then the refusal ends it and nothing has happened. -/
theorem save_all_or_nothing (ready : s.Ready w) :
    ((∃! e : Ending, e.Holds s w (s.save.run w).1 (s.save.run w).2) ↔ ¬ s.Unanswered w) ∧
      (s.Unanswered w →
        s.save.run w = (.error (.refused (.system .nameTooLong s.path.text none)), w)) := by
  have hunanswered : s.Unanswered w →
      s.save.run w = (.error (.refused (.system .nameTooLong s.path.text none)), w) := by
    intro h
    rcases run_hasNothingToSave_nowhere h.1 ready.handedOver h.leadsNowhere with
      ⟨-, hspecies⟩ | ⟨hrun, -⟩
    · exact absurd h.2 hspecies
    · rw [save, Program.run_bind_error hrun]
  have hworks : s.hasNothingToSave.run w = (.ok false, w) →
      ∃ e : Ending, e.Holds s w (s.save.run w).1 (s.save.run w).2 := by
    intro h
    rcases ready.run_save h with ⟨f, v, hrun, fault, same⟩ | ⟨v, octets, l, hrun, hreplaced⟩
    · rw [hrun]
      refine ⟨.failed, f, rfl, fault, fault.path_eq ready.proper, same, fun m hm => ?_⟩
      rw [same.get?]
      exact ready.vacant m (by rwa [same.locate] at hm)
    · rw [hrun]
      exact ⟨.replaced, rfl, octets, l, hreplaced⟩
  refine ⟨⟨?_, fun h => ?_⟩, hunanswered⟩
  · rintro ⟨e, he, -⟩ h
    rw [hunanswered h] at he
    cases e with
    | nothing => cases he.2.2.1
    | replaced => cases he.1
    | failed =>
      obtain ⟨f, hf, -, hpath, -⟩ := he
      rw [← Except.error.inj hf] at hpath
      cases hpath
  · refine existsUnique_of_exists_of_unique ?_ fun _ _ => Ending.Holds.unique ready.handedOver
    by_cases hidle : s.collection.isEmpty = true ∧ w.LeadsNowhere s.path
    · obtain ⟨hempty, hnowhere⟩ := hidle
      rcases run_hasNothingToSave_nowhere hempty ready.handedOver hnowhere with
        ⟨hrun, -⟩ | ⟨-, hspecies⟩
      · obtain ⟨v, hv, told⟩ := run_save_idle hrun ready.quiet
        rw [hv]
        exact ⟨.nothing, hempty, hnowhere, rfl, told.sameEntries⟩
      · exact absurd ⟨hempty, hspecies⟩ h
    · exact hworks (run_hasNothingToSave_some hidle)

/-- A name that is longer than names can be. -/
def longName : Text := List.replicate 256 (.scalar 'x')

/-- The name of a link. -/
def linkName : Text := "a"

/-- A store without records in a directory behind the link. -/
def linkedStore : Store := ⟨.empty, ⟨.here, [linkName, fileName]⟩⟩

/-- A world in which the link leads to a name that is too long. -/
def linkedWorld : World :=
  ⟨⟨[([linkName], .link longName)], [], 0⟩, [], [], [], none, 0, [], [], .initial⟩

theorem linkedWorld_get? (l : Location) (hl : l ≠ []) :
    linkedWorld.tree.get? l = if l = [linkName] then some (.link longName) else none := by
  rw [Tree.get?_of_ne_nil _ hl]
  exact Tree.lookup_cons_ite _ _ _ _

theorem linkedWorld_locate (aim : Tree.Aim) {p : Path} {t : Text} (hhanded : p.handedOver = .ok t)
    (hanchor : p.anchor = .here) (hnames : p.names = [linkName] ++ [name]) (hname : name ≠ []) :
    linkedWorld.locate aim p = .error (.system .nameTooLong p.text none) := by
  have hlong : longName ≠ ".." ∧ longName ≠ "." ∧ longName ≠ [] ∧
      Tree.maxNameLength < Tree.nameLength longName := by decide +kernel
  have hdescend : linkedWorld.tree.descend Tree.maxLinks [] [linkName] = .error .nameTooLong := by
    rw [Tree.descend, if_neg (by decide), if_neg (by decide), if_neg (by decide), List.nil_append,
      linkedWorld_get? _ (by simp), if_pos rfl]
    simp only [Tree.maxLinks, ite_self]
    rw [show Path.stepsOf longName = [longName] by decide +kernel, List.append_nil, Tree.descend,
      if_neg hlong.1, if_neg (by simp [hlong.2.1, hlong.2.2.1]), if_pos hlong.2.2.2]
  have hstart : linkedWorld.start p = [] := by rw [World.start, hanchor]; rfl
  rw [World.locate_of_handedOver hhanded, hstart, hnames, Tree.walk_append hname, hdescend]
  rfl

theorem linkedWorld_sound : linkedWorld.Sound := ⟨Tree.sound_of_single linkedWorld_get?, rfl⟩

theorem linkedWorld_quiet : linkedWorld.Quiet := by simp [World.Quiet, linkedWorld, Logger.initial]

theorem linkedStore_ready : linkedStore.Ready linkedWorld := by
  have hpath : linkedStore.path = .ofText "a/labels.jsonl" := by decide +kernel
  refine ⟨⟨linkedWorld_sound, linkedWorld_quiet, hpath ▸ Path.ofText_proper _, by decide +kernel,
    by decide +kernel⟩, fun l hl => ?_⟩
  have hhanded : (temporaryFor linkedStore.path linkedWorld.now).handedOver =
      .ok (temporaryFor linkedStore.path linkedWorld.now).text := by decide +kernel
  rw [linkedWorld_locate .entry hhanded rfl rfl (temporaryName_isName _).2.2] at hl
  cases hl

theorem linkedStore_unanswered : linkedStore.Unanswered linkedWorld := by
  refine ⟨rfl, ?_⟩
  rw [World.species, linkedWorld_locate .target linkedStore_ready.handedOver rfl rfl (by decide)]

/-- A store with a record beside the link. -/
def besideStore : Store := ⟨⟨[⟨.address, "c", some "rent", [], rfl⟩]⟩, ⟨.here, [fileName]⟩⟩

theorem besideStore_ready : besideStore.Ready linkedWorld := by
  have hpath : besideStore.path = .ofText "labels.jsonl" := by decide +kernel
  refine ⟨⟨linkedWorld_sound, linkedWorld_quiet, hpath ▸ Path.ofText_proper _, by decide +kernel,
    by decide +kernel⟩, fun l hl => ?_⟩
  have hhanded : (temporaryFor besideStore.path linkedWorld.now).handedOver =
      .ok (temporaryFor besideStore.path linkedWorld.now).text := by decide +kernel
  rcases World.spot_or_refused rfl (temporaryName_isName linkedWorld.now) (Or.inl hhanded) with
    ⟨d, spot⟩ | ⟨why, hrefused⟩
  · rw [spot.locate_entry] at hl
    rw [← Except.ok.inj hl, linkedWorld_get? _ (by simp), if_neg]
    intro heq
    have hname := congrArg List.getLast? heq
    rw [List.getLast?_concat] at hname
    revert hname
    decide
  · rw [hrefused] at hl
    cases hl

/-- A store beside the link is saved in one of the three ways; the store behind it is not, but for a
reason that is no failure of a label file. -/
theorem save_all_or_nothing_samples :
    (∃! e : Ending, e.Holds besideStore linkedWorld (besideStore.save.run linkedWorld).1
      (besideStore.save.run linkedWorld).2) ∧
    (¬ ∃! e : Ending, e.Holds linkedStore linkedWorld (linkedStore.save.run linkedWorld).1
      (linkedStore.save.run linkedWorld).2) ∧
    linkedStore.save.run linkedWorld =
      (.error (.refused (.system .nameTooLong linkedStore.path.text none)), linkedWorld) := by
  have h := save_all_or_nothing linkedStore_ready
  refine ⟨(save_all_or_nothing besideStore_ready).1.mpr fun hunanswered => ?_,
    fun hunique => h.1.mp hunique linkedStore_unanswered, h.2 linkedStore_unanswered⟩
  cases hunanswered.1

end Store

end LabelBook
