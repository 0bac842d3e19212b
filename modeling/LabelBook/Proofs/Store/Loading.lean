import LabelBook.Proofs.Log.Emitting
import LabelBook.Proofs.Record.Lines
import LabelBook.Proofs.Store.Dictionary

/-!
Failures of loading. A label file is read to the first line that is neither blank nor a record, and what
is wrong with that line decides how the reading ends: a complaint about it makes the file malformed and
is told with the number of the line, but a limit of the JSON reader comes through as it is. Apart from
such a line, only a path that no file can have makes a reading end with a failure that is none of a
label file; and so does opening a store, which does nothing besides but tell the log.
-/

namespace LabelBook

/-! ### Label files -/

namespace LabelFile

variable {w : World} {p : Path}

/-- The first line of a file that is neither blank nor a record, with its number. -/
def FirstBad (w : World) (p : Path) (number : Nat) (line : Text) : Prop :=
  ∃ octets t before after, w.read p = .ok octets ∧ Utf8.decode octets = .ok t ∧
    t.unifyLineEnds.lines = before ++ line :: after ∧ (∀ u ∈ before, Collection.Passes u) ∧
    line.isBlank = false ∧ number = before.length + 1

/-- What reading a label file is meant to end with, and when: a collection; a failure because there is no
file; one because the system refuses to read it; or one because its content is malformed, which names
the line unless it is about the octets. All of them name the path. -/
inductive Ending (w : World) (p : Path) : Except Failure Collection → Prop
  | whole {octets : Octets} {t : Text} {c : Collection} (read : w.read p = .ok octets)
      (decoded : Utf8.decode octets = .ok t) (content : Collection.ofText t.unifyLineEnds = .ok c) :
      Ending w p (.ok c)
  | missing {r : Refusal} (refused : w.read p = .error r)
      (why : ∃ target, r = .system .notFound p.text target) :
      Ending w p (.error (.file .missing p.text (some (.refused r))))
  | unreadable {r : Refusal} (refused : w.read p = .error r)
      (why : ∃ reason target, reason ≠ .notFound ∧ r = .system reason p.text target) :
      Ending w p (.error (.file .unreadable p.text (some (.refused r))))
  | undecodable {octets : Octets} {e : Utf8.DecodeError} (read : w.read p = .ok octets)
      (flaw : Utf8.decode octets = .error e) :
      Ending w p (.error (.file (.malformed none) p.text (some (.undecodable e))))
  | malformed {number : Nat} {line : Text} {cause : Failure} (first : FirstBad w p number line)
      (wrong : Record.ofLine number line = .error (.line number cause)) :
      Ending w p (.error (.file (.malformed (some number)) p.text (some cause)))

/-- What makes a reading end with a failure that is none of a label file: a path that cannot be handed to
the system, or a first bad line on which the JSON reader hits a limit. -/
inductive Escape (w : World) (p : Path) : Failure → Prop
  | path {r : Refusal} (handedOver : p.handedOver = .error r)
      (strange : ∀ reason path target, r ≠ .system reason path target) : Escape w p (.refused r)
  | limit {number : Nat} {line : Text} {e : Json.ParseError} (first : FirstBad w p number line)
      (parse : Json.parse line = .error e) (limit : e.IsLimit) : Escape w p (.json e)

theorem FirstBad.contents {number : Nat} {line : Text} (first : FirstBad w p number line) {f : Failure}
    (h : Record.ofLine number line = .error f) :
    LabelFile.contents w p = match f with
      | .line n cause => .error (.file (.malformed (some n)) p.text (some cause))
      | f => .error f := by
  obtain ⟨octets, t, before, after, hread, hdecode, hlines, hpasses, hblank, rfl⟩ := first
  have hrecords : Collection.recordsFrom 1 t.unifyLineEnds.lines = .error f :=
    Collection.recordsFrom_error_iff.mpr
      ⟨before, line, after, hlines, hpasses, hblank, by rwa [Nat.add_comm]⟩
  rw [LabelFile.contents, hread]
  dsimp only
  rw [Collection.ofOctets, hdecode]
  dsimp only
  rw [Collection.ofText, hrecords]
  cases f <;> rfl

/-- What lies behind a failure that is none of a label file ends a reading. -/
theorem Escape.contents {f : Failure} (h : Escape w p f) : LabelFile.contents w p = .error f := by
  cases h with
  | path hhanded hstrange =>
    rename_i r
    have hread : w.read p = .error r := by rw [World.read, World.locate, hhanded]
    rw [LabelFile.contents, hread]
    cases r with
    | system why path target => exact absurd rfl (hstrange why path target)
    | unencodable e => rfl
    | nullInPath => rfl
  | limit first hparse hlimit => exact first.contents (Record.ofLine_limit hparse hlimit)

theorem Escape.isFile {f : Failure} (h : Escape w p f) : f.isFile = false := by
  cases h <;> rfl

/-- A refusal to read a file is the system's and names the path, or the path cannot be handed over. -/
theorem read_error {r : Refusal} (h : w.read p = .error r) :
    (∃ why, r = .system why p.text none) ∨
      p.handedOver = .error r ∧ ∀ why path target, r ≠ .system why path target := by
  cases hhanded : p.handedOver with
  | error q =>
    have hq : q = r := by
      rw [World.read, World.locate, hhanded] at h
      exact Except.error.inj h
    subst hq
    cases q with
    | system why path target =>
      obtain ⟨rfl, rfl, rfl⟩ := Path.handedOver_refusal hhanded
      exact Or.inl ⟨_, rfl⟩
    | unencodable e => exact Or.inr ⟨rfl, fun _ _ _ heq => by cases heq⟩
    | nullInPath => exact Or.inr ⟨rfl, fun _ _ _ heq => by cases heq⟩
  | ok t =>
    cases hlocate : w.locate .target p with
    | error q =>
      obtain ⟨why, rfl, -⟩ := World.locate_error hhanded hlocate
      rw [World.read, hlocate] at h
      exact Or.inl ⟨why, (Except.error.inj h).symm⟩
    | ok l =>
      rw [World.read_of_locate hlocate] at h
      cases htree : w.tree.read l with
      | error why =>
        rw [htree] at h
        exact Or.inl ⟨why, (Except.error.inj h).symm⟩
      | ok octets => rw [htree] at h; cases h

/-- Every reading ends as it is meant to, or with something that is let through. -/
theorem ending_or_escape (w : World) (p : Path) :
    Ending w p (LabelFile.contents w p) ∨ ∃ f, Escape w p f := by
  cases hread : w.read p with
  | error r =>
    rcases read_error hread with ⟨why, rfl⟩ | ⟨hhanded, hstrange⟩
    · refine Or.inl ?_
      rw [contents, hread]
      dsimp only [readFailure]
      by_cases hwhy : why = .notFound
      · subst hwhy
        exact .missing hread ⟨none, rfl⟩
      · rw [if_neg hwhy]
        exact .unreadable hread ⟨why, none, hwhy, rfl⟩
    · exact Or.inr ⟨_, .path hhanded hstrange⟩
  | ok octets =>
    cases hdecode : Utf8.decode octets with
    | error e =>
      refine Or.inl ?_
      rw [contents, hread]
      dsimp only
      rw [Collection.ofOctets, hdecode]
      exact .undecodable hread hdecode
    | ok t =>
      cases hrecords : Collection.recordsFrom 1 t.unifyLineEnds.lines with
      | ok rs =>
        have htext : Collection.ofText t.unifyLineEnds = .ok ⟨rs⟩ := by
          rw [Collection.ofText, hrecords]
          rfl
        refine Or.inl ?_
        rw [contents, hread]
        dsimp only
        rw [Collection.ofOctets, hdecode]
        dsimp only
        rw [htext]
        exact .whole hread hdecode htext
      | error f =>
        obtain ⟨before, line, after, hlines, hpasses, hblank, hline⟩ :=
          Collection.recordsFrom_error_iff.mp hrecords
        rw [Nat.add_comm] at hline
        have first : FirstBad w p (before.length + 1) line :=
          ⟨octets, t, before, after, hread, hdecode, hlines, hpasses, hblank, rfl⟩
        rcases Record.ofLine_error_cases hline with ⟨cause, rfl⟩ | ⟨e, hparse, hlimit, rfl⟩
        · refine Or.inl ?_
          rw [first.contents hline]
          exact .malformed first hline
        · exact Or.inr ⟨_, .limit first hparse hlimit⟩

theorem Ending.isFile {f : Failure} (h : Ending w p (.error f)) : f.isFile = true := by
  cases h <;> rfl

/-- A reading ends as it is meant to exactly if nothing is let through. -/
theorem ending_iff (w : World) (p : Path) :
    Ending w p (LabelFile.contents w p) ↔ ¬ ∃ f, Escape w p f := by
  refine ⟨fun h ⟨f, hf⟩ => ?_, (ending_or_escape w p).resolve_right⟩
  rw [hf.contents] at h
  exact absurd (h.isFile.symm.trans hf.isFile) (by decide)

end LabelFile

/-! ### Stores -/

namespace Store

variable {w : World} {p : Path}

/-- What opening the store of a path is meant to end with: a store, which is empty exactly if there is no
file or no record in it, or a failure to load that names the path and is due to an ending of the
reading. -/
def Loads (w : World) (p : Path) (r : Except Failure Store) : Prop :=
  (∃ s, r = .ok s ∧ s.path = p ∧ (s.collection.isEmpty = true ↔
    (∃ target, w.read p = .error (.system .notFound p.text target)) ∨
      LabelFile.contents w p = .ok .empty)) ∨
  ∃ cause, r = .error (.file .loading p.text (some cause)) ∧ LabelFile.Ending w p (.error cause)

/-- What the reading of the file lets through ends the opening as well. -/
theorem opened_escape {f : Failure} (h : LabelFile.Escape w p f) : opened w p = .error f := by
  rw [opened_error h.contents fun path cause heq => ?_, if_neg (by simp [h.isFile])]
  rw [heq] at h
  cases h.isFile

/-- Opening ends as it is meant to exactly if nothing is let through by the reading of the file. -/
theorem loads_iff (w : World) (p : Path) :
    Loads w p (opened w p) ↔ ¬ ∃ f, LabelFile.Escape w p f := by
  constructor
  · rintro h ⟨f, hf⟩
    rw [opened_escape hf] at h
    rcases h with ⟨s, hs, -⟩ | ⟨cause, hcause, -⟩
    · cases hs
    · rw [Except.error.inj hcause] at hf
      cases hf.isFile
  · intro h
    have ending := (LabelFile.ending_iff w p).mpr h
    unfold opened
    split
    · next c hc =>
      refine .inl ⟨_, rfl, rfl, ?_⟩
      rw [hc, Collection.isEmpty_setAll]
      constructor
      · rintro ⟨-, hrecords⟩
        exact .inr (congrArg Except.ok (congrArg Collection.mk hrecords))
      · rintro (⟨target, hread⟩ | hempty)
        · rw [LabelFile.contents, hread] at hc
          cases hc
        · rw [Except.ok.inj hempty]
          exact ⟨rfl, rfl⟩
    · next path cause hc =>
      rw [hc] at ending
      refine .inl ⟨_, rfl, rfl, fun _ => .inl ?_, fun _ => rfl⟩
      cases ending with
      | missing refused why =>
        obtain ⟨target, rfl⟩ := why
        exact ⟨target, refused⟩
    · next f hf hc =>
      rw [hc] at ending
      rw [if_pos ending.isFile]
      exact .inr ⟨f, rfl, ending⟩

/-- Reading a label file changes nothing and ends as it is meant to, unless something is let through; and so
does opening a store, which looks at its file once the log has been told of it, and changes what the log
changes. -/
theorem openIn_loads_iff (w : World) (directory : Path) :
    (∀ p, ∃ r, (LabelFile.read p).run w = (r, w) ∧
      (LabelFile.Ending w p r ↔ ¬ ∃ f, LabelFile.Escape w p f) ∧
      ∀ f, LabelFile.Escape w p f → r = .error f) ∧
    ∃ u v r, w.Tells u ∧ u.Tells v ∧ (openIn directory).run w = (r, v) ∧
      (Loads u (directory.child fileName) r ↔
        ¬ ∃ f, LabelFile.Escape u (directory.child fileName) f) ∧
      (∀ f, LabelFile.Escape u (directory.child fileName) f → r = .error f) ∧
      (w.Quiet → w.SameFiles u ∧ w.SameFiles v) := by
  refine ⟨fun p => ⟨_, LabelFile.run_read p w, LabelFile.ending_iff w p, fun f hf => hf.contents⟩, ?_⟩
  obtain ⟨u, v, -, told, told', hrun⟩ := run_openIn_tells w directory
  refine ⟨u, v, _, told, told', hrun, loads_iff u _, fun f hf => opened_escape hf, fun quiet => ?_⟩
  have same := told.sameFiles quiet
  exact ⟨same, same.trans (told'.sameFiles same.quiet)⟩

/-- The content of a file whose only line is a number of so many ones. -/
def onesFile (n : Nat) : Octets := (List.replicate n '1' ++ ['\n']).flatMap Utf8.ofChar

theorem onesFile_firstBad {n : Nat} (hn : 0 < n) (h : w.read p = .ok (onesFile n)) :
    LabelFile.FirstBad w p 1 (List.replicate n (.scalar '1')) := by
  have hdecode : Utf8.decode (onesFile n) = .ok (List.replicate n (.scalar '1') ++ [.scalar '\n']) := by
    refine (Utf8.decodeFrom_flatMap _ 0 []).trans ?_
    simp [Text.ofChars]
  have hunify := Text.unifyLineEnds_eq
    (t := List.replicate n (.scalar '1') ++ [.scalar '\n']) (by simp)
  have hlines : Text.lines (List.replicate n (.scalar '1') ++ [.scalar '\n']) =
      [List.replicate n (.scalar '1')] := by
    refine Text.lines_append (List.any_eq_false.mpr fun c hc => ?_) []
    rw [List.eq_of_mem_replicate hc]
    decide
  refine ⟨onesFile n, _, [], [], h, hdecode, by rw [hunify, hlines]; rfl,
    fun u hu => absurd hu List.not_mem_nil, ?_, rfl⟩
  have hdigit : CodePoint.isBlank (.scalar '1') = false := by decide
  simp [Text.isBlank, hdigit, hn.ne']

/-- A world with a label file that holds an integer of one digit too many. -/
def onesWorld : World := fileWorld (onesFile (Json.maxDigits + 1))

/-- Such an integer ends the reading of the file, and the opening of its store, with a failure that is none
of a label file. -/
theorem openIn_loads_iff_ones : ∃ r s v,
    (LabelFile.read ⟨.here, [fileName]⟩).run onesWorld = (r, onesWorld) ∧
    ¬ LabelFile.Ending onesWorld ⟨.here, [fileName]⟩ r ∧
    (openIn ⟨.here, []⟩).run onesWorld = (s, v) ∧
    ∃ u, onesWorld.SameFiles u ∧ ¬ Loads u ⟨.here, [fileName]⟩ s := by
  have hread : onesWorld.read ⟨.here, [fileName]⟩ = .ok _ := fileWorld_read _
  have escapes : ∀ u : World, u.read ⟨.here, [fileName]⟩ = .ok (onesFile (Json.maxDigits + 1)) →
      ∃ f, LabelFile.Escape u ⟨.here, [fileName]⟩ f := fun u hu =>
    ⟨_, .limit (onesFile_firstBad (Nat.succ_pos _) hu) (Json.parse_ones (Nat.lt_succ_self _))
      (.tooManyDigits _)⟩
  obtain ⟨hfile, u, v, s, -, -, hrun, hloads, -, hquiet⟩ := openIn_loads_iff onesWorld ⟨.here, []⟩
  obtain ⟨r, hr, hending, -⟩ := hfile ⟨.here, [fileName]⟩
  have same := (hquiet (fileWorld_quiet _)).1
  refine ⟨r, s, v, hr, fun h => hending.mp h (escapes _ hread), hrun, u, same, fun h => ?_⟩
  exact hloads.mp h (escapes u ((same.sameEntries.read _).trans hread))

end Store

end LabelBook
