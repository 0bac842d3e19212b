import LabelBook.Proofs.Store.Loading

/-!
What failures of label files say. The text of a failure is put together from the path that it names and
the text of its cause, so both stand in it, and the number of a line stands at its end. Only saving words
its failures itself. When the temporary file cannot be written, the text names that file and goes on
with what was behind the failure to write it, past the failure itself.
-/

namespace LabelBook

namespace Failure

/-- A failure that says all it knows: the path that it names and the text of its cause stand in its own
text, and the number of its line at the end of it. -/
structure TellsAll (f : Failure) : Prop where
  path : ∀ p, f.path? = some p → p.text <:+: f.message
  cause : ∀ c, f.cause? = some c → c.message <:+: f.message
  line : ∀ n, f.line? = some n → Text.concat ["(line ", Text.ofInt n, ")"] <:+ f.message

/-- A failure that is due to one of writing a label file. -/
def OfWriting (f : Failure) : Prop :=
  ∃ path cause, f.cause? = some (.file .writing path cause)

end Failure

/-- What was being done to a label file, if the text of the failure is made of its path and its cause. -/
def Trouble.isPlain : Trouble → Bool
  | .general _ | .saving _ => false
  | _ => true

namespace Failure

variable {what : Trouble} {path : Text} {cause : Option Text} {p : Path}

theorem infix_concat {t : Text} {parts : List Text} (h : t ∈ parts) : t <:+: Text.concat parts :=
  List.infix_of_mem_flatten h

theorem fileMessage_path (h : what.isPlain = true) : path <:+: fileMessage what path cause := by
  cases what with
  | general _ | saving _ => cases h
  | _ => exact infix_concat (by simp)

theorem fileMessage_cause (h : what.isPlain = true) (t : Text) :
    t <:+: fileMessage what path (some t) := by
  have hcolon : t <:+: afterColon (some t) := infix_concat (by simp)
  cases what with
  | general _ | saving _ => cases h
  | loading => exact infix_concat (by simp)
  | _ => exact hcolon.trans (infix_concat (by simp))

theorem fileMessage_line (n : Int) :
    Text.concat ["(line ", Text.ofInt n, ")"] <:+ fileMessage (.malformed (some n)) path cause := by
  refine ⟨Text.concat ["malformed label file ", path, afterColon cause, " "], ?_⟩
  simp [fileMessage, Text.concat, Text.ofString]

theorem message_file (cause : Option Failure) :
    (file what path cause).message = fileMessage what path (cause.map message) := by
  cases cause <;> rfl

/-- The path of a failure about a file is that of the file. -/
theorem path_text (proper : p.Proper) {cause : Option Failure} :
    ∀ q, (file what p.text cause).path? = some q → q = p := by
  rintro q ⟨⟩
  exact Path.ofText_text proper

theorem tellsAll_file (h : what.isPlain = true) (proper : p.Proper) (cause : Option Failure) :
    (file what p.text cause).TellsAll := by
  refine ⟨fun q hq => ?_, ?_, fun n hn => ?_⟩
  · obtain rfl := path_text proper q hq
    rw [message_file]
    exact fileMessage_path h
  · rintro c rfl
    exact fileMessage_cause h c.message
  · rw [message_file]
    cases what with
    | malformed m =>
      cases hn
      exact fileMessage_line n
    | _ => cases hn

end Failure

/-! ### Reading and writing -/

namespace Program

variable {α : Type}

/-- What can be refused fails with the refusal. -/
theorem failsAs_attempt (r : Request) (answer : r.Answer → Except Refusal α) :
    (attempt r answer).FailsAs fun f => ∃ e, f = .refused e := by
  intro w f hrun
  rw [run_attempt] at hrun
  cases h : answer (w.answer r).1 with
  | error e =>
    rw [h] at hrun
    exact ⟨e, (Except.error.inj hrun).symm⟩
  | ok a =>
    rw [h] at hrun
    cases hrun

/-- Logging does not fail. -/
theorem failsAs_logEvent (F : Failure → Prop) (e : Event) : (logEvent e).FailsAs F := by
  intro w f hrun
  obtain ⟨v, hv, -⟩ := World.tells_logEvent e w
  rw [hv] at hrun
  cases hrun

theorem failsAs_log (F : Failure → Prop) (level : Level) (message : Text) :
    (log level message).FailsAs F := failsAs_logEvent F _

theorem failsAs_exists? (p : Path) : (exists? p).FailsAs fun f => ∃ e, f = .refused e := by
  intro w f hrun
  unfold exists? at hrun
  rw [run_ask] at hrun
  split at hrun
  · cases hrun
  · split at hrun
    · cases hrun
    · exact ⟨_, (Except.error.inj hrun).symm⟩
  · cases hrun

end Program

open Program

namespace LabelFile

variable {w : World} {p : Path} {f : Failure}

theorem Ending.tellsAll (h : Ending w p (.error f)) (proper : p.Proper) : f.TellsAll := by
  cases h <;> exact Failure.tellsAll_file rfl proper _

theorem failsAs_read (proper : p.Proper) :
    (read p).FailsAs fun f => f.isFile = true → f.TellsAll := by
  intro w f hrun hfile
  rw [run_read] at hrun
  dsimp only at hrun
  rcases ending_or_escape w p with ending | ⟨g, escape⟩
  · rw [hrun] at ending
    exact ending.tellsAll proper
  · obtain rfl := Except.error.inj (escape.contents.symm.trans hrun)
    cases escape.isFile.symm.trans hfile

theorem failsAs_write (c : Collection) (p : Path) :
    (write c p).FailsAs fun f => ∃ cause, f = .file .writing p.text (some cause) :=
  FailsAs.orElse (F := fun _ => True) (fun _ _ _ => trivial) fun f _ => failsAs_fail ⟨f, rfl⟩

end LabelFile

namespace Store

/-! ### Opening -/

theorem failsAs_openIn {directory : Path} (proper : directory.Proper) :
    (openIn directory).FailsAs fun f => f.isFile = true → f.TellsAll := by
  have hproper := child_proper proper
  unfold openIn
  refine (failsAs_log _ _ _).bind fun _ => ?_
  refine (LabelFile.failsAs_read hproper).outcome_bind (fun c => ?_) fun f _ => ?_
  · exact (failsAs_logEvent _ _).bind fun _ => failsAs_pure _
  · dsimp only
    split
    · next h => cases h
    · exact (failsAs_log _ _ _).bind fun _ => failsAs_pure _
    · next g _ h =>
      split
      · exact failsAs_fail fun _ => Failure.tellsAll_file rfl hproper _
      · next hnot =>
        exact failsAs_fail fun hg => absurd hg hnot

/-! ### Saving -/

/-- The failure to write the temporary file, as saving passes it on. -/
def unwritten (temporary path : Path) (e : Failure) : Failure :=
  exportFailure temporary path (.file .writing temporary.text (some e))

/-- How the text of a failed export begins. -/
def exportLead : Text := "Failed to export labels to temporary file "

/-- How the text of a failure to write begins. -/
def writeLead : Text := "cannot write label file "

/-- The text of the failure to write is nowhere in that of the failed export: what follows the two leads is
the same, so it would have to begin within the longer lead, at a place where there is no letter that
it begins with. -/
theorem not_tellsAll_unwritten (temporary path : Path) (e : Failure) :
    ¬ (unwritten temporary path e).TellsAll := by
  intro h
  obtain ⟨before, after, heq⟩ := h.cause _ rfl
  have htext : before ++ (writeLead ++ (temporary.text ++ ": " ++ e.message)) ++ after =
      exportLead ++ (temporary.text ++ ": " ++ e.message) := by
    simpa [unwritten, exportFailure, causeText, Failure.cause?, Failure.message, Failure.fileMessage,
      Failure.afterColon, Text.concat, writeLead, exportLead] using heq
  generalize temporary.text ++ ": " ++ e.message = rest at htext
  have hlength := congrArg List.length htext
  have hwrite : writeLead.length = 24 := rfl
  have hexport : exportLead.length = 42 := rfl
  simp only [List.length_append, hwrite, hexport] at hlength
  have hlead : (exportLead ++ rest)[before.length]? = exportLead[before.length]? :=
    List.getElem?_append_left (by omega)
  have hnone : ∀ i < 19, exportLead[i]? ≠ some (.scalar 'c') := by decide
  apply hnone before.length (by omega)
  rw [← hlead, ← htext, List.append_assoc, List.append_assoc, List.getElem?_append_right le_rfl,
    Nat.sub_self]
  rfl

theorem failsAs_discard (temporary : Path) :
    (discard temporary).FailsAs fun f => f.isFile = false := by
  unfold discard
  refine (failsAs_attempt _ _).outcome_bind (fun _ => failsAs_pure _) ?_
  rintro _ ⟨e, rfl⟩
  split
  · exact failsAs_pure _
  · split
    · exact failsAs_log _ _ _
    · exact failsAs_pure _
  · next heq =>
    cases heq
    exact failsAs_fail rfl

/-- A failure of saving a store that is kept at a path. -/
def SaveFails (path : Path) (f : Failure) : Prop :=
  f.isFile = true → (f.TellsAll ∧ ¬ f.OfWriting) ∨ ∃ temporary e, f = unwritten temporary path e

theorem saveFails_of_not_file {path : Path} {f : Failure} (h : f.isFile = false) : SaveFails path f :=
  fun hfile => absurd (h.symm.trans hfile) (by decide)

theorem tellsAll_renameFailure {path : Path} (proper : path.Proper) (temporary : Path) (f : Failure) :
    (renameFailure temporary path f).TellsAll := by
  refine ⟨fun q hq => ?_, ?_, fun n hn => by cases hn⟩
  · obtain rfl := Failure.path_text proper q hq
    exact Failure.infix_concat (by simp)
  · rintro c ⟨⟩
    exact Failure.infix_concat (by simp)

theorem tellsAll_parentFailure {path : Path} (proper : path.Proper) : (parentFailure path).TellsAll := by
  refine ⟨fun q hq => ?_, fun c hc => ?_, fun n hn => ?_⟩
  · obtain rfl := Failure.path_text proper q hq
    exact Failure.infix_concat (by simp)
  · cases hc
  · cases hn

theorem failsAs_replaceFile (s : Store) (proper : s.path.Proper) (temporary : Path) :
    (s.replaceFile temporary).FailsAs (SaveFails s.path) := by
  have hdiscard : (discard temporary).FailsAs (SaveFails s.path) :=
    (failsAs_discard temporary).mono fun f => saveFails_of_not_file
  unfold replaceFile
  refine (LabelFile.failsAs_write _ _).outcome_bind (fun _ => ?_) ?_
  · refine (failsAs_attempt _ _).outcome_bind (fun _ => failsAs_pure _) ?_
    rintro _ ⟨e, rfl⟩
    dsimp only
    split
    · refine hdiscard.bind fun _ => failsAs_fail fun _ => ?_
      refine .inl ⟨tellsAll_renameFailure proper _ _, ?_⟩
      rintro ⟨_, _, ⟨⟩⟩
    · exact failsAs_fail (saveFails_of_not_file rfl)
  · rintro _ ⟨e, rfl⟩
    exact hdiscard.bind fun _ => failsAs_fail fun _ => .inr ⟨temporary, e, rfl⟩

theorem failsAs_hasNothingToSave (s : Store) :
    s.hasNothingToSave.FailsAs fun f => f.isFile = false := by
  unfold hasNothingToSave
  split
  · refine ((failsAs_exists? _).mono ?_).bind fun _ => failsAs_pure _
    rintro _ ⟨e, rfl⟩
    rfl
  · exact failsAs_pure _

theorem failsAs_save (s : Store) (proper : s.path.Proper) : s.save.FailsAs (SaveFails s.path) := by
  unfold save
  refine ((failsAs_hasNothingToSave s).mono fun f => saveFails_of_not_file).bind fun idle => ?_
  split
  · exact failsAs_log _ _ _
  · split
    · refine failsAs_fail fun _ => .inl ⟨tellsAll_parentFailure proper, ?_⟩
      rintro ⟨_, _, ⟨⟩⟩
    · refine FailsAs.bind (fun _ _ h => by cases h) fun now => ?_
      refine (failsAs_log _ _ _).bind fun _ => ?_
      exact (failsAs_replaceFile s proper _).bind fun _ => failsAs_logEvent _ _

/-- Whatever the files are and whatever is written, a failure of reading or writing a label file or of
opening a store says all it knows. A failure of saving does so unless the temporary file could not be
written, and then it never does: it names that file, and what is behind the failure to write it. -/
theorem failures_tell_all {w v : World} {f : Failure} (hfile : f.isFile = true) (t : Text)
    (c : Collection) :
    ((LabelFile.read (.ofText t)).run w = (.error f, v) → f.TellsAll) ∧
    ((LabelFile.write c (.ofText t)).run w = (.error f, v) → f.TellsAll) ∧
    ((openIn (.ofText t)).run w = (.error f, v) → f.TellsAll) ∧
    ((save ⟨c, .ofText t⟩).run w = (.error f, v) →
      (f.TellsAll ↔ ¬ f.OfWriting) ∧
      (f.OfWriting → ∃ temporary e, f = exportFailure temporary (.ofText t)
        (.file .writing temporary.text (some e)))) := by
  have proper := Path.ofText_proper t
  refine ⟨fun h => ?_, fun h => ?_, fun h => ?_, fun h => ?_⟩
  · exact LabelFile.failsAs_read proper w f (by rw [h]) hfile
  · obtain ⟨e, rfl⟩ := LabelFile.failsAs_write c _ w f (by rw [h])
    exact Failure.tellsAll_file rfl proper _
  · exact failsAs_openIn proper w f (by rw [h]) hfile
  · rcases failsAs_save ⟨c, .ofText t⟩ proper w f (by rw [h]) hfile with
      ⟨tells, hnot⟩ | ⟨temporary, e, rfl⟩
    · exact ⟨iff_of_true tells hnot, fun hof => absurd hof hnot⟩
    · have hof : (unwritten temporary (.ofText t) e).OfWriting := ⟨_, _, rfl⟩
      exact ⟨iff_of_false (not_tellsAll_unwritten _ _ _) (not_not_intro hof), fun _ => ⟨_, e, rfl⟩⟩

/-- A world in which the label file has a line that is no record. -/
def jumbledWorld : World := fileWorld [0x78, 0x0A]

/-- What reading that file fails with. -/
def jumbled : Failure :=
  .file (.malformed (some 1)) "labels.jsonl" (some (.json (.malformed .value 0 1 1)))

/-- The refusal to write a file in a directory that is not there. -/
def noDirectory (path : Text) : Failure := .refused (.system .notFound path none)

/-- What saving fails with in a directory that is not there. -/
def unsaved : Failure :=
  unwritten (.ofText "no/.labels.jsonl.tmp.0") (.ofText "no/a") (noDirectory "no/.labels.jsonl.tmp.0")

set_option maxRecDepth 20000 in
/-- A line that is no record is told in full, and so is a path without a place for a file, and a directory
that is not there if a file is written in it; but not if a store is saved in it. -/
theorem failures_tell_all_jumbled :
    (jumbled.TellsAll ∧ (Failure.file .loading "labels.jsonl" (some jumbled)).TellsAll) ∧
    (Failure.file .writing "no/a" (some (noDirectory "no/a"))).TellsAll ∧
    (parentFailure (.ofText ".")).TellsAll ∧
    ∃ v, (save ⟨⟨[Collection.plainRecord]⟩, .ofText "no/a"⟩).run jumbledWorld = (.error unsaved, v) ∧
      ¬ unsaved.TellsAll := by
  have hread : ((LabelFile.read (.ofText "labels.jsonl")).run jumbledWorld).1 = .error jumbled := by cbv
  have hopen : ((openIn (.ofText ".")).run jumbledWorld).1 =
      .error (.file .loading "labels.jsonl" (some jumbled)) := by cbv
  have hwrite : ((LabelFile.write .empty (.ofText "no/a")).run jumbledWorld).1 =
      .error (.file .writing "no/a" (some (noDirectory "no/a"))) := by cbv
  have hroot : ((save ⟨⟨[Collection.plainRecord]⟩, .ofText "."⟩).run jumbledWorld).1 =
      .error (parentFailure (.ofText ".")) := by cbv
  have hsave : ((save ⟨⟨[Collection.plainRecord]⟩, .ofText "no/a"⟩).run jumbledWorld).1 =
      .error unsaved := by cbv
  refine ⟨⟨?_, ?_⟩, ?_, ?_, _, Prod.ext hsave rfl, fun tells => ?_⟩
  · exact (failures_tell_all rfl "labels.jsonl" .empty).1 (Prod.ext hread rfl)
  · exact (failures_tell_all rfl "." .empty).2.2.1 (Prod.ext hopen rfl)
  · exact (failures_tell_all rfl "no/a" .empty).2.1 (Prod.ext hwrite rfl)
  · refine ((failures_tell_all rfl "." _).2.2.2 (Prod.ext hroot rfl)).1.mpr ?_
    rintro ⟨_, _, ⟨⟩⟩
  · exact ((failures_tell_all rfl "no/a" _).2.2.2 (Prod.ext hsave rfl)).1.mp tells ⟨_, _, rfl⟩

end Store

end LabelBook
