import LabelBook.Proofs.Log.Setup
import LabelBook.Proofs.Store.Resaving

/-!
Saving that fails, with a log in files. Until the temporary file is moved over the file of the store
nothing but that file and the log files are touched, and after the move nothing fails any more. So saving
that fails has not touched the file of the store.
-/

namespace LabelBook

open Log (At GoesTo Keeps)

variable {L : Location} {w v : World} {may also : Location → Prop} {q : Path}

namespace World

/-- A path that leads, for whatever it is walked, to some places only and to no link. -/
def LeadsInto (w : World) (may : Location → Prop) (q : Path) : Prop :=
  ∀ aim l, w.locate aim q = .ok l → may l ∧ ∀ target, w.tree.get? l ≠ some (.link target)

theorem LeadsInto.changes (h : w.LeadsInto may q) (hv : w.Changes also v) : v.LeadsInto may q := by
  intro aim l hl
  obtain ⟨hmay, hlink⟩ := h aim l (hv.locate_iff.mp hl)
  refine ⟨hmay, fun target => ?_⟩
  rw [Ne, hv.tree.ways.link_iff]
  exact hlink target

theorem LeadsInto.mono (h : w.LeadsInto may q) (hmay : ∀ m, may m → also m) : w.LeadsInto also q :=
  fun aim l hl => (h aim l hl).imp_left (hmay l)

theorem Tells.keeps (h : w.Tells v) (goes : GoesTo L w) (hmay : ∀ m, At L m → may m) :
    Keeps L may w v := by
  induction h with
  | refl => exact refl_of _ w
  | tail _ hstep ih =>
    obtain ⟨e, he⟩ := hstep
    have hnext := ((ih.goes goes).leads_logEvent hmay e).step
    rw [he] at hnext
    exact trans_of _ ih hnext

/-- A path to a directory in which no link stands under a name. -/
def NoLinkAt (w : World) (directory : Path) (n : Text) : Prop :=
  ∀ d target, w.tree.descend Tree.maxLinks (w.start directory) directory.names = .ok d →
    w.tree.get? (d.2 ++ [n]) ≠ some (.link target)

/-- A path to a name in a directory under which no link stands leads to a place in that directory,
whatever it is walked for. -/
theorem NoLinkAt.spot {directory : Path} {n : Text} {aim : Tree.Aim} {l : Location}
    (noLink : w.NoLinkAt directory n) (isName : Tree.IsName n)
    (hl : w.locate aim (directory.child n) = .ok l) :
    ∃ d, w.Spot (directory.child n) d n ∧ l = d.2 ++ [n] ∧
      ∀ target, w.tree.get? l ≠ some (.link target) := by
  have hdrop : (directory.child n).names.dropLast = directory.names := List.dropLast_concat
  have hnames : (directory.child n).names = (directory.child n).names.dropLast ++ [n] := by
    rw [hdrop, Path.child]
  rcases spot_or_refused (w := w) hnames isName (.inl (handedOver_of_locate hl)) with
    ⟨d, spot⟩ | ⟨why, hrefused⟩
  · have hlink := fun target => noLink d target (hdrop ▸ spot.directory)
    obtain rfl := Except.ok.inj ((spot.locate_of_no_link hlink aim).symm.trans hl)
    exact ⟨d, spot, rfl, hlink⟩
  · cases (hrefused aim).symm.trans hl

/-- A path to a directory in which there are no links. -/
def Unlinked (w : World) (directory : Path) : Prop :=
  ∀ d n target, w.tree.descend Tree.maxLinks (w.start directory) directory.names = .ok d →
    w.tree.get? (d.2 ++ [n]) ≠ some (.link target)

theorem Unlinked.noLinkAt {directory : Path} (unlinked : w.Unlinked directory) (n : Text) :
    w.NoLinkAt directory n := fun d => unlinked d n

theorem Unlinked.spot {directory : Path} {n : Text} {aim : Tree.Aim} {l : Location}
    (unlinked : w.Unlinked directory) (isName : Tree.IsName n)
    (hl : w.locate aim (directory.child n) = .ok l) :
    ∃ d, w.Spot (directory.child n) d n ∧ l = d.2 ++ [n] ∧
      ∀ target, w.tree.get? l ≠ some (.link target) := (unlinked.noLinkAt n).spot isName hl

end World

/-! ### Writing and taking away -/

theorem Log.GoesTo.leads_write (goes : GoesTo L w)
    (hmay : ∀ l, w.locate .writing q = .ok l → may l) (content : Octets) :
    (Program.write q content).Leads (Keeps L may) (fun _ _ => True) w := by
  have hwrite : (Program.write q content).Leads (World.Edits fun l => w.locate .writing q = .ok l)
      (fun _ _ => True) w := Program.leads_write goes.home.orderly (fun _ h => h) content
  refine hwrite.mono fun v hv => (Keeps.of_place hv ?_).mono hmay
  exact fun l m hl hm => Except.ok.inj (hl.symm.trans hm)

theorem Log.GoesTo.leads_remove (goes : GoesTo L w) (hq : w.LeadsInto may q) :
    (Program.remove q).Leads (Keeps L may) (fun _ _ => True) w := by
  have hremove : (Program.remove q).Leads (World.Edits fun l => w.locate .entry q = .ok l)
      (fun _ _ => True) w :=
    (Program.leads_remove goes.home.orderly fun l hl => ⟨hl, (hq _ l hl).2⟩).imp fun _ _ _ => trivial
  refine hremove.mono fun v hv => (Keeps.of_place hv ?_).mono fun l hl => (hq _ l hl).1
  exact fun l m hl hm => Except.ok.inj (hl.symm.trans hm)

theorem LabelFile.leads_write (goes : GoesTo L w)
    (hmay : ∀ l, w.locate .writing q = .ok l → may l) (c : Collection) :
    (LabelFile.write c q).Leads (Keeps L may) (fun _ _ => True) w := by
  unfold LabelFile.write
  refine Program.Leads.orElse ?_ fun f v _ => .fail
  refine (Program.asks_ofExcept _).leads.bind fun t v hv _ => ?_
  have hmay' : ∀ {u : World}, Keeps L may w u → ∀ l, u.locate .writing q = .ok l → may l :=
    fun hu l hl => hmay l (hu.locate_iff.mp hl)
  unfold LabelFile.writeText
  refine ((hv.goes goes).leads_write (hmay' hv) []).bind fun _ u hu _ => ?_
  have hwu := trans_of (Keeps L may) hv hu
  split
  · exact .fail
  · exact (hwu.goes goes).leads_write (hmay' hwu) _

theorem Tree.write_ok {t u : Tree} {l : Location} {octets : Octets} (h : t.write l octets = .ok u) :
    ∃ number, u.get? l = some (.file number (.ofOctets octets)) := by
  have hne : l ≠ [] := by
    rintro rfl
    cases h
  unfold write at h
  split at h
  · cases h
  · next number old _ =>
    rw [← Except.ok.inj h]
    exact ⟨number, (get?_put t hne _ l).trans (if_pos rfl)⟩
  · rw [← Except.ok.inj h]
    exact ⟨t.next, (get?_putNew t hne _ l).trans (if_pos rfl)⟩

/-- Writing a collection fails before it touches the file, unless its text cannot be encoded. -/
theorem LabelFile.run_write_error {c : Collection} {f : Failure} (orderly : w.Orderly)
    (hrun : (LabelFile.write c q).run w = (.error f, v))
    (hencode : ∀ t e, c.text = .ok t → Utf8.encode t ≠ .error e) : v = w := by
  rcases htext : c.text with e | t
  · rw [run_write_unwritable htext] at hrun
    exact (Prod.mk.inj hrun).2.symm
  rw [run_write htext, writeText, Program.run_bind, Program.run_write] at hrun
  rcases w.change_cases .writing q (fun l => w.tree.write l []) with ⟨e, he⟩ | ⟨l, u, hl, hu, hchange⟩
  · rw [he] at hrun
    exact (Prod.mk.inj hrun).2.symm
  exfalso
  obtain ⟨hparent, hlink⟩ := orderly.locate_end hl
  have htouched := Tree.write_touched (fun target h => by cases hlink target h) hparent hu
  have hl' : World.locate { w with tree := u } .writing q = .ok l :=
    World.locate_ways (v := { w with tree := u }) htouched.changed.ways rfl hl
  obtain ⟨number, hfile⟩ := Tree.write_ok hu
  rw [hchange] at hrun
  rcases hoctets : Utf8.encode t with e | octets
  · exact hencode t e htext hoctets
  · simp only [Except.mapError, hoctets, Program.run_write, World.change, hl', Tree.write, hfile] at hrun
    cases hrun

/-- A text that cannot be encoded leaves an empty file where one stood. -/
theorem LabelFile.run_write_emptied {c : Collection} {m : Location} {number : Nat} {content : Content}
    {t : Text} {e : Utf8.EncodeError} (hm : w.locate .writing q = .ok m)
    (hfile : w.tree.get? m = some (.file number content)) (htext : c.text = .ok t)
    (hencode : Utf8.encode t = .error e) :
    ∃ f v, (LabelFile.write c q).run w = (.error f, v) ∧
      v.tree.get? m = some (.file number (.ofOctets [])) := by
  have hne : m ≠ [] := by
    rintro rfl
    cases hfile
  have hwrite : (Program.write q []).run w =
      (.ok (), { w with tree := w.tree.put m (.file number (.ofOctets [])) }) := by
    simp only [Program.run_write, World.change, hm, Tree.write, hfile]
    rfl
  rw [run_write htext, writeText, Program.run_bind_ok hwrite, hencode]
  exact ⟨_, _, rfl, (Tree.get?_put w.tree hne _ m).trans (if_pos rfl)⟩

theorem Collection.ofOctets_nil (path : Text) : Collection.ofOctets path [] = .ok .empty := by
  rw [ofOctets, Utf8.decode, Utf8.decodeFrom]
  rfl

namespace Store

variable {s : Store} {directory p : Path}

/-! ### The file of a store and what saving touches -/

/-- The places of temporary files. -/
def Temporary (l : Location) : Prop := ∃ k now, l = k ++ [temporaryName now]

/-- The places that saving touches though it fails. -/
def Passing (L : Location) (m : Location) : Prop := At L m ∨ Temporary m

theorem leadsInto_temporary {now : Int} (noLink : w.NoLinkAt directory (temporaryName now)) :
    w.LeadsInto Temporary (temporaryFor (directory.child fileName) now) := by
  rw [temporaryFor_child]
  intro aim l hl
  obtain ⟨d, -, rfl, hlink⟩ := noLink.spot (temporaryName_isName now) hl
  exact ⟨⟨d.2, now, rfl⟩, hlink⟩

/-- The file of a store is neither a log file nor a temporary file. -/
theorem fileName_apart (k : Location) : ¬ At L (k ++ [fileName]) ∧ ¬ Temporary (k ++ [fileName]) := by
  constructor
  · rintro ⟨n, hn, heq⟩
    obtain rfl := List.singleton_inj.mp (List.append_inj' heq rfl).2
    revert hn
    decide
  · rintro ⟨l, now, heq⟩
    have hname := List.singleton_inj.mp (List.append_inj' heq rfl).2
    have hstart := congrArg List.head? hname
    rw [show (temporaryName now).head? = some (.scalar '.') from rfl] at hstart
    revert hstart
    decide

theorem passing_apart (k : Location) : ¬ Passing L (k ++ [fileName]) :=
  not_or_intro (fileName_apart (L := L) k).1 (fileName_apart (L := L) k).2

/-! ### Opening -/

theorem leads_openIn (goes : GoesTo L w) (directory : Path) :
    (openIn directory).Leads (Keeps L (At L))
      (fun s _ => s.path = directory.child fileName) w := by
  obtain ⟨u, v, -, told, told', hrun⟩ := run_openIn_tells w directory
  refine .of_run hrun ((told.trans told').keeps goes fun _ => id) fun s hs => ?_
  rw [hs] at hrun
  rw [openIn_loaded hrun]

/-- What is opened stays what it is as long as its file is not touched. -/
theorem opened_of_changes {m : Location} (h : w.Changes may v) (hl : w.locate .target p = .ok m)
    (hm : ¬ may m) : opened v p = opened w p := by
  have hread : v.read p = w.read p := by
    rw [World.read_of_locate hl, World.read_of_locate (h.locate_iff.mpr hl), Tree.read, Tree.read,
      h.tree.same m hm]
  unfold opened LabelFile.contents
  rw [hread]

/-- A store that was opened and whose text cannot be encoded was in a file with some content. -/
theorem opened_unencodable {m : Location} {t : Text} {e : Utf8.EncodeError}
    (hl : w.locate .target p = .ok m) (hopened : opened w p = .ok s) (htext : s.collection.text = .ok t)
    (hencode : Utf8.encode t = .error e) :
    ∃ number content, w.tree.get? m = some (.file number content) ∧ content.octets ≠ [] := by
  have hnonempty : s.collection ≠ .empty := by
    rintro heq
    rw [heq] at htext
    obtain rfl := Except.ok.inj htext
    cases hencode
  unfold opened at hopened
  split at hopened
  · next c hc =>
    obtain ⟨octets, hread, hcontent⟩ := LabelFile.contents_ok hc
    rw [World.read_of_locate hl, Tree.read] at hread
    split at hread
    · next number content hfile =>
      refine ⟨number, content, hfile, fun hnil => hnonempty ?_⟩
      obtain rfl : content.octets = octets := Except.ok.inj hread
      rw [hnil, Collection.ofOctets_nil] at hcontent
      rw [← Except.ok.inj hopened, ← Except.ok.inj hcontent]
      rfl
    · cases hread
    · cases hread
    · cases hread
  · exact absurd (congrArg Store.collection (Except.ok.inj hopened)).symm hnonempty
  · cases hopened

/-! ### Saving -/

theorem leads_discard (goes : GoesTo L w) (hlog : ∀ m, At L m → may m) (hq : w.LeadsInto may q) :
    (discard q).Leads (Keeps L may) (fun _ _ => True) w := by
  unfold discard
  refine (goes.leads_remove hq).outcome.bind fun r v hv _ => ?_
  split
  · exact .pure trivial
  · split
    · exact (hv.goes goes).leads_log hlog _ _
    · exact .pure trivial
  · exact .fail

/-- A temporary file that could not be moved is taken away; one that has been moved is in its place for
good. -/
theorem failsIn_replaceFile (goes : GoesTo L w) (hlog : ∀ m, At L m → may m)
    (hq : w.LeadsInto may q) : (s.replaceFile q).FailsIn (Keeps L may) w := by
  unfold replaceFile
  have hwrite := LabelFile.leads_write goes (fun l hl => (hq _ l hl).1) s.collection
  refine hwrite.outcome.bind_failsIn fun r v hv _ => ?_
  have hdiscard := leads_discard (hv.goes goes) hlog (hq.changes hv.toChanges)
  split
  · exact hdiscard.bind_failsIn fun _ _ _ _ => Program.failsIn_fail
  · intro f u hrun
    rw [Program.run_outcome_bind, Program.run_rename] at hrun
    rcases v.rename_cases q s.path with ⟨e, he⟩ | ⟨l, m, t, -, -, -, hrename⟩
    · rw [he] at hrun
      dsimp only [Except.mapError] at hrun
      split at hrun
      · exact hdiscard.bind_failsIn (fun _ _ _ _ => Program.failsIn_fail) f u hrun
      · exact (Prod.mk.inj hrun).2 ▸ refl_of (Keeps L may) v
    · rw [hrename] at hrun
      cases hrun

theorem asks_hasNothingToSave (s : Store) : s.hasNothingToSave.Asks := by
  unfold hasNothingToSave
  split
  · exact (Program.asks_exists? _).bind fun _ => Program.asks_pure _
  · exact Program.asks_pure _

/-- Saving that fails has touched nothing but the temporary file and the log files. -/
theorem failsIn_save (goes : GoesTo L w) (hlog : ∀ m, At L m → may m)
    (hq : w.LeadsInto may (temporaryFor s.path w.now)) : s.save.FailsIn (Keeps L may) w := by
  unfold save
  refine (asks_hasNothingToSave s).bind_failsIn fun b _ => ?_
  split
  · exact (goes.leads_log hlog _ _).failsIn
  · split
    · exact Program.failsIn_fail
    · refine Program.asks_now.bind_failsIn fun now hnow => ?_
      obtain rfl : w.now = now := Except.ok.inj (Prod.mk.inj hnow).1
      refine (goes.leads_log hlog _ _).bind_failsIn fun _ v hv _ => ?_
      refine (failsIn_replaceFile (hv.goes goes) hlog (hq.changes hv.toChanges)).bind fun _ u => ?_
      obtain ⟨x, hx⟩ := Program.run_logEvent_ok _ u
      exact ⟨_, x, hx⟩

end Store

end LabelBook
