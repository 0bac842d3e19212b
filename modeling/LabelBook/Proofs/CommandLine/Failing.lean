import LabelBook.Proofs.Store.Failing

/-!
Commands that fail. A command that does not end well has touched nothing but the log files, a temporary
file and, if it exports labels, the file that it exports them to. That file is left empty when the labels
turn out to have no octets; so exporting labels over their own file can lose them.
-/

namespace LabelBook.CommandLine

open Log (At GoesTo Keeps)
open Program Store

variable {L : Location} {w v : World} {d : Program Path} {directory : Path} {may : Location → Prop}
  {kind ref label origin file : Argument} {s : Store}

/-- What a command finds: a log that goes to its files, and a directory of labels without links. -/
structure Site (L : Location) (d : Program Path) (directory : Path) (w : World) : Prop where
  goes : GoesTo L w
  found : d.run w = (.ok directory, w)
  unlinked : w.Unlinked directory

theorem leads_print (t : Text) : (Program.print t).Leads (Keeps L may) (fun _ _ => True) w :=
  .of_run rfl (.of_same rfl rfl rfl) fun _ _ => trivial

theorem leads_warn (t : Text) : (Program.warn t).Leads (Keeps L may) (fun _ _ => True) w :=
  .of_run rfl (.of_same rfl rfl rfl) fun _ _ => trivial

theorem Site.run_openStore (site : Site L d directory w) :
    (openStore d).run w = (openIn directory).run w := run_bind_ok site.found _

theorem Site.leads_openStore (site : Site L d directory w) (hmay : ∀ m, At L m → may m) :
    (openStore d).Leads (Keeps L may) (fun s _ => s.path = directory.child fileName) w := by
  have hopen := leads_openIn site.goes directory
  exact .congr site.run_openStore (hopen.mono fun v hv => hv.mono hmay)

theorem Site.failsIn_save (site : Site L d directory w) (hv : Keeps L (Passing L) w v)
    (hs : s.path = directory.child fileName) : s.save.FailsIn (Keeps L (Passing L)) v := by
  refine Store.failsIn_save (hv.goes site.goes) (fun _ => .inl) ?_
  rw [hs]
  exact ((leadsInto_temporary (site.unlinked.noLinkAt _)).changes hv.toChanges).mono fun _ => .inr

theorem Site.failsIn_set (site : Site L d directory w) (unspendable : Bool) :
    (CommandLine.set d kind ref label origin unspendable).FailsIn (Keeps L (Passing L)) w := by
  unfold CommandLine.set
  refine (asks_ofExcept _).bind_failsIn fun r _ => ?_
  refine (site.leads_openStore fun _ => .inl).bind_failsIn fun s v hv hs => ?_
  exact (site.failsIn_save (s := s.set r) hv hs).bind fun _ u => ⟨_, _, rfl⟩

theorem Site.failsIn_import (site : Site L d directory w) :
    (importFile d file).FailsIn (Keeps L (Passing L)) w := by
  have hread : ∀ p, (LabelFile.read p).Asks := by
    intro p u
    rw [LabelFile.run_read]
  unfold importFile
  refine (asks_ofExcept _).bind_failsIn fun p _ => ?_
  refine (hread p).bind_failsIn fun incoming _ => ?_
  refine (site.leads_openStore fun _ => .inl).bind_failsIn fun s v hv hs => ?_
  exact (site.failsIn_save (s := (s.merge incoming).1) hv hs).bind fun _ u => ⟨_, _, rfl⟩

theorem leads_reportAbsent (t : Text) : (reportAbsent t).Leads (Keeps L may) (fun _ _ => True) w :=
  (leads_warn _).bind fun _ _ _ _ => .pure trivial

theorem Site.leads_get (site : Site L d directory w) :
    (CommandLine.get d kind ref).Leads (Keeps L (At L)) (fun _ _ => True) w := by
  unfold CommandLine.get
  refine (site.leads_openStore fun _ => id).bind fun s v _ _ => ?_
  refine (asks_ofExcept _).leads.bind fun r u _ _ => ?_
  split
  · exact leads_reportAbsent _
  · split
    · exact leads_reportAbsent _
    · exact (leads_print _).bind fun _ _ _ _ => .pure trivial

theorem Site.leads_list (site : Site L d directory w) :
    (CommandLine.list d kind).Leads (Keeps L (At L)) (fun _ _ => True) w := by
  unfold CommandLine.list
  refine (site.leads_openStore fun _ => id).bind fun s v _ _ => ?_
  refine (leads_forIn (fun r u => leads_print (listLine r)) _ v).bind fun _ _ _ _ => ?_
  exact .pure trivial

/-! ### Exporting -/

/-- A place that a command writes labels to because it is told to. -/
def Command.WritesTo (c : Command) (w : World) (m : Location) : Prop :=
  ∃ t, c = .exportFile (some (.string t)) ∧ w.locate .writing (.ofText t) = .ok m

theorem pathOf_ok {v : Json} {p : Path} (h : pathOf v = .ok p) : ∃ t, v = .string t ∧ p = .ofText t := by
  cases v with
  | string t => exact ⟨t, rfl, (Except.ok.inj h).symm⟩
  | null | bool _ | int _ | float _ | array _ | object _ => cases h

theorem Site.failsIn_export (site : Site L d directory w) : (exportFile d file).FailsIn
    (Keeps L fun m => At L m ∨ Command.WritesTo (.exportFile file) w m) w := by
  unfold exportFile
  refine (site.leads_openStore fun _ => .inl).bind_failsIn fun s v hv _ => ?_
  refine (asks_ofExcept _).bind_failsIn fun name hname => ?_
  refine (asks_ofExcept _).bind_failsIn fun p hp => ?_
  rw [run_ofExcept] at hname hp
  obtain ⟨t, rfl, rfl⟩ := pathOf_ok (Prod.mk.inj hp).1
  have hfile : file = some (.string t) := by
    cases file with
    | none => cases (Prod.mk.inj hname).1
    | some _ => rw [Except.ok.inj (Prod.mk.inj hname).1]
  have hmay : ∀ l, v.locate .writing (.ofText t) = .ok l →
      At L l ∨ Command.WritesTo (.exportFile file) w l := by
    intro l hl
    exact .inr ⟨t, by rw [hfile], hv.locate_iff.mp hl⟩
  exact (LabelFile.leads_write (hv.goes site.goes) hmay _).failsIn.bind fun _ u => ⟨_, _, rfl⟩

/-! ### What commands leave alone -/

/-- A result that gives a status other than that of success. -/
def Unsuccessful (r : Except Failure (Option Nat)) : Prop := ∀ status, r = .ok status → status.getD 0 ≠ 0

/-- A command that ends without a status of its own has to fail. -/
theorem Unsuccessful.failed {q : Program Unit} {r : Except Failure (Option Nat)}
    (hr : Unsuccessful r) (hrun : (do q; return none : Program (Option Nat)).run w = (r, v)) :
    ∃ f, q.run w = (.error f, v) := by
  rw [run_bind] at hrun
  rcases hq : q.run w with ⟨f | _, u⟩
  · rw [hq] at hrun
    exact ⟨f, by rw [(Prod.mk.inj hrun).2]⟩
  · rw [hq] at hrun
    exact absurd rfl (hr none (Prod.mk.inj hrun).1.symm)

/-- A command that does not end well has touched log files, a temporary file and what it was told to
write to. -/
theorem Site.run_unsuccessful (site : Site L d directory w) {c : Command}
    {r : Except Failure (Option Nat)} (hrun : (c.run d).run w = (r, v)) (hr : Unsuccessful r) :
    Keeps L (fun m => Passing L m ∨ c.WritesTo w m) w v := by
  cases c with
  | set kind ref label origin unspendable =>
    obtain ⟨f, hf⟩ := hr.failed hrun
    exact (site.failsIn_set unspendable f v hf).mono fun _ => .inl
  | get kind ref =>
    have hget : (CommandLine.get d kind ref).Leads (Keeps L (At L)) (fun _ _ => True) w :=
      site.leads_get
    have hstep := hget.step
    rw [show (CommandLine.get d kind ref).run w = (r, v) from hrun] at hstep
    exact hstep.mono fun _ h => .inl (.inl h)
  | list kind =>
    obtain ⟨f, hf⟩ := hr.failed hrun
    exact (site.leads_list.failsIn f v hf).mono fun _ h => .inl (.inl h)
  | importFile file =>
    obtain ⟨f, hf⟩ := hr.failed hrun
    exact (site.failsIn_import f v hf).mono fun _ => .inl
  | exportFile file =>
    obtain ⟨f, hf⟩ := hr.failed hrun
    exact (site.failsIn_export f v hf).mono fun _ => Or.imp_left .inl

/-- A store that can be opened but not written, since its text cannot be encoded. -/
def Unencodable (w : World) (p : Path) : Prop :=
  ∃ s t e, opened w p = .ok s ∧ s.collection.text = .ok t ∧ Utf8.encode t = .error e

/-- An export of labels to their own file that fails leaves the file as it was exactly if it is not the
encoding of their text that fails. -/
theorem Site.export_own_iff (site : Site L d directory w) {m : Location} {t : Text} {f : Failure}
    (hm : w.locate .entry (directory.child fileName) = .ok m)
    (ht : w.locate .writing (.ofText t) = .ok m)
    (hrun : (exportFile d (some (.string t))).run w = (.error f, v)) :
    v.tree.get? m = w.tree.get? m ↔ ¬ Unencodable w (directory.child fileName) := by
  obtain ⟨k, spot, rfl, hlink⟩ := site.unlinked.spot fileName_isName hm
  have htarget := spot.locate_of_no_link hlink .target
  obtain ⟨u, b, -, told, told', hopen⟩ := run_openIn_tells w directory
  have hu : Keeps L (At L) w u := told.keeps site.goes fun _ => id
  have hb : Keeps L (At L) w b := (told.trans told').keeps site.goes fun _ => id
  have hsame : b.tree.get? (k.2 ++ [fileName]) = w.tree.get? (k.2 ++ [fileName]) :=
    hb.tree.same _ (fileName_apart k.2).1
  rw [opened_of_changes hu.toChanges htarget (fileName_apart k.2).1, ← site.run_openStore] at hopen
  unfold exportFile at hrun
  rcases hopened : opened w (directory.child fileName) with g | s
  · rw [hopened] at hopen
    rw [run_bind_error hopen] at hrun
    obtain ⟨-, rfl⟩ := Prod.mk.inj hrun
    refine iff_of_true hsame ?_
    rintro ⟨s, -, -, hs, -⟩
    cases hopened.symm.trans hs
  rw [hopened] at hopen
  rw [run_bind_ok hopen] at hrun
  -- what is left is writing the collection and telling about it
  have hrest : (LabelFile.write s.collection (.ofText t)).run b = (.error f, v) := by
    rcases hwrite : (LabelFile.write s.collection (.ofText t)).run b with ⟨g | _, x⟩
    · exact (run_bind_error hwrite _).symm.trans hrun
    · cases (run_bind_ok hwrite _).symm.trans hrun
  by_cases htext : ∃ t e, s.collection.text = .ok t ∧ Utf8.encode t = .error e
  · obtain ⟨t', e, ht', he⟩ := htext
    refine iff_of_false ?_ fun h => h ⟨s, t', e, hopened, ht', he⟩
    obtain ⟨number, content, hfile, hcontent⟩ := opened_unencodable htarget hopened ht' he
    obtain ⟨g, x, hx, hemptied⟩ := LabelFile.run_write_emptied (hb.locate_iff.mpr ht)
      (hsame.trans hfile) ht' he
    obtain ⟨-, rfl⟩ := Prod.mk.inj (hx.symm.trans hrest)
    rw [hemptied, hfile]
    intro heq
    cases heq
    exact hcontent (Content.octets_ofOctets [])
  · have hv := LabelFile.run_write_error (hb.goes site.goes).home.orderly hrest
      fun t e ht he => htext ⟨t, e, ht, he⟩
    refine iff_of_true (hv ▸ hsame) ?_
    rintro ⟨s', t', e, hs', ht', he⟩
    obtain rfl := Except.ok.inj (hopened.symm.trans hs')
    exact htext ⟨t', e, ht', he⟩

/-- The file of the labels is what it was after a command that did not end well, unless the command
exported labels without octets over it. -/
theorem Site.unchanged_iff (site : Site L d directory w) {c : Command} {m : Location}
    {r : Except Failure (Option Nat)} (hm : w.locate .entry (directory.child fileName) = .ok m)
    (hrun : (c.run d).run w = (r, v)) (hr : Unsuccessful r) :
    v.tree.get? m = w.tree.get? m ↔
      ¬ (c.WritesTo w m ∧ Unencodable w (directory.child fileName)) := by
  by_cases hwrites : c.WritesTo w m
  · obtain ⟨t, rfl, ht⟩ := id hwrites
    obtain ⟨f, hf⟩ := hr.failed hrun
    rw [site.export_own_iff hm ht hf, and_iff_right hwrites]
  · obtain ⟨k, -, rfl, -⟩ := site.unlinked.spot fileName_isName hm
    refine iff_of_true ((site.run_unsuccessful hrun hr).tree.same _ ?_) fun h => hwrites h.1
    rintro ((hlog | htemporary) | h)
    · exact (fileName_apart k.2).1 hlog
    · exact (fileName_apart (L := L) k.2).2 htemporary
    · exact hwrites h

end LabelBook.CommandLine
