import LabelBook.Proofs.CommandLine.Running
import LabelBook.Proofs.Log.Again
import LabelBook.Proofs.Log.Console
import LabelBook.Proofs.Store.Keeping

/-!
Setting a label and looking it up. A label that was set is what the next command finds under its
reference, in any spelling, and for every other reference the next command says what it would have said
before.
-/

namespace LabelBook

open Log (At GoesTo Home Keeps Fresh Room Lodging)
open Program Store

variable {L : Location} {w v u x : World} {directory : Path} {settings : Settings} {k : Kind}
  {ref t : Text} {s : Store}

/-- A world as a later process finds it: files, environment and accounts are as they were left, and the log
has not been set up. Time has passed, and the console can be another. -/
structure World.Later (w v : World) : Prop where
  tree : v.tree = w.tree
  here : v.here = w.here
  homes : w.SameHomes v
  outlets : v.logger.outlets = []

/-- Files are as they were left. -/
theorem World.Later.changes (h : w.Later v) : w.Changes (fun _ => False) v := by
  refine ⟨?_, fun orderly => ?_, h.here⟩
  · rw [h.tree]
    exact .refl _ w.tree
  · rw [h.tree]
    exact orderly

namespace CommandLine

variable {i : Invocation} {d : Program Path}

/-! ### Replies -/

/-- What is seen of a command line, apart from files and the lines of the log: its status, what it writes
to standard output, and what else it writes to standard error. -/
structure Reply where
  status : Nat
  output : Text
  report : List Text

/-- A program that gives a reply, and leads from one world to another. -/
structure Replies (q : Program Nat) (r : Reply) (w v : World) : Prop where
  run : q.run w = (.ok r.status, v)
  output : v.output = w.output ++ r.output
  report : ∃ lines, (∀ l ∈ lines, IsLogLine l) ∧ v.warned = r.report ++ lines ++ w.warned

/-- The reply to the question for a reference: the label, or that there is no record. -/
def replyTo (c : Collection) (ref : Reference) : Reply :=
  match c.get? ref with
  | none => ⟨1, [], [Text.concat ["label not found: ", ref.text, "\n"]]⟩
  | some r => ⟨0, Text.concat [r.label.getD [], "\n"], []⟩

theorem output_print (t : Text) (w : World) :
    World.output { w with printed := t :: w.printed } = w.output ++ t := by
  simp [World.output, Text.concat]

theorem ofJson_name (k : Kind) : Kind.ofJson (.string k.name) = .ok k := by
  rw [Kind.ofJson, Kind.ofName?_name]

/-- Looking for a reference in a store that has been opened. -/
theorem run_get (found : d.run u = (.ok directory, u))
    (hopen : (openIn directory).run u = (.ok s, x)) : ∃ status v,
      (CommandLine.get d (some (.string k.name)) (some (.string ref))).run u = (.ok status, v) ∧
      status.getD 0 = (replyTo s.collection (.of k ref)).status ∧
      v.output = x.output ++ (replyTo s.collection (.of k ref)).output ∧
      v.warned = (replyTo s.collection (.of k ref)).report ++ x.warned := by
  have hopened : (openStore d).run u = (.ok s, x) := (run_bind_ok found _).trans hopen
  have hwanted : wantedReference (some (.string k.name)) (some (.string ref)) =
      .ok (.inl (.of k ref)) := by
    simp only [wantedReference, Argument.required]
    show (Kind.ofJson (.string k.name)).bind _ = _
    rw [ofJson_name]
    rfl
  have hrun : (CommandLine.get d (some (.string k.name)) (some (.string ref))).run u =
      (match s.get? (.of k ref) with
        | none => reportAbsent (Reference.of k ref).text
        | some _ => do
          Program.print (Text.concat [(s.text? (.of k ref)).getD [], "\n"])
          return none : Program (Option Nat)).run x := by
    rw [CommandLine.get, run_bind_ok hopened, hwanted]
    rfl
  rw [hrun, replyTo]
  rcases hget : s.collection.get? (.of k ref) with _ | r
  · rw [Store.get?, hget]
    exact ⟨some 1, _, rfl, rfl, (List.append_nil _).symm, rfl⟩
  · have htext : s.text? (.of k ref) = r.label := by rw [Store.text?, Store.get?, hget]; rfl
    rw [Store.get?, hget, htext]
    exact ⟨none, _, rfl, rfl, output_print _ x, rfl⟩

/-! ### Command lines with their settings -/

/-- A command line of status 0 has set up the log, and its command has ended well. -/
theorem runWith_zero (h : (i.runWith settings).run w = (.ok 0, v)) : ∃ u status,
    settings.setUp.run w = (.ok (), u) ∧
      (i.command.run (directoryFor i.directory (some settings))).run u = (.ok status, v) ∧
      status.getD 0 = 0 := by
  obtain ⟨_, u, hsetUp, h⟩ := run_bind_eq_ok h
  unfold report at h
  rw [run_outcome_bind] at h
  rcases hq : (i.command.run (directoryFor i.directory (some settings))).run u with ⟨f | status, y⟩
  · rw [hq] at h
    have hlog : ∀ t, (do Program.log .error t; return 1 : Program Nat).run y ≠ (.ok 0, v) := by
      intro t ht
      obtain ⟨_, z, -, hone⟩ := run_bind_eq_ok ht
      cases hone
    dsimp only at h
    split at h
    · exact absurd h (hlog _)
    · split at h
      · exact absurd h (hlog _)
      · cases h
  · rw [hq] at h
    obtain ⟨hstatus, rfl⟩ := Prod.mk.inj h
    exact ⟨u, status, hsetUp, hq, Except.ok.inj hstatus⟩

/-- A command line that ends with the status of its command. -/
theorem runWith_ok {status : Option Nat} (hsetUp : settings.setUp.run w = (.ok (), u))
    (hcommand : (i.command.run (directoryFor i.directory (some settings))).run u = (.ok status, v)) :
    (i.runWith settings).run w = (.ok (status.getD 0), v) := by
  refine (run_bind_ok hsetUp _).trans ?_
  unfold report
  rw [run_outcome_bind, hcommand]
  rfl

/-- What a command writes, apart from the lines of the log on the way, is the reply of the command line. -/
theorem replies_of_command {status : Option Nat} {r : Reply}
    (hsetUp : settings.setUp.run w = (.ok (), u))
    (hcommand : (i.command.run (directoryFor i.directory (some settings))).run u = (.ok status, v))
    (hmutters : u.Mutters x) (hstatus : status.getD 0 = r.status)
    (houtput : v.output = x.output ++ r.output) (hreport : v.warned = r.report ++ x.warned) :
    Replies (i.runWith settings) r w v := by
  have hsetting := Log.mutters_setUp settings.log.verbosity.level settings.log.directory w
  rw [show (Log.setUp _ _).run w = (.ok (), u) from hsetUp] at hsetting
  obtain ⟨hprinted, lines, hlines, hwarned⟩ := trans_of World.Mutters hsetting hmutters
  refine ⟨hstatus ▸ runWith_ok hsetUp hcommand, ?_, lines, hlines, ?_⟩
  · rw [houtput, World.output, hprinted]
    rfl
  · rw [hreport, hwarned, List.append_assoc]

theorem mutters_of_openIn (hopen : (openIn directory).run u = (.ok s, x)) : u.Mutters x := by
  have hmutters := mutters_openIn directory u
  rwa [hopen] at hmutters

/-- The reply to the question for a reference rests on the store that is opened alone. -/
theorem get_replies (command : i.command = .get (some (.string k.name)) (some (.string ref)))
    (hsetUp : settings.setUp.run w = (.ok (), u))
    (found : (directoryFor i.directory (some settings)).run u = (.ok directory, u))
    (hopen : (openIn directory).run u = (.ok s, x)) :
    ∃ v, Replies (i.runWith settings) (replyTo s.collection (.of k ref)) w v := by
  obtain ⟨status, v, hget, hstatus, houtput, hreport⟩ := run_get found hopen
  exact ⟨v, replies_of_command hsetUp (by rw [command]; exact hget) (mutters_of_openIn hopen) hstatus
    houtput hreport⟩

/-! ### What is set -/

/-- A check of the kind that passes. -/
theorem checkOwner_ok {owner : Kind} {f : Failure}
    (h : checkOwner (some (.string k.name)) owner f = .ok ()) : k = owner := by
  simp only [checkOwner, Argument.required] at h
  split at h
  · next hsame =>
    have hname : k.name = owner.name := eq_of_beq hsame
    exact Option.some.inj ((Kind.ofName?_name k).symm.trans (hname ▸ Kind.ofName?_name owner))
  · cases h

/-- The further fields that switches give are an origin or a spendability. -/
theorem switchFields_ok {origin : Argument} {unspendable : Bool} {fields : Entries}
    (h : switchFields (some (.string k.name)) origin unspendable = .ok fields) :
    fields = [] ∨ (∃ o, fields = ([("origin", o)] : Entries) ∧ k = .transaction) ∨
      fields = ([("spendable", .bool false)] : Entries) := by
  have hgiven : ∀ {es : Entries}, (∃ o, es = ([("origin", o)] : Entries) ∧ k = .transaction) ∨
      es = [] → (if unspendable then
        (checkOwner (some (.string k.name)) .output .unspendableElsewhere).bind fun _ =>
          .ok (Entries.put "spendable" (.bool false) es)
        else .ok es) = .ok fields → fields = [] ∨
      (∃ o, fields = ([("origin", o)] : Entries) ∧ k = .transaction) ∨
        fields = ([("spendable", .bool false)] : Entries) := by
    intro es hes h
    split at h
    · cases hcheck : checkOwner (some (.string k.name)) .output .unspendableElsewhere with
      | error f => rw [hcheck] at h; cases h
      | ok _ =>
        rw [hcheck] at h
        have hput := Except.ok.inj h
        rcases hes with ⟨o, -, htransaction⟩ | rfl
        · exact absurd (htransaction.symm.trans (checkOwner_ok hcheck)) (by decide)
        · exact .inr (.inr hput.symm)
    · obtain rfl := Except.ok.inj h
      exact hes.elim (fun h => .inr (.inl h)) .inl
  cases origin with
  | none => exact hgiven (.inr rfl) h
  | some o =>
    cases htruthy : o.isTruthy with
    | false =>
      refine hgiven (.inr rfl) ?_
      rw [switchFields] at h
      simp only [htruthy] at h
      exact h
    | true =>
      cases hcheck : checkOwner (some (.string k.name)) .transaction .originElsewhere with
      | error f =>
        rw [switchFields] at h
        simp only [htruthy, hcheck] at h
        cases h
      | ok _ =>
        refine hgiven (.inl ⟨o, rfl, checkOwner_ok hcheck⟩) ?_
        rw [switchFields] at h
        simp only [htruthy, hcheck] at h
        exact h

/-- The entries of a record that is made from texts and from fields of switches: the fields of switches
stand behind the others, and the keys are different. -/
theorem make_ok {fields : Entries} {r : Record}
    (hfields : fields = [] ∨ (∃ o, fields = ([("origin", o)] : Entries) ∧ k = .transaction) ∨
      fields = ([("spendable", .bool false)] : Entries))
    (h : Record.make k (.string ref) (.string t) fields = .ok r) :
    r.reference = .of k ref ∧ r.label = some t ∧ r.Described := by
  have hentries : Entries.putAll
      [("type", .string k.name), ("ref", .string ref), ("label", .string t)] fields =
      ([("type", .string k.name), ("ref", .string ref), ("label", .string t)] : Entries) ++ fields := by
    rcases hfields with rfl | ⟨o, rfl, -⟩ | rfl <;> rfl
  rw [Record.make, hentries] at h
  obtain ⟨htype, hread⟩ := Record.ofMapping_ok h
  obtain ⟨-, href, hlabel, hbody, -⟩ := Record.ofEntries_parts hread
  have hkind : r.kind = k := by
    have hname : k.name = r.kind.name := Json.string.inj (Option.some.inj htype)
    exact Option.some.inj ((Kind.ofName?_name r.kind).symm.trans (hname ▸ Kind.ofName?_name k))
  -- no switch gives a value with keys: what is read as an origin is a text or null
  have hvalues : ∀ e ∈ fields, Json.DistinctKeys e.2 := by
    rcases hfields with rfl | ⟨o, rfl, rfl⟩ | rfl
    · exact fun _ he => absurd he List.not_mem_nil
    · rw [hkind] at hbody
      obtain ⟨origin, horigin, -⟩ := Except.eq_ok_of_map hbody
      refine List.forall_mem_singleton.mpr ?_
      cases o with
      | array vs => cases horigin
      | object es => cases horigin
      | _ => trivial
    · exact List.forall_mem_singleton.mpr trivial
  have hplain : Json.DistinctKeys
      (.object [("type", .string k.name), ("ref", .string ref), ("label", .string t)]) :=
    ⟨by simp [Text.ofString], trivial, trivial, trivial, trivial⟩
  have hdistinct := Json.distinctKeys_putAll hplain hvalues
  rw [hentries] at hdistinct
  have hdescribed : r.Described := ⟨r.kind, _, hdistinct, hread⟩
  refine ⟨?_, (Except.ok.inj hlabel).symm, hdescribed⟩
  have hnormal : r.kind.normalize ref = r.ref := Except.ok.inj href
  rw [Record.reference, Reference.of, hdescribed.regular.canonical, Reference.of, ← hnormal, hkind]

/-- The record that is set has the reference, in canonical spelling, and the label. -/
theorem describedRecord_ok {origin : Argument} {unspendable : Bool} {r : Record}
    (h : describedRecord (some (.string k.name)) (some (.string ref)) (some (.string t)) origin
      unspendable = .ok r) : r.reference = .of k ref ∧ r.label = some t ∧ r.Described := by
  cases hfields : switchFields (some (.string k.name)) origin unspendable with
  | error f => rw [describedRecord, hfields] at h; cases h
  | ok fields =>
    rw [describedRecord, hfields] at h
    have hmade : ((Kind.ofJson (.string k.name)).bind fun k =>
      (Record.make k (.string ref) (.string t) fields).mapError Failure.rejected) = .ok r := h
    rw [ofJson_name] at hmade
    dsimp only [Except.bind] at hmade
    cases hmake : Record.make k (.string ref) (.string t) fields with
    | error e => rw [hmake] at hmade; cases hmade
    | ok q =>
      rw [hmake] at hmade
      obtain rfl : q = r := Except.ok.inj hmade
      exact make_ok (switchFields_ok hfields) hmake

/-- A label that was set: its record has been put into the store, and the store has been saved. -/
theorem set_ok {kind ref label origin : Argument} {unspendable : Bool}
    (found : d.run u = (.ok directory, u))
    (h : (CommandLine.set d kind ref label origin unspendable).run u = (.ok (), v)) :
    ∃ r s x y, describedRecord kind ref label origin unspendable = .ok r ∧
      (openIn directory).run u = (.ok s, x) ∧ (s.set r).save.run x = (.ok (), y) ∧
      y.Changes (fun _ => False) v := by
  unfold CommandLine.set at h
  obtain ⟨r, _, hrecord, h⟩ := run_bind_eq_ok h
  obtain ⟨hr, rfl⟩ := Prod.mk.inj ((run_ofExcept _).symm.trans hrecord)
  obtain ⟨s, x, hs, h⟩ := run_bind_eq_ok h
  obtain ⟨_, y, hsave, h⟩ := run_bind_eq_ok h
  obtain ⟨-, rfl⟩ := Prod.mk.inj h
  exact ⟨r, s, x, y, hr, (run_bind_ok found _).symm.trans hs, hsave, .refl _ y.tree, id, rfl⟩

/-- What a process that has set a label leaves: the file of the labels with the record in it. -/
theorem set_leaves {kind ref label origin : Argument} {unspendable : Bool} (goes : GoesTo L u)
    (found : d.run u = (.ok directory, u))
    (noLink : u.NoLinkAt directory (temporaryName u.now))
    (h : (CommandLine.set d kind ref label origin unspendable).run u = (.ok (), v)) :
    ∃ r s x text octets, describedRecord kind ref label origin unspendable = .ok r ∧
      (openIn directory).run u = (.ok s, x) ∧ s.Kept ∧ (s.set r).collection.text = .ok text ∧
      Utf8.encode text = .ok octets ∧ v.HasLabels directory octets ∧ u.KeepsRoads v ∧ Home L v := by
  obtain ⟨r, s, x, y, hr, hopen, hsave, hprint⟩ := set_ok found h
  obtain ⟨keeps, hpath, kept, -, blind⟩ := openIn_ok goes hopen
  have noLink' : x.NoLinkAt directory (temporaryName x.now) := by
    rw [now_of_run hopen]
    exact noLink.changes keeps.toChanges
  obtain ⟨⟨text, octets, htext, hencode, labels⟩, roads, hgoes⟩ :=
    save_replaced (s := s.set r) (keeps.goes goes) hpath (hpath ▸ blind) noLink'
      (Collection.isEmpty_set _ r) hsave
  refine ⟨r, s, x, text, octets, hr, hopen, kept, htext, hencode,
    labels.changes hprint fun _ => id, ?_, hgoes.home.changes hprint⟩
  exact trans_of World.KeepsRoads keeps.toChanges.keepsRoads
    (trans_of World.KeepsRoads roads hprint.keepsRoads)

/-! ### Later processes -/

theorem replyTo_asWritten (c : Collection) (ref : Reference) :
    replyTo ⟨c.records.map Record.asWritten⟩ ref = replyTo c ref := by
  have hget : Collection.get? ⟨c.records.map Record.asWritten⟩ ref =
      (c.get? ref).map Record.asWritten := List.find?_map
  rw [replyTo, replyTo, hget]
  cases c.get? ref <;> rfl

theorem replyTo_set (c : Collection) (r : Record) (ref : Reference) : replyTo (c.set r) ref =
    if ref = r.reference then ⟨0, Text.concat [r.label.getD [], "\n"], []⟩ else replyTo c ref := by
  rw [replyTo, Collection.get?_set]
  split_ifs <;> rfl

/-- What a process starts from: the settings it goes by and the directory of its labels, with room for the
log. -/
structure Invocation.Starts (i : Invocation) (w : World) (settings : Settings) (directory : Path) :
    Prop where
  fresh : Fresh w
  finds : i.Finds w settings
  room : Room settings.log.directory w
  found : (directoryFor i.directory (some settings)).run w = (.ok directory, w)

/-- Only the file that is named for the settings counts. -/
theorem Invocation.Finds.alike {j : Invocation} (finds : i.Finds w settings)
    (hsettings : j.settings = i.settings) : j.Finds w settings := by
  cases finds with
  | named file default load => exact .named (hsettings.trans file) default load
  | usual file default => exact .usual (fun c t => hsettings ▸ file c t) default

/-- The settings that were found are found again, if the file that is named for them says the same. -/
theorem Invocation.Finds.later (finds : i.Finds w settings) (same : w.SameHomes x)
    (named : ∀ c t, i.settings = some (c :: t) →
      (Settings.load (.ofText (c :: t))).run x = (.ok settings, x)) : i.Finds x settings := by
  cases finds with
  | named file default load =>
    exact .named file (Settings.homely_default.after default same) (named _ _ file)
  | usual file default => exact .usual file (Settings.homely_default.after default same)

theorem Invocation.Finds.run_args {args : List Text} (finds : i.Finds w settings)
    (hdemand : demand args = .run i) :
    (CommandLine.run args).run w = (i.runWith settings).run w := by
  rw [CommandLine.run, hdemand]
  exact finds.run

theorem Replies.of_run {q q' : Program Nat} {r : Reply} (hrun : q.run w = q'.run w)
    (h : Replies q' r w v) : Replies q r w v := ⟨hrun.trans h.run, h.output, h.report⟩

/-- What a process that has set a label leaves behind the store it has opened: the file of the labels with
the record in it, and a log that can be set up again. -/
theorem runWith_set {origin : Argument} {unspendable : Bool}
    (starts : i.Starts w settings directory)
    (noLink : (settings.prepared w).NoLinkAt directory (temporaryName w.now))
    (command : i.command =
      .set (some (.string k.name)) (some (.string ref)) (some (.string t)) origin unspendable)
    (hrun : (i.runWith settings).run w = (.ok 0, v)) :
    ∃ r s u x text octets, settings.setUp.run w = (.ok (), u) ∧
      (openIn directory).run u = (.ok s, x) ∧
      (r.reference = .of k ref ∧ r.label = some t) ∧
      Kept ⟨s.collection.set r, directory.child fileName⟩ ∧
      (s.collection.set r).text = .ok text ∧ Utf8.encode text = .ok octets ∧
      v.HasLabels directory octets ∧ ∃ L, Lodging settings.log.directory L v := by
  obtain ⟨u, status, hsetUp, hcommand, -⟩ := runWith_zero hrun
  obtain ⟨L, lodging, goes, -⟩ := starts.fresh.setUp_ok starts.room hsetUp
  have homes := sameHomes_of_run hcommand
  have found := (homely_directoryFor _ _).after starts.found (sameHomes_of_run hsetUp)
  rw [Settings.prepared, hsetUp, ← now_of_run hsetUp] at noLink
  rw [command] at hcommand
  obtain ⟨_, v', hset, hnone⟩ := run_bind_eq_ok hcommand
  obtain ⟨-, rfl⟩ := Prod.mk.inj hnone
  obtain ⟨r, s, x, text, octets, hr, hopen, kept, htext, hencode, labels, roads, home⟩ :=
    set_leaves goes found noLink hset
  obtain ⟨hreference, hlabel, hdescribed⟩ := describedRecord_ok hr
  have hone : ∀ q ∈ [r], q.Described := by simpa using hdescribed
  exact ⟨r, s, u, x, text, octets, hsetUp, hopen, ⟨hreference, hlabel⟩, kept.setAll hone, htext,
    hencode, labels, L, lodging.roads roads home homes⟩

/-- A later process sets up its log where one has been. -/
theorem setUp_later (lodging : Lodging settings.log.directory L v) (later : v.Later x) :
    ∃ u, settings.setUp.run x = (.ok (), u) ∧ x.Changes (At L) u ∧ GoesTo L u ∧
      Lodging settings.log.directory L u ∧ x.SameHomes u ∧ u.now = x.now := by
  have home := lodging.home.changes later.changes
  obtain ⟨u, hsetUp, hchanges, goes, lodging'⟩ :=
    (lodging.roads later.changes.keepsRoads home later.homes).run_setUp later.outlets
      settings.log.verbosity.level
  exact ⟨u, hsetUp, hchanges, goes, lodging', sameHomes_of_run hsetUp, now_of_run hsetUp⟩

/-- A later process opens the store that has been left as it was written. -/
theorem opens_later {c : Collection} {text : Text} {octets : Octets}
    (lodging : Lodging settings.log.directory L v) (later : v.Later x)
    (labels : v.HasLabels directory octets) (htext : c.text = .ok text)
    (hencode : Utf8.encode text = .ok octets) (kept : Kept ⟨c, directory.child fileName⟩)
    (whole : ∀ r ∈ c.records, r.asWritten.hasBreak = false) :
    ∃ u y, settings.setUp.run x = (.ok (), u) ∧ (openIn directory).run u =
      (.ok ⟨⟨c.records.map Record.asWritten⟩, directory.child fileName⟩, y) := by
  obtain ⟨u, hsetUp, hchanges, goes, -⟩ := setUp_later lodging later
  have labels' := (labels.changes later.changes fun _ => id).changes hchanges fileName_unlogged
  obtain ⟨y, hopen⟩ := run_openIn_labels goes labels' htext hencode kept whole
  exact ⟨u, y, hsetUp, hopen⟩

/-- A label that a process has set is what a later one answers for its reference, in any spelling; for
every other reference the later one answers what would have been answered before. The first process has
room for its log (a link or a moved directory there could lead the log to the labels, see `Log.Ground`), no
link under the name of its temporary file, and no break in what it writes. -/
theorem set_then_get {args args' : List Text} {j : Invocation} {origin : Argument}
    {unspendable : Bool} {k' : Kind} {ref' : Text} (hdemand : demand args = .run i)
    (starts : i.Starts w settings directory)
    (noLink : (settings.prepared w).NoLinkAt directory (temporaryName w.now))
    (command : i.command =
      .set (some (.string k.name)) (some (.string ref)) (some (.string t)) origin unspendable)
    (hrun : (run args).run w = (.ok 0, v))
    (whole : ∀ octets text, v.read (directory.child fileName) = .ok octets →
      Utf8.decode octets = .ok text → text.hasBreak = false)
    (later : v.Later x)
    (named : ∀ c t, i.settings = some (c :: t) →
      (Settings.load (.ofText (c :: t))).run x = (.ok settings, x))
    (hdemand' : demand args' = .run j) (hsettings : j.settings = i.settings)
    (hdirectory : j.directory = i.directory)
    (command' : j.command = .get (some (.string k'.name)) (some (.string ref'))) :
    (Reference.of k' ref' = .of k ref →
      ∃ y, Replies (run args') ⟨0, Text.concat [t, "\n"], []⟩ x y) ∧
    (Reference.of k' ref' ≠ .of k ref →
      ∃ reply y z, Replies (run args') reply w y ∧ Replies (run args') reply x z) := by
  have homes := (sameHomes_of_run hrun).trans later.homes
  rw [starts.finds.run_args hdemand] at hrun
  obtain ⟨r, s, u, y, text, octets, hsetUp, hopen, ⟨hreference, hlabel⟩, kept, htext, hencode,
    labels, L, lodging⟩ := runWith_set starts noLink command hrun
  have hbreak := whole octets text labels.read (Utf8.decode_encode hencode)
  rw [Collection.hasBreak_text htext fun r hr => (kept.described r hr).regular,
    List.any_eq_false] at hbreak
  obtain ⟨u', y', hsetUp', hopen'⟩ := opens_later lodging later labels htext hencode kept
    fun r hr => by simpa using hbreak r hr
  -- where the directory of the labels is looked for does not change
  have found : ∀ z, w.SameHomes z →
      (directoryFor j.directory (some settings)).run z = (.ok directory, z) :=
    fun z same => hdirectory ▸ (homely_directoryFor _ _).after starts.found same
  have hbefore := (starts.finds.alike hsettings).run_args hdemand'
  have hafter := ((starts.finds.later homes named).alike hsettings).run_args hdemand'
  obtain ⟨z, hz⟩ := get_replies command' hsetUp'
    (found u' (homes.trans (sameHomes_of_run hsetUp'))) hopen'
  rw [replyTo_asWritten, replyTo_set] at hz
  constructor
  · intro href
    rw [if_pos (href.trans hreference.symm), hlabel] at hz
    exact ⟨z, hz.of_run hafter⟩
  · intro href
    rw [if_neg (hreference ▸ href)] at hz
    obtain ⟨z₀, hz₀⟩ := get_replies command' hsetUp (found u (sameHomes_of_run hsetUp)) hopen
    exact ⟨_, z₀, z, hz₀.of_run hbefore, hz.of_run hafter⟩

/-- The line of a label. -/
def foodLine : Text := "\x7b\"type\": \"addr\", \"ref\": \"b\", \"label\": \"food\"\x7d\n"

/-- A world with a label file in a directory and another directory that is empty. -/
def housedWorld : World :=
  ⟨⟨[(["d"], .directory), (["e"], .directory),
      (["d", fileName], .file 0 (.ofOctets (foodLine.map fun c => UInt8.ofNat c.toNat)))], [], 1⟩,
    [], [("HOME", "/"), ("WALLETLABELS_LOG_DIR", "/")], [], none, 0, [], [], .initial⟩

theorem housedWorld_fresh : Fresh housedWorld := by
  refine ⟨⟨Tree.orderly_of_entries ?_ ?_ ?_, rfl⟩, fun n hn => absurd hn List.not_mem_nil, rfl⟩
  · simp only [housedWorld, List.forall_mem_cons]
    exact ⟨rfl, rfl, rfl, fun _ h => absurd h List.not_mem_nil⟩
  · simp [housedWorld]
  · simp [housedWorld]

theorem housedWorld_log : (Log.directory none).run housedWorld = (.ok (.ofRoot []), housedWorld) := by
  cbv

theorem housedWorld_room : Room none housedWorld := by
  rw [Log.room_iff housedWorld_log (World.locate_root housedWorld)]
  refine .of_plain fun n hn => ?_
  rcases hget : housedWorld.tree.get? ([] ++ [n]) with _ | e
  · exact .inl hget
  · have hfree : ∀ n ∈ Log.fileNames, n ≠ ("d" : Text) ∧ n ≠ ("e" : Text) := by decide
    rcases Tree.mem_of_get? hget with ⟨hnil, -⟩ | hmem
    · cases hnil
    · simp [housedWorld, hfree n hn] at hmem

theorem housedWorld_noLink (now : Int) :
    (usualSettings.prepared housedWorld).NoLinkAt (.ofText "d") (temporaryName now) := by
  intro d target _ h
  rw [prepared_link_iff housedWorld_fresh housedWorld_room] at h
  rcases Tree.mem_of_get? h with ⟨-, h⟩ | h
  · cases h
  · simp [housedWorld] at h

/-- A command line that sets the label of a transaction. -/
def rentSet : List Text := ["--data-dir", "d", "set", "tx", List.replicate 64 (.scalar 'A'), "rent"]

/-- Command lines that ask for a label in that directory. -/
def asking (kind ref : Text) : List Text := ["--data-dir", "d", "get", kind, ref]

/-- The text of the label file afterwards. -/
def rentText : Text :=
  Text.concat [foodLine, "\x7b\"type\": \"tx\", \"ref\": \"", List.replicate 64 (.scalar 'a'),
    "\", \"label\": \"rent\"\x7d\n"]

set_option maxRecDepth 20000 in
theorem run_rentSet : ∃ v, (run rentSet).run housedWorld = (.ok 0, v) ∧
    v.read (Path.child (.ofText "d") fileName) = .ok (rentText.map fun c => UInt8.ofNat c.toNat) := by
  have heval : ((run rentSet).run housedWorld).1 = .ok 0 ∧
      ((run rentSet).run housedWorld).2.read (Path.child (.ofText "d") fileName) =
        .ok (rentText.map fun c => UInt8.ofNat c.toNat) := by
    cbv
  exact ⟨_, Prod.ext heval.1 rfl, heval.2⟩

set_option maxRecDepth 20000 in
theorem decode_rentText : Utf8.decode (rentText.map fun c => UInt8.ofNat c.toNat) = .ok rentText ∧
    rentText.hasBreak = false := by
  constructor <;> cbv

set_option maxRecDepth 20000 in
/-- The label of a transaction that was named in capital letters is found under small ones, and the label
of an address is what it was. -/
theorem set_then_get_rent : ∃ v, (run rentSet).run housedWorld = (.ok 0, v) ∧
    (∃ y, Replies (run (asking "tx" (List.replicate 64 (.scalar 'a')))) ⟨0, "rent\n", []⟩
      { v with logger := .initial } y) ∧
    ∃ reply y z, Replies (run (asking "addr" "b")) reply housedWorld y ∧
      Replies (run (asking "addr" "b")) reply { v with logger := .initial } z := by
  obtain ⟨v, hrun, hread⟩ := run_rentSet
  have hset : demand rentSet = .run ⟨none, some "d", .set (some (.string Kind.transaction.name))
      (some (.string (List.replicate 64 (.scalar 'A')))) (some (.string "rent")) none false⟩ := by cbv
  have hget : demand (asking "tx" (List.replicate 64 (.scalar 'a'))) =
      .run ⟨none, some "d", .get (some (.string Kind.transaction.name))
        (some (.string (List.replicate 64 (.scalar 'a'))))⟩ := by cbv
  have hask : demand (asking "addr" "b") = .run ⟨none, some "d",
      .get (some (.string Kind.address.name)) (some (.string "b"))⟩ := by cbv
  have hsettings : Settings.default.run housedWorld = (.ok usualSettings, housedWorld) := by cbv
  have hdirectory : (directoryFor (some "d") (some usualSettings)).run housedWorld =
      (.ok (.ofText "d"), housedWorld) := by cbv
  have starts : Invocation.Starts ⟨none, some "d", .set (some (.string Kind.transaction.name))
      (some (.string (List.replicate 64 (.scalar 'A')))) (some (.string "rent")) none false⟩
      housedWorld usualSettings (.ofText "d") :=
    ⟨housedWorld_fresh, .usual (fun _ _ h => by cases h) hsettings, housedWorld_room, hdirectory⟩
  have whole : ∀ octets text, v.read (Path.child (.ofText "d") fileName) = .ok octets →
      Utf8.decode octets = .ok text → text.hasBreak = false := by
    intro octets text hread' hdecode
    obtain rfl := Except.ok.inj (hread.symm.trans hread')
    obtain rfl := Except.ok.inj (decode_rentText.1.symm.trans hdecode)
    exact decode_rentText.2
  have later : v.Later { v with logger := .initial } := ⟨rfl, rfl, ⟨rfl, rfl, rfl⟩, rfl⟩
  refine ⟨v, hrun, ?_, ?_⟩
  · exact (set_then_get hset starts (housedWorld_noLink _) (Eq.refl (Command.set _ _ _ _ _)) hrun whole
      later (fun _ _ h => by cases h) hget rfl rfl (Eq.refl (Command.get _ _))).1 (by decide +kernel)
  · exact (set_then_get hset starts (housedWorld_noLink _) (Eq.refl (Command.set _ _ _ _ _)) hrun whole
      later (fun _ _ h => by cases h) hask rfl rfl (Eq.refl (Command.get _ _))).2 (by decide +kernel)

end CommandLine

end LabelBook
