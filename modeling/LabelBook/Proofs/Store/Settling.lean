import LabelBook.Proofs.Store.Resaving

/-!
Writing again what has been written and read. The first writing leaves out the entries that are null,
gives every field its place and every value its spelling, and turns a number that has no spelling into
null. The second writing finds nothing more to do, but for one thing: where such a number was the whole
value of an entry, the entry is null now and is left out. After that the text does not change any more.
-/

namespace LabelBook

/-! ### Values -/

namespace Json

mutual

theorem spelled_spelled : ∀ v : Json, spelled (spelled v) = spelled v
  | null | bool _ | int _ | string _ => rfl
  | float x => by
    by_cases hx : x.isFinite = true
    · rw [spelled, if_pos hx, spelled, if_pos hx]
    · rw [spelled, if_neg hx]
      rfl
  | array vs => congrArg array (spelledItems_spelled vs)
  | object es => congrArg object (spelledEntries_spelled es)

theorem spelledItems_spelled : ∀ vs : List Json, spelledItems (spelledItems vs) = spelledItems vs
  | [] => rfl
  | v :: vs => congrArg₂ List.cons (spelled_spelled v) (spelledItems_spelled vs)

theorem spelledEntries_spelled : ∀ es : Entries,
    spelledEntries (spelledEntries es) = spelledEntries es
  | [] => rfl
  | (k, v) :: es =>
    congrArg₂ List.cons (congrArg (Prod.mk k) (spelled_spelled v)) (spelledEntries_spelled es)

end

mutual

/-- What was written can be written again as it is. -/
theorem writable_spelled : ∀ {v w : Json} {room : Nat}, writable room v = .ok w →
    writable room w = .ok w
  | null, _, 0, h | bool _, _, 0, h | int _, _, 0, h | float _, _, 0, h | string _, _, 0, h =>
    absurd h (by simp [writable])
  | null, _, _ + 1, h | bool _, _, _ + 1, h | int _, _, _ + 1, h | string _, _, _ + 1, h => by
    obtain rfl := Except.ok.inj h
    rfl
  | float x, _, _ + 1, h => by
    obtain rfl := Except.ok.inj h
    by_cases hx : x.isFinite = true
    · rw [if_pos hx, writable, if_pos hx]
    · rw [if_neg hx]
      rfl
  | array vs, _, _, h => by
    obtain ⟨less, ws, rfl, hws, rfl⟩ := writable_array h
    rw [writable, writableItems_spelled hws]
    rfl
  | object es, _, _, h => by
    obtain ⟨less, fs, rfl, hfs, rfl⟩ := writable_object h
    rw [writable, writableEntries_spelled hfs]
    rfl

theorem writableItems_spelled : ∀ {vs ws : List Json} {room : Nat}, writableItems room vs = .ok ws →
    writableItems room ws = .ok ws
  | [], _, _, h => by
    obtain rfl := Except.ok.inj h
    rfl
  | v :: vs, _, _, h => by
    obtain ⟨w, us, hw, hus, rfl⟩ := writableItems_cons h
    rw [writableItems, writable_spelled hw, writableItems_spelled hus]
    rfl

theorem writableEntries_spelled : ∀ {es fs : Entries} {room : Nat},
    writableEntries room es = .ok fs → writableEntries room fs = .ok fs
  | [], _, _, h => by
    obtain rfl := Except.ok.inj h
    rfl
  | (k, v) :: es, _, _, h => by
    have hkey : checkKey k = .ok () := by
      rw [writableEntries] at h
      split at h
      · cases h
      · cases h
      · next hk _ => exact hk
    obtain ⟨w, gs, hw, hgs, rfl⟩ := writableEntries_cons h
    rw [writableEntries, hkey, writable_spelled hw, writableEntries_spelled hgs]
    rfl

end

theorem spelledEntries_eq_map (es : Entries) :
    spelledEntries es = es.map fun e => (e.1, e.2.spelled) := by
  induction es with
  | nil => rfl
  | cons e es ih => rw [spelledEntries, ih, List.map_cons]

theorem mem_entryStrings_of_sublist {s : Text} {es fs : Entries} (h : es.Sublist fs) :
    s ∈ entryStrings es → s ∈ entryStrings fs := by
  induction h with
  | slnil => exact id
  | cons e _ ih => exact fun hs => List.mem_cons_of_mem _ (List.mem_append_right _ (ih hs))
  | cons_cons e _ ih =>
    intro hs
    rcases List.mem_cons.mp hs with rfl | hs
    · exact List.mem_cons_self
    · exact List.mem_cons_of_mem _ (List.mem_append.mpr ((List.mem_append.mp hs).imp_right ih))

theorem mem_entryFloats {x : Binary64} {key : Text} {v : Json} (hx : x ∈ floats v) :
    ∀ {es : Entries}, (key, v) ∈ es → x ∈ entryFloats es
  | (k, w) :: es, h => by
    rw [entryFloats, List.mem_append]
    rcases List.mem_cons.mp h with heq | h
    · obtain ⟨-, rfl⟩ := Prod.mk.inj heq
      exact .inl hx
    · exact .inr (mem_entryFloats hx h)

/-- A value is spelled as null if it is null, or a number without a spelling. -/
theorem isNull_spelled {v : Json} (h : v.isNull = false) :
    v.spelled.isNull = true ↔ ∃ x, v = .float x ∧ ¬ x.isFinite = true := by
  cases v with
  | null => cases h
  | float x => by_cases hx : x.isFinite = true <;> simp [spelled, hx, isNull]
  | bool _ | int _ | string _ | array _ | object _ => simp [spelled, isNull]

end Json

/-! ### Records -/

namespace Record

variable {r : Record} {t : Text}

/-- A record that no number without a spelling takes an entry from. Inside an array or an object such a
number does no harm, since the null that it turns into stays there. -/
def Settled (r : Record) : Prop :=
  ∀ key x, (key, Json.float x) ∈ r.extras → x.isFinite = true

theorem settled_iff : r.Settled ↔ ∀ e ∈ r.keptExtras, e.2.isNull = false := by
  rw [keptExtras, Json.spelledEntries_eq_map, List.forall_mem_map]
  constructor
  · rintro settled ⟨key, v⟩ he
    obtain ⟨hmem, hnull⟩ := List.mem_filter.mp he
    by_contra hspelled
    obtain ⟨x, rfl, hx⟩ := (Json.isNull_spelled (by simpa using hnull)).mp (by simpa using hspelled)
    exact hx (settled key x hmem)
  · intro hkept key x hmem
    by_contra hx
    have hfalse := hkept (key, .float x) (List.mem_filter.mpr ⟨hmem, rfl⟩)
    rw [(Json.isNull_spelled rfl).mpr ⟨x, rfl, hx⟩] at hfalse
    cases hfalse

/-- A record without numbers that have no spelling is settled. -/
theorem settled_of_finite (h : ∀ x ∈ Json.entryFloats r.extras, x.isFinite = true) : r.Settled :=
  fun _ x hmem => h x (Json.mem_entryFloats (List.mem_singleton.mpr rfl) hmem)

/-- A record stays as it was written if its entries were all kept. -/
theorem asWritten_asWritten_iff : r.asWritten.asWritten = r.asWritten ↔ r.Settled := by
  have hextras : r.asWritten.extras = r.keptExtras := rfl
  rw [settled_iff]
  constructor
  · intro heq e he
    have hlength := congrArg (fun s : Record => s.extras.length) heq
    simp only [asWritten, keptExtras, Json.spelledEntries_eq_map, List.length_map] at hlength
    rw [← Json.spelledEntries_eq_map, ← keptExtras] at hlength
    have hall := List.length_filter_eq_length_iff.mp (hlength.trans (by
      rw [keptExtras, Json.spelledEntries_eq_map, List.length_map]))
    simpa using hall e he
  · intro hkept
    have hsame : r.asWritten.keptExtras = r.keptExtras := by
      rw [keptExtras, hextras, List.filter_eq_self.mpr fun e he => by rw [hkept e he]; rfl]
      exact Json.spelledEntries_spelled _
    rw [asWritten, hsame]
    rfl

theorem settled_asWritten (r : Record) : r.asWritten.Settled := by
  intro key x hmem
  have hmem : (key, Json.float x) ∈ r.keptExtras := hmem
  rw [keptExtras, Json.spelledEntries_eq_map] at hmem
  obtain ⟨⟨k, v⟩, -, heq⟩ := List.mem_map.mp hmem
  have hv : v.spelled = .float x := congrArg Prod.snd heq
  have hspelled := Json.spelled_spelled v
  rw [hv] at hspelled
  exact Json.spelled_eq_iff.mp hspelled x (List.mem_singleton.mpr rfl)

theorem hasBreak_asWritten (h : r.hasBreak = false) : r.asWritten.hasBreak = false := by
  rw [hasBreak, List.any_eq_false] at h ⊢
  intro s hs
  refine h s ?_
  have hstrings : s ∈ Json.entryStrings r.keptExtras → s ∈ Json.entryStrings r.extras := by
    rw [keptExtras, Json.entryStrings_spelled]
    exact Json.mem_entryStrings_of_sublist List.filter_sublist
  have hmem : s ∈ r.ref :: (r.label.toList ++ bodyStrings r.body ++ Json.entryStrings r.keptExtras) :=
    hs
  rw [strings, List.mem_cons, List.mem_append]
  rw [List.mem_cons, List.mem_append] at hmem
  exact hmem.imp_right (Or.imp_right hstrings)

/-! ### Lines -/

theorem writtenExtras_written {es fs : Entries} (h : writtenExtras es = .ok fs) :
    ∃ gs, writtenExtras fs = .ok gs := by
  induction es generalizing fs with
  | nil => exact ⟨[], by rw [← Except.ok.inj h]; rfl⟩
  | cons e es ih =>
    obtain ⟨k, v⟩ := e
    cases hv : v.isNull with
    | true =>
      obtain rfl := eq_null_of_isNull hv
      exact ih h
    | false =>
      obtain ⟨w, gs, hw, hgs, rfl⟩ := writtenExtras_cons hv h
      obtain ⟨hs, hhs⟩ := ih hgs
      cases hnull : w.isNull with
      | true =>
        obtain rfl := eq_null_of_isNull hnull
        exact ⟨hs, hhs⟩
      | false =>
        refine ⟨(k, w) :: hs, ?_⟩
        rw [writtenExtras, Json.writable_spelled hw, hhs]
        · rfl
        · rintro rfl
          cases hnull

/-- What the line of a record says has a line, and that is the same one if the record is settled. -/
theorem line_asWritten (h : r.line = .ok t) :
    ∃ a, r.asWritten.line = .ok a ∧ (r.Settled → a = t) := by
  unfold line written at h
  cases hextras : writtenExtras r.extras with
  | error e => simp [hextras, Except.map] at h
  | ok fs =>
    simp only [hextras, Except.map] at h
    split at h
    · cases h
    · next hlong =>
      obtain rfl : fs = r.keptExtras := writtenExtras_eq hextras
      obtain ⟨gs, hgs⟩ := writtenExtras_written hextras
      have hlong' : Json.entriesHoldLongInt (r.fieldEntries ++ gs) = false := by
        rw [Bool.not_eq_true, Json.entriesHoldLongInt_append, Bool.or_eq_false_iff] at hlong
        rw [Json.entriesHoldLongInt_append, Bool.or_eq_false_iff, writtenExtras_eq hgs,
          Json.entriesHoldLongInt_spelled]
        exact ⟨hlong.1, Json.entriesHoldLongInt_eq_false.mpr fun e he =>
          Json.entriesHoldLongInt_eq_false.mp hlong.2 e (List.mem_of_mem_filter he)⟩
      have hwritten : r.asWritten.written = .ok (r.fieldEntries ++ gs) := by
        have : writtenExtras r.asWritten.extras = .ok gs := hgs
        rw [written, this]
        rfl
      refine ⟨(Json.object (r.fieldEntries ++ gs)).print false ++ [.scalar '\n'], ?_, fun settled => ?_⟩
      · rw [line, hwritten]
        simp only [hlong']
        rfl
      · have hkept : gs = r.asWritten.asWritten.extras := writtenExtras_eq hgs
        rw [asWritten_asWritten_iff.mpr settled] at hkept
        rw [hkept]
        exact Except.ok.inj h

end Record

/-! ### Texts -/

namespace Collection

open Record

variable {rs : List Record} {t u v : Text} {c d : Collection}

theorem text_asWritten (h : text ⟨rs⟩ = .ok u) :
    ∃ v, text ⟨rs.map asWritten⟩ = .ok v ∧ ((∀ r ∈ rs, r.Settled) → v = u) := by
  induction rs generalizing u with
  | nil => exact ⟨u, h, fun _ => rfl⟩
  | cons r rs ih =>
    obtain ⟨a, b, ha, hb, rfl⟩ := linesOf_cons h
    obtain ⟨a', ha', hsame⟩ := line_asWritten ha
    obtain ⟨b', hb', hrest⟩ := ih hb
    refine ⟨a' ++ b', ?_, fun settled => ?_⟩
    · rw [List.map_cons, text, linesOf, ha']
      simp only [show linesOf (rs.map asWritten) = .ok b' from hb']
      rfl
    · rw [hsame (settled r List.mem_cons_self),
        hrest fun q hq => settled q (List.mem_cons_of_mem r hq)]

/-- A text that was written and can be read holds what was written. -/
theorem ofText_text (written : text ⟨rs⟩ = .ok u) (regular : ∀ r ∈ rs, r.Regular)
    (read : ofText u = .ok d) :
    d = ⟨rs.map asWritten⟩ ∧ ∀ r ∈ rs, r.asWritten.hasBreak = false := by
  rcases first_or_none (fun r => r.asWritten.hasBreak) rs with
    hnone | ⟨before, r, after, rfl, hbefore, hr⟩
  · exact ⟨Except.ok.inj (read.symm.trans (ofText_whole written regular hnone)), hnone⟩
  · obtain ⟨cause, hcut⟩ := ofText_cut written regular hbefore hr
    cases hcut.symm.trans read

theorem ofText_described (read : ofText t = .ok c) : ∀ r ∈ c.records, r.Described := by
  obtain ⟨rs, hrs, rfl⟩ := Except.eq_ok_of_map read
  intro r hr
  obtain ⟨n, line, hline⟩ := recordsFrom_lines hrs r hr
  exact ofLine_described hline

/-- A text that was written, read and written again is the same if and only if every record of it is
settled. -/
theorem text_again (read : ofText t = .ok c) (written : c.text = .ok u) (reread : ofText u = .ok d) :
    ∃ v, d.text = .ok v ∧ (v = u ↔ ∀ r ∈ c.records, r.Settled) := by
  obtain ⟨rs⟩ := c
  have regular : ∀ r ∈ rs, r.Regular := fun r hr => (ofText_described read r hr).regular
  obtain ⟨rfl, hbreak⟩ := ofText_text written regular reread
  obtain ⟨v, hv, hsame⟩ := text_asWritten written
  refine ⟨v, hv, fun heq => ?_, hsame⟩
  -- Were the texts one, reading it would give the records as they were written once and twice.
  have htwice := ofText_whole hv (fun r hr => (ofText_described reread r hr).regular) fun r hr => by
    obtain ⟨q, hq, rfl⟩ := List.mem_map.mp hr
    exact hasBreak_asWritten (hbreak q hq)
  rw [heq] at htwice
  have hrecords := congrArg records (Except.ok.inj (htwice.symm.trans reread))
  rw [List.map_map] at hrecords
  exact fun r hr => asWritten_asWritten_iff.mp (List.map_inj_left.mp hrecords r hr)

/-- The text that came of the second writing is read, and written as it is. -/
theorem text_third (read : ofText t = .ok c) (written : c.text = .ok u) (reread : ofText u = .ok d)
    (rewritten : d.text = .ok v) : ∃ e, ofText v = .ok e ∧ e.text = .ok v := by
  obtain ⟨rs⟩ := c
  have regular : ∀ r ∈ rs, r.Regular := fun r hr => (ofText_described read r hr).regular
  obtain ⟨rfl, hbreak⟩ := ofText_text written regular reread
  have hread := ofText_whole rewritten (fun r hr => (ofText_described reread r hr).regular)
    fun r hr => by
      obtain ⟨q, hq, rfl⟩ := List.mem_map.mp hr
      exact hasBreak_asWritten (hbreak q hq)
  obtain ⟨w, hw, hsame⟩ := text_again reread rewritten hread
  refine ⟨_, hread, ?_⟩
  rw [hw, hsame.mpr fun r hr => ?_]
  obtain ⟨q, -, rfl⟩ := List.mem_map.mp hr
  exact settled_asWritten q

end Collection

/-! ### Files -/

namespace Store

open Collection

variable {directory : Path} {w x y z : World} {octets : Octets} {t u : Text} {c d : Collection}

/-- A run in which the store of a directory is opened and, maybe later, saved as it is, with no link at
the path of the temporary file. -/
def Resaves (directory : Path) (w z : World) : Prop :=
  ∃ s x y, (openIn directory).run w = (.ok s, x) ∧ x.SameEntries y ∧ s.NoLink y ∧
    s.save.run y = (.ok (), z)

/-- A file that was written for a store, opened and saved again has the text of what was read. -/
theorem resaves_read (written : c.text = .ok u) (kept : Kept ⟨c, directory.child fileName⟩)
    (encoded : Utf8.encode u = .ok octets) (proper : directory.Proper) (sound : w.Sound)
    (quiet : w.Quiet) (here : w.read (directory.child fileName) = .ok octets)
    (resaves : Resaves directory w z) : ∃ d v octets', ofText u = .ok d ∧ d.text = .ok v ∧
      Utf8.encode v = .ok octets' ∧ z.read (directory.child fileName) = .ok octets' := by
  obtain ⟨s, x, y, hopen, later, noLink, hsave⟩ := resaves
  obtain ⟨x', told, hrun⟩ := run_openIn quiet directory
  obtain ⟨hopened, rfl⟩ := Prod.mk.inj (hrun.symm.trans hopen)
  have same : w.SameEntries y := told.sameEntries.trans later
  rcases opened_of_text written kept encoded here with
    ⟨hnone, hstore⟩ | ⟨_, _, _, _, -, -, -, herror⟩
  · obtain rfl := Except.ok.inj (hstore.symm.trans hopened)
    have hspecies : y.species (directory.child fileName) = .ok .file := by
      rw [same.species]
      exact World.read_ok here
    have housed : Housed ⟨⟨c.records.map Record.asWritten⟩, directory.child fileName⟩ y :=
      housed_child (same.sound sound) same.quiet proper rfl (.inl hspecies)
    have hread := ofText_whole written (fun r hr => (kept.described r hr).regular) hnone
    rcases housed.save_ok noLink hsave with ⟨-, hnowhere, -⟩ | ⟨⟨v, octets', hv, hoctets, hz⟩, -⟩
    · exact absurd hspecies (hnowhere .file)
    · refine ⟨_, v, octets', hread, hv, hoctets, hz ?_ ?_⟩ <;>
        rw [show Store.path ⟨_, directory.child fileName⟩ = _ from rfl, hspecies] <;> simp
  · cases herror.symm.trans hopened

/-- Writing again what was read from a written text gives that text if and only if every record is
settled, that is if no entry of it was a number without a spelling; so it is for the file of a store too,
which is opened and saved again. What comes of the second writing stays, however often it is read and
written. -/
theorem text_settles (read : ofText t = .ok c) (written : c.text = .ok u) (reread : ofText u = .ok d) :
    ∃ v, d.text = .ok v ∧ (v = u ↔ ∀ r ∈ c.records, r.Settled) ∧
      (∃ e, ofText v = .ok e ∧ e.text = .ok v) ∧
      ∀ {directory : Path} {w z : World} {octets : Octets}, c.references.Nodup →
        Utf8.encode u = .ok octets → directory.Proper → w.Sound → w.Quiet →
        w.read (directory.child fileName) = .ok octets → Resaves directory w z →
        (z.read (directory.child fileName) = .ok octets ↔ ∀ r ∈ c.records, r.Settled) := by
  obtain ⟨v, hv, hsame⟩ := text_again read written reread
  refine ⟨v, hv, hsame, text_third read written reread hv, ?_⟩
  intro directory w z octets nodup encoded proper sound quiet here resaves
  have kept : Kept ⟨c, directory.child fileName⟩ := ⟨nodup, ofText_described read⟩
  obtain ⟨d', v', octets', hd, hv', hoctets, hz⟩ :=
    resaves_read written kept encoded proper sound quiet here resaves
  obtain rfl := Except.ok.inj (hd.symm.trans reread)
  obtain rfl := Except.ok.inj (hv'.symm.trans hv)
  rw [← hsame, hz]
  constructor
  · intro heq
    obtain rfl := Except.ok.inj heq
    exact Except.ok.inj ((Utf8.decode_encode hoctets).symm.trans (Utf8.decode_encode encoded))
  · rintro rfl
    rw [Except.ok.inj (hoctets.symm.trans encoded)]

/-- A line with a number without a spelling. -/
def nanText : Text := "\x7b\"type\": \"addr\", \"ref\": \"a\", \"x\": NaN\x7d\n"

/-- The line that is written for its record. -/
def nullText : Text := "\x7b\"type\": \"addr\", \"ref\": \"a\", \"x\": null\x7d\n"

/-- The record of such a line. -/
def oddRecord (v : Json) : Record := { Collection.plainRecord with label := none, extras := [("x", v)] }

/-- A world in which the label file has the line that was written. -/
def nullWorld : World := fileWorld (nullText.map fun c => UInt8.ofNat c.toNat)

set_option maxRecDepth 20000 in
theorem nullWorld_resaves : ∃ z, Resaves ⟨.here, []⟩ nullWorld z := by
  have hopen : ((openIn ⟨.here, []⟩).run nullWorld).1 =
      .ok ⟨⟨[oddRecord .null]⟩, ⟨.here, [fileName]⟩⟩ := by cbv
  have hsave : ((save ⟨⟨[oddRecord .null]⟩, ⟨.here, [fileName]⟩⟩).run
      ((openIn ⟨.here, []⟩).run nullWorld).2).1 = .ok () := by cbv
  obtain ⟨v, told, hrun⟩ := run_openIn (fileWorld_quiet _) ⟨.here, []⟩
  have hv : ((openIn ⟨.here, []⟩).run nullWorld).2 = v := congrArg Prod.snd hrun
  refine ⟨_, _, _, v, Prod.ext hopen hv, ⟨fun _ => rfl, rfl, told.quiet⟩, fun l target hl => ?_,
    Prod.ext (hv ▸ hsave) rfl⟩
  rw [fileWorld_vacant told l hl]
  simp

/-- The number turns into null, and the null is gone the next time, from the text and from a file. -/
theorem text_settles_nan : ∃ v z octets, ofText nanText = .ok ⟨[oddRecord (.float .nan)]⟩ ∧
    text ⟨[oddRecord (.float .nan)]⟩ = .ok nullText ∧ ofText nullText = .ok ⟨[oddRecord .null]⟩ ∧
    text ⟨[oddRecord .null]⟩ = .ok v ∧ v ≠ nullText ∧ Utf8.encode nullText = .ok octets ∧
    Resaves ⟨.here, []⟩ nullWorld z ∧ nullWorld.read ⟨.here, [fileName]⟩ = .ok octets ∧
    z.read ⟨.here, [fileName]⟩ ≠ .ok octets := by
  have hread : ofText nanText = .ok ⟨[oddRecord (.float .nan)]⟩ := by cbv
  have hwritten : text ⟨[oddRecord (.float .nan)]⟩ = .ok nullText := by cbv
  have hreread : ofText nullText = .ok ⟨[oddRecord .null]⟩ := by cbv
  have hencode : Utf8.encode nullText = .ok (nullText.map fun c => UInt8.ofNat c.toNat) := by cbv
  have hnot : ¬ ∀ r ∈ [oddRecord (.float .nan)], r.Settled := fun h =>
    absurd (h _ List.mem_cons_self "x" .nan List.mem_cons_self) (by decide)
  obtain ⟨z, hz⟩ := nullWorld_resaves
  obtain ⟨v, hv, hsame, -, hfile⟩ := text_settles hread hwritten hreread
  refine ⟨v, z, _, hread, hwritten, hreread, hv, fun heq => hnot (hsame.mp heq), hencode, hz,
    fileWorld_read _, fun heq => hnot ?_⟩
  exact (hfile (List.nodup_singleton _) hencode (fun n hn => absurd hn List.not_mem_nil)
    (fileWorld_sound _) (fileWorld_quiet _) (fileWorld_read _) hz).mp heq

end Store

end LabelBook
