import LabelBook.Log.Event
import LabelBook.Proofs.Json.Breaks
import LabelBook.Proofs.Json.Written

/-!
Reading back what is logged for programs. The details come first, as they were given, with each path as its
text; what is told beside them follows under the keys that they leave, in its order. Since keys that are
there are never put again, all keys differ, and the JSON text of an event is read back as this object.
It stays on one line, whatever stands in the details or in the message.
-/

namespace LabelBook

/-! ### Keys that are left -/

namespace Entries

theorem isSome_get? (key : Text) (es : Entries) :
    (es.get? key).isSome = true ↔ key ∈ es.map Prod.fst := by
  induction es with
  | nil => simp [get?]
  | cons e es ih =>
    obtain ⟨k, v⟩ := e
    rw [get?, List.map_cons, List.mem_cons, ← ih]
    by_cases h : k = key
    · simp [h]
    · simp [h, Ne.symm h]

/-- Texts under the keys that some entries leave, as entries. -/
def lacking (es : Entries) (told : List (Text × Text)) : Entries :=
  (told.filter fun t => !(es.map Prod.fst).contains t.1).map fun t => (t.1, .string t.2)

theorem lacking_concat {es : Entries} {key : Text} {v : Json} {told : List (Text × Text)}
    (h : key ∉ told.map Prod.fst) : lacking (es ++ [(key, v)]) told = lacking es told := by
  unfold lacking
  congr 1
  refine List.filter_congr fun t ht => ?_
  have hne : t.1 ≠ key := fun heq => h (heq ▸ List.mem_map_of_mem ht)
  simp [hne]

/-- Texts that are put one after another, each under a key that is not there yet, stand behind what was
there, and those whose keys were taken are left out. -/
theorem foldl_putNew : ∀ (told : List (Text × Text)) (es : Entries), (told.map Prod.fst).Nodup →
    told.foldl (fun fs t => fs.putNew t.1 (.string t.2)) es = es ++ lacking es told
  | [], es, _ => (List.append_nil es).symm
  | (k, t) :: told, es, h => by
    obtain ⟨hk, htold⟩ := List.nodup_cons.mp h
    rw [List.foldl_cons, foldl_putNew told _ htold, putNew]
    by_cases hmem : k ∈ es.map Prod.fst
    · rw [if_pos ((isSome_get? k es).mpr hmem), lacking, lacking,
        List.filter_cons_of_neg (by simpa using hmem)]
    · rw [if_neg (mt (isSome_get? k es).mp hmem), Json.put_of_not_mem hmem, lacking_concat hk, lacking,
        lacking, List.filter_cons_of_pos (by simpa using hmem), List.append_assoc]
      rfl

/-- What is put where keys are left makes no key come twice. -/
theorem nodup_lacking {es : Entries} {told : List (Text × Text)} (hes : (es.map Prod.fst).Nodup)
    (htold : (told.map Prod.fst).Nodup) : ((es ++ lacking es told).map Prod.fst).Nodup := by
  have hkeys : (lacking es told).map Prod.fst =
      (told.filter fun t => !(es.map Prod.fst).contains t.1).map Prod.fst := by
    rw [lacking, List.map_map]
    rfl
  rw [List.map_append, hkeys]
  refine hes.append (htold.sublist (List.filter_sublist.map Prod.fst)) fun k hk hleft => ?_
  obtain ⟨t, ht, rfl⟩ := List.mem_map.mp hleft
  exact absurd hk (by simpa using (List.mem_filter.mp ht).2)

end Entries

theorem Json.readable_strings (depth : Nat) (told : List (Text × Text)) :
    EntriesReadable depth (told.map fun t => (t.1, .string t.2)) := by
  induction told with
  | nil => trivial
  | cons t told ih => exact ⟨trivial, ih⟩

/-! ### Entries as pairs -/

/-- Entries as pairs whose keys are texts. -/
def Entries.texts (es : Entries) : List (Key × Json) := es.map fun e => (.text e.1, e.2)

namespace Key

theorem same_text (s t : Text) : (text s).same (text t) = (s == t) := rfl

theorem find?_texts (k : Text) (es : Entries) : (text k).find? es.texts = es.get? k := by
  induction es with
  | nil => rfl
  | cons e es ih =>
    rw [Entries.texts, List.map_cons, find?, same_text, Entries.get?]
    simp only [beq_iff_eq]
    exact congrArg _ ih

theorem put_texts (k : Text) (v : Json) (es : Entries) :
    (text k).put v es.texts = (es.put k v).texts := by
  induction es with
  | nil => rfl
  | cons e es ih =>
    rw [Entries.texts, List.map_cons, put, same_text, Entries.put]
    simp only [beq_iff_eq]
    split
    · rfl
    · exact congrArg _ ih

theorem putNew_texts (k : Text) (v : Json) (es : Entries) :
    (text k).putNew v es.texts = (es.putNew k v).texts := by
  rw [putNew, find?_texts, put_texts, Entries.putNew]
  split <;> rfl

end Key

namespace Event

theorem fill_texts (told : List (Text × Text)) (es : Entries) : fill es.texts told =
    Entries.texts (told.foldl (fun fs t => fs.putNew t.1 (.string t.2)) es) := by
  unfold fill
  induction told generalizing es with
  | nil => rfl
  | cons t told ih => rw [List.foldl_cons, List.foldl_cons, Key.putNew_texts, ih]

theorem named_texts (es : Entries) : named es.texts = .ok es := by
  induction es with
  | nil => rfl
  | cons e es ih =>
    rw [Entries.texts, List.map_cons, named]
    show (named (Entries.texts es)).map _ = _
    rw [ih]
    rfl

/-! ### The object of an event -/

variable {e : Event} {es : List (Text × Detail)} {t : Text}

/-- An event whose details are the entries of an object, or are left out and count as no entries. -/
def Carries (e : Event) (es : List (Text × Detail)) : Prop :=
  e.details = .object es ∨ e.details = .null ∧ es = []

theorem entriesToJson_eq_map (es : List (Text × Detail)) :
    Detail.entriesToJson es = es.map fun d => (d.1, d.2.toJson) := by
  induction es with
  | nil => rfl
  | cons d es ih =>
    rw [Detail.entriesToJson, ih]
    rfl

theorem Carries.detailPairs (h : e.Carries es) :
    e.detailPairs = .ok (Entries.texts (Detail.entriesToJson es)) := by
  have hpairs : (Parted.pairs (Detail.object es)).mapError Failure.noEntries =
      .ok (es.map fun d => (.text d.1, d.2)) := rfl
  unfold Event.detailPairs
  rcases h with h | ⟨h, rfl⟩
  · rw [h]
    cases es with
    | nil => rfl
    | cons d es =>
      have htruthy : (Detail.object (d :: es)).isTruthy = true := rfl
      rw [if_pos htruthy, hpairs, entriesToJson_eq_map]
      simp [Except.map, Entries.texts]
  · rw [h]
    rfl

theorem nodup_standing (now : Int) (e : Event) (message : Text) :
    ((e.standing now message).map Prod.fst).Nodup := by
  have halways : (["message", "level", "timestamp"] : List Text).Nodup := by decide
  have hall : (["message", "level", "timestamp", "exc_info"] : List Text).Nodup := by decide
  unfold standing
  cases e.trace with
  | none => exact halways
  | some _ => exact hall

/-- The JSON text of an event is that of its details, with what is told beside them under the keys that
they leave. -/
theorem Carries.json (h : e.Carries es) (hmessage : e.message = .ok t) (now : Int) :
    e.json now = .ok ((Json.object (Detail.entriesToJson es ++
      Entries.lacking (Detail.entriesToJson es) (e.standing now t))).print false) := by
  have htext : e.text = .ok t := by rw [text, hmessage]; rfl
  have hentries : e.toEntries now = .ok (Detail.entriesToJson es ++
      Entries.lacking (Detail.entriesToJson es) (e.standing now t)) := by
    unfold toEntries
    rw [htext, h.detailPairs]
    show (named (fill _ (e.standing now t))).mapError _ = _
    rw [fill_texts, named_texts, Entries.foldl_putNew _ _ (nodup_standing now e t)]
    rfl
  rw [Event.json, hentries]
  rfl

/-- An event whose message is in order and whose details can be read back as JSON has a JSON text without
controls, which is read back as an object: first the details under their keys, in their order, with paths
as their texts; then the message, the level and the time, and the text of an error that was met, each
unless the details have its key. -/
theorem json_read_back (now : Int) (message : e.message = .ok t) (carries : e.Carries es)
    (readable : Json.Readable 200 (Detail.object es).toJson) :
    ∃ line, e.json now = .ok line ∧ (∀ c ∈ line, 0x20 ≤ c.toNat) ∧
      Json.parse line = .ok (.object (Detail.entriesToJson es ++
        Entries.lacking (Detail.entriesToJson es) (e.standing now t))) := by
  obtain ⟨-, hkeys, hvalues⟩ := readable
  refine ⟨_, carries.json message now, Json.le_of_mem_print _, Json.parse_print ⟨by decide, ?_, ?_⟩⟩
  · exact Entries.nodup_lacking hkeys (nodup_standing now e t)
  · exact Json.entriesReadable_append (Json.EntriesReadable.mono (by decide) hvalues)
      (Json.readable_strings _ _)

/-- An event that was logged when an error was met, with details that have a message of their own. -/
def lostEvent : Event where
  level := .error
  message := .ok "cannot save"
  details := .object [("message", .null), ("path", .path ⟨.here, ["a", "b"]⟩),
    ("parts", .array [.path ⟨.root, []⟩, .int (-1), .string "1\n2"])]
  trace := some "OSError: full"

/-- Its own message stays, though it is null, and what else is told comes behind the details. -/
theorem json_read_back_lostEvent : ∃ line, lostEvent.json 0 = .ok line ∧
    (∀ c ∈ line, 0x20 ≤ c.toNat) ∧ Json.parse line = .ok (.object [("message", .null),
      ("path", .string "a/b"), ("parts", .array [.string "/", .int (-1), .string "1\n2"]),
      ("level", .string "ERROR"), ("timestamp", .string "1970-01-01T00:00:00+00:00"),
      ("exc_info", .string "OSError: full")]) := by
  have readable : Json.Readable 200 (Detail.object [("message", .null),
      ("path", .path ⟨.here, ["a", "b"]⟩),
      ("parts", .array [.path ⟨.root, []⟩, .int (-1), .string "1\n2"])]).toJson := by
    have hdigits : digitCount 1 ≤ Json.maxDigits := by decide
    exact ⟨by decide, by decide, trivial, trivial,
      ⟨by decide, trivial, hdigits, trivial, trivial⟩, trivial⟩
  exact json_read_back 0 rfl (.inl rfl) readable

end Event

end LabelBook
