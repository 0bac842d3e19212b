import LabelBook.Proofs.Json.Breaks
import LabelBook.Record.Line

/-!
What becomes of a value on its way into a record: numbers without a spelling turn into null, and
nothing else changes. So a value whose numbers are finite is written as it is, the strings of a value
stay the same, and what has been written is read back if no two keys of an object were the same.
-/

namespace LabelBook

theorem Except.eq_ok_of_map {x : Except ε α} {f : α → β} {b : β} (h : x.map f = .ok b) :
    ∃ a, x = .ok a ∧ b = f a := by
  cases x with
  | error e => simp [Except.map] at h
  | ok a => exact ⟨a, rfl, (Except.ok.inj h).symm⟩

namespace Json

/-- The value null. -/
def isNull : Json → Bool
  | null => true
  | _ => false

mutual

/-- A value in which numbers without a spelling have turned into null. -/
def spelled : Json → Json
  | float x => if x.isFinite then float x else null
  | array vs => array (spelledItems vs)
  | object es => object (spelledEntries es)
  | v => v

/-- Items in which numbers without a spelling have turned into null. -/
def spelledItems : List Json → List Json
  | [] => []
  | v :: vs => spelled v :: spelledItems vs

/-- Entries in which numbers without a spelling have turned into null. -/
def spelledEntries : Entries → Entries
  | [] => []
  | (k, v) :: es => (k, spelled v) :: spelledEntries es

end

mutual

/-- The floating-point numbers in a value. -/
def floats : Json → List Binary64
  | float x => [x]
  | array vs => itemFloats vs
  | object es => entryFloats es
  | _ => []

/-- The floating-point numbers in some items. -/
def itemFloats : List Json → List Binary64
  | [] => []
  | v :: vs => floats v ++ itemFloats vs

/-- The floating-point numbers in the values of some entries. -/
def entryFloats : Entries → List Binary64
  | [] => []
  | (_, v) :: es => floats v ++ entryFloats es

end

mutual

/-- Whether no two keys of any object in a value are the same. -/
def DistinctKeys : Json → Prop
  | array vs => ItemsDistinct vs
  | object es => (es.map Prod.fst).Nodup ∧ EntriesDistinct es
  | _ => True

/-- Whether no two keys of any object in some items are the same. -/
def ItemsDistinct : List Json → Prop
  | [] => True
  | v :: vs => DistinctKeys v ∧ ItemsDistinct vs

/-- Whether no two keys of any object in the values of some entries are the same. -/
def EntriesDistinct : Entries → Prop
  | [] => True
  | (_, v) :: es => DistinctKeys v ∧ EntriesDistinct es

end

/-! ### Entries one by one -/

@[simp] theorem keys_spelledEntries (es : Entries) :
    (spelledEntries es).map Prod.fst = es.map Prod.fst := by
  induction es with
  | nil => rfl
  | cons e es ih => rw [spelledEntries, List.map_cons, List.map_cons, ih]

theorem entriesDistinct_iff {es : Entries} : EntriesDistinct es ↔ ∀ e ∈ es, DistinctKeys e.2 := by
  induction es with
  | nil => simp [EntriesDistinct]
  | cons e es ih => rw [EntriesDistinct, ih, List.forall_mem_cons]

theorem entriesReadable_append {depth : Nat} : ∀ {es fs : Entries}, EntriesReadable depth es →
    EntriesReadable depth fs → EntriesReadable depth (es ++ fs)
  | [], _, _, hf => hf
  | (_, _) :: _, _, he, hf => ⟨he.1, entriesReadable_append he.2 hf⟩

theorem entryStrings_append : ∀ es fs : Entries,
    entryStrings (es ++ fs) = entryStrings es ++ entryStrings fs
  | [], _ => rfl
  | (k, v) :: es, fs => by
    rw [List.cons_append, entryStrings, entryStrings, entryStrings_append es fs, List.cons_append,
      List.append_assoc]

theorem entriesHoldLongInt_append : ∀ es fs : Entries,
    entriesHoldLongInt (es ++ fs) = (entriesHoldLongInt es || entriesHoldLongInt fs)
  | [], _ => rfl
  | (k, v) :: es, fs => by
    rw [List.cons_append, entriesHoldLongInt, entriesHoldLongInt, entriesHoldLongInt_append es fs,
      Bool.or_assoc]

/-! ### Spelling -/

mutual

theorem spelled_of_finite : ∀ {v : Json}, (∀ x ∈ floats v, x.isFinite = true) → spelled v = v
  | null, _ => rfl
  | bool _, _ => rfl
  | int _, _ => rfl
  | float x, h => by rw [spelled, if_pos (h x List.mem_cons_self)]
  | string _, _ => rfl
  | array vs, h => by rw [spelled, spelledItems_of_finite h]
  | object es, h => by rw [spelled, spelledEntries_of_finite h]

theorem spelledItems_of_finite : ∀ {vs : List Json}, (∀ x ∈ itemFloats vs, x.isFinite = true) →
    spelledItems vs = vs
  | [], _ => rfl
  | v :: vs, h => by
    rw [spelledItems, spelled_of_finite fun x hx => h x (List.mem_append_left _ hx),
      spelledItems_of_finite fun x hx => h x (List.mem_append_right _ hx)]

theorem spelledEntries_of_finite : ∀ {es : Entries}, (∀ x ∈ entryFloats es, x.isFinite = true) →
    spelledEntries es = es
  | [], _ => rfl
  | (k, v) :: es, h => by
    rw [spelledEntries, spelled_of_finite fun x hx => h x (List.mem_append_left _ hx),
      spelledEntries_of_finite fun x hx => h x (List.mem_append_right _ hx)]

end

mutual

theorem strings_spelled : ∀ v : Json, strings (spelled v) = strings v
  | null => rfl
  | bool _ => rfl
  | int _ => rfl
  | float x => by rw [spelled]; split <;> rfl
  | string _ => rfl
  | array vs => itemStrings_spelled vs
  | object es => entryStrings_spelled es

theorem itemStrings_spelled : ∀ vs : List Json, itemStrings (spelledItems vs) = itemStrings vs
  | [] => rfl
  | v :: vs => by
    rw [spelledItems, itemStrings, itemStrings, strings_spelled v, itemStrings_spelled vs]

theorem entryStrings_spelled : ∀ es : Entries, entryStrings (spelledEntries es) = entryStrings es
  | [] => rfl
  | (k, v) :: es => by
    rw [spelledEntries, entryStrings, entryStrings, strings_spelled v, entryStrings_spelled es]

end

/-! ### Writing -/

theorem writable_array {room : Nat} {vs : List Json} {w : Json} (h : writable room (array vs) = .ok w) :
    ∃ less ws, room = less + 1 ∧ writableItems less vs = .ok ws ∧ w = array ws := by
  cases room with
  | zero => simp [writable] at h
  | succ less =>
    obtain ⟨ws, hws, hw⟩ := Except.eq_ok_of_map h
    exact ⟨less, ws, rfl, hws, hw⟩

theorem writable_object {room : Nat} {es : Entries} {w : Json} (h : writable room (object es) = .ok w) :
    ∃ less fs, room = less + 1 ∧ writableEntries less es = .ok fs ∧ w = object fs := by
  cases room with
  | zero => simp [writable] at h
  | succ less =>
    obtain ⟨fs, hfs, hw⟩ := Except.eq_ok_of_map h
    exact ⟨less, fs, rfl, hfs, hw⟩

theorem writableItems_cons {room : Nat} {v : Json} {vs ws : List Json}
    (h : writableItems room (v :: vs) = .ok ws) :
    ∃ w us, writable room v = .ok w ∧ writableItems room vs = .ok us ∧ ws = w :: us := by
  rw [writableItems] at h
  split at h
  · simp at h
  · next w hw =>
    obtain ⟨us, hus, hws⟩ := Except.eq_ok_of_map h
    exact ⟨w, us, hw, hus, hws⟩

theorem writableEntries_cons {room : Nat} {k : Text} {v : Json} {es fs : Entries}
    (h : writableEntries room ((k, v) :: es) = .ok fs) :
    ∃ w gs, writable room v = .ok w ∧ writableEntries room es = .ok gs ∧ fs = (k, w) :: gs := by
  rw [writableEntries] at h
  split at h
  · simp at h
  · simp at h
  · next w _ hw =>
    obtain ⟨gs, hgs, hfs⟩ := Except.eq_ok_of_map h
    exact ⟨w, gs, hw, hgs, hfs⟩

mutual

/-- What a value is written as. -/
theorem writable_eq : ∀ {v w : Json} {room : Nat}, writable room v = .ok w → w = spelled v
  | null, _, 0, h | bool _, _, 0, h | int _, _, 0, h | float _, _, 0, h | string _, _, 0, h =>
    absurd h (by simp [writable])
  | null, _, _ + 1, h | bool _, _, _ + 1, h | int _, _, _ + 1, h | float _, _, _ + 1, h
  | string _, _, _ + 1, h => (Except.ok.inj h).symm
  | array vs, _, _, h => by
    obtain ⟨less, ws, -, hws, rfl⟩ := writable_array h
    rw [spelled, writableItems_eq hws]
  | object es, _, _, h => by
    obtain ⟨less, fs, -, hfs, rfl⟩ := writable_object h
    rw [spelled, writableEntries_eq hfs]

theorem writableItems_eq : ∀ {vs ws : List Json} {room : Nat}, writableItems room vs = .ok ws →
    ws = spelledItems vs
  | [], _, _, h => (Except.ok.inj h).symm
  | v :: vs, _, _, h => by
    obtain ⟨w, us, hw, hus, rfl⟩ := writableItems_cons h
    rw [spelledItems, ← writable_eq hw, ← writableItems_eq hus]

theorem writableEntries_eq : ∀ {es fs : Entries} {room : Nat}, writableEntries room es = .ok fs →
    fs = spelledEntries es
  | [], _, _, h => (Except.ok.inj h).symm
  | (k, v) :: es, _, _, h => by
    obtain ⟨w, gs, hw, hgs, rfl⟩ := writableEntries_cons h
    rw [spelledEntries, ← writable_eq hw, ← writableEntries_eq hgs]

end

mutual

/-- What has been written is read back. -/
theorem readable_of_writable : ∀ {v w : Json} {room : Nat}, writable room v = .ok w →
    holdsLongInt w = false → DistinctKeys v → Readable room w
  | null, _, 0, h, _, _ | bool _, _, 0, h, _, _ | int _, _, 0, h, _, _ | float _, _, 0, h, _, _
  | string _, _, 0, h, _, _ => absurd h (by simp [writable])
  | null, _, _ + 1, h, _, _ => Except.ok.inj h ▸ trivial
  | bool _, _, _ + 1, h, _, _ => Except.ok.inj h ▸ trivial
  | string _, _, _ + 1, h, _, _ => Except.ok.inj h ▸ trivial
  | int n, _, _ + 1, h, hlong, _ => by
    obtain rfl := Except.ok.inj h
    simpa [holdsLongInt, Datum.tooLong, Readable, maxDigits] using hlong
  | float x, _, _ + 1, h, _, _ => by
    obtain rfl := Except.ok.inj h
    split
    · next hx => exact hx
    · trivial
  | array vs, _, _, h, hlong, hkeys => by
    obtain ⟨less, ws, rfl, hws, rfl⟩ := writable_array h
    exact ⟨Nat.succ_pos less, itemsReadable_of_writable hws hlong hkeys⟩
  | object es, _, _, h, hlong, hkeys => by
    obtain ⟨less, fs, rfl, hfs, rfl⟩ := writable_object h
    have hnodup : (fs.map Prod.fst).Nodup := by
      rw [writableEntries_eq hfs, keys_spelledEntries]
      exact hkeys.1
    exact ⟨Nat.succ_pos less, hnodup, entriesReadable_of_writable hfs hlong hkeys.2⟩

theorem itemsReadable_of_writable : ∀ {vs ws : List Json} {room : Nat},
    writableItems room vs = .ok ws → itemsHoldLongInt ws = false → ItemsDistinct vs →
    ItemsReadable room ws
  | [], _, _, h, _, _ => Except.ok.inj h ▸ trivial
  | v :: vs, _, _, h, hlong, hkeys => by
    obtain ⟨w, us, hw, hus, rfl⟩ := writableItems_cons h
    rw [itemsHoldLongInt, Bool.or_eq_false_iff] at hlong
    exact ⟨readable_of_writable hw hlong.1 hkeys.1, itemsReadable_of_writable hus hlong.2 hkeys.2⟩

theorem entriesReadable_of_writable : ∀ {es fs : Entries} {room : Nat},
    writableEntries room es = .ok fs → entriesHoldLongInt fs = false → EntriesDistinct es →
    EntriesReadable room fs
  | [], _, _, h, _, _ => Except.ok.inj h ▸ trivial
  | (k, v) :: es, _, _, h, hlong, hkeys => by
    obtain ⟨w, gs, hw, hgs, rfl⟩ := writableEntries_cons h
    rw [entriesHoldLongInt, Bool.or_eq_false_iff] at hlong
    exact ⟨readable_of_writable hw hlong.1 hkeys.1, entriesReadable_of_writable hgs hlong.2 hkeys.2⟩

end

mutual

/-- A value that is read back is read back where deeper nesting is allowed. -/
theorem Readable.mono : ∀ {v : Json} {depth more : Nat}, depth ≤ more → Readable depth v →
    Readable more v
  | null, _, _, _, _ => trivial
  | bool _, _, _, _, _ => trivial
  | int _, _, _, _, h => h
  | float _, _, _, _, h => h
  | string _, _, _, _, _ => trivial
  | array _, _, _, hle, h =>
    ⟨Nat.lt_of_lt_of_le h.1 hle, ItemsReadable.mono (Nat.sub_le_sub_right hle 1) h.2⟩
  | object _, _, _, hle, h =>
    ⟨Nat.lt_of_lt_of_le h.1 hle, h.2.1, EntriesReadable.mono (Nat.sub_le_sub_right hle 1) h.2.2⟩

theorem ItemsReadable.mono : ∀ {vs : List Json} {depth more : Nat}, depth ≤ more →
    ItemsReadable depth vs → ItemsReadable more vs
  | [], _, _, _, _ => trivial
  | _ :: _, _, _, hle, h => ⟨Readable.mono hle h.1, ItemsReadable.mono hle h.2⟩

theorem EntriesReadable.mono : ∀ {es : Entries} {depth more : Nat}, depth ≤ more →
    EntriesReadable depth es → EntriesReadable more es
  | [], _, _, _, _ => trivial
  | (_, _) :: _, _, _, hle, h => ⟨Readable.mono hle h.1, EntriesReadable.mono hle h.2⟩

end

end Json

end LabelBook
