import LabelBook.Proofs.Json.Written
import LabelBook.Record.Reader

/-!
Which values can be written. A value inside a record is written if it does not have too many levels and
its keys are well-formed, and its text can be encoded if all strings in it are. An integer that was read
is never too long to be written again.
-/

namespace LabelBook

/-! ### Well-formed texts -/

namespace Text

@[simp] theorem isWellFormed_append (s t : Text) :
    (s ++ t).isWellFormed = (s.isWellFormed && t.isWellFormed) := by
  simp [isWellFormed]

theorem isWellFormed_eq {t : Text} : t.isWellFormed = true ↔ t.any CodePoint.isLone = false := by
  simp [isWellFormed]

end Text

/-- A text can be encoded exactly if it is well-formed. -/
theorem Utf8.encode_ok_iff {t : Text} : (∃ octets, encode t = .ok octets) ↔ t.isWellFormed = true := by
  have hfrom : ∀ (t : Text) (position : Nat) (written : Octets),
      (∃ octets, encodeFrom false position written t = .ok octets) ↔ t.isWellFormed = true := by
    intro t
    induction t with
    | nil => exact fun _ _ => iff_of_true ⟨_, rfl⟩ rfl
    | cons c t ih =>
      intro position written
      cases c with
      | scalar c => exact ih (position + 1) _
      | lone n => exact iff_of_false (fun ⟨_, h⟩ => by cases h) (by simp [Text.isWellFormed, CodePoint.isLone])
  exact hfrom t 0 []

namespace Json

theorem isLone_unprintable : CodePoint.Unprintable CodePoint.isLone := fun _ _ _ => rfl

theorem isWellFormed_ofChars (cs : List Char) : (Text.ofChars cs).isWellFormed = true := by
  simp [Text.isWellFormed, Text.ofChars, CodePoint.isLone]

theorem isLone_escaped (c : CodePoint) : (escaped false c).any CodePoint.isLone = c.isLone := by
  cases c with
  | lone n =>
    have hlow : ¬ 0xD800 + n.val < 0x20 := by omega
    simp [escaped, CodePoint.toNat, CodePoint.isLone, hlow]
  | scalar c =>
    have hhex : ∀ u, (Text.concat ["\\u", Text.hex 4 u]).any CodePoint.isLone = false := by
      intro u
      have hdigits := Text.isWellFormed_eq.mp (isWellFormed_ofChars
        (List.replicate (4 - (Nat.toDigits 16 u).length) '0' ++ Nat.toDigits 16 u))
      simpa [Text.concat, Text.ofString, CodePoint.isLone, Text.hex] using hdigits
    unfold escaped
    split_ifs
    any_goals rfl
    simp [List.any_flatMap, hhex, CodePoint.isLone]

theorem foundIn_isLone : foundIn CodePoint.isLone = fun s => !s.isWellFormed := by
  funext s
  rw [foundIn, List.any_flatMap, Text.isWellFormed, Bool.not_not]
  simp [isLone_escaped]

/-- The text of a value is well-formed exactly if all strings in the value are. -/
theorem isWellFormed_print (v : Json) :
    (print false v).isWellFormed = (strings v).all Text.isWellFormed := by
  rw [Text.isWellFormed, any_print isLone_unprintable, foundIn_isLone, List.not_any_eq_all_not]
  simp

/-! ### Levels -/

mutual

/-- The levels of a value: its own, and those of its deepest part. -/
def levels : Json → Nat
  | array vs => itemLevels vs + 1
  | object es => entryLevels es + 1
  | _ => 1

/-- The most levels that one of some items has. -/
def itemLevels : List Json → Nat
  | [] => 0
  | v :: vs => max (levels v) (itemLevels vs)

/-- The most levels that the value of one of some entries has. -/
def entryLevels : Entries → Nat
  | [] => 0
  | (_, v) :: es => max (levels v) (entryLevels es)

end

mutual

theorem levels_of_writable : ∀ {v w : Json} {room : Nat}, writable room v = .ok w → levels v ≤ room
  | null, _, 0, h | bool _, _, 0, h | int _, _, 0, h | float _, _, 0, h | string _, _, 0, h =>
    absurd h (by simp [writable])
  | null, _, _ + 1, _ | bool _, _, _ + 1, _ | int _, _, _ + 1, _ | float _, _, _ + 1, _
  | string _, _, _ + 1, _ => Nat.succ_pos _
  | array vs, _, _, h => by
    obtain ⟨less, ws, rfl, hws, -⟩ := writable_array h
    exact Nat.succ_le_succ (itemLevels_of_writable hws)
  | object es, _, _, h => by
    obtain ⟨less, fs, rfl, hfs, -⟩ := writable_object h
    exact Nat.succ_le_succ (entryLevels_of_writable hfs)

theorem itemLevels_of_writable : ∀ {vs ws : List Json} {room : Nat},
    writableItems room vs = .ok ws → itemLevels vs ≤ room
  | [], _, _, _ => Nat.zero_le _
  | v :: vs, _, _, h => by
    obtain ⟨w, us, hw, hus, -⟩ := writableItems_cons h
    exact max_le (levels_of_writable hw) (itemLevels_of_writable hus)

theorem entryLevels_of_writable : ∀ {es fs : Entries} {room : Nat},
    writableEntries room es = .ok fs → entryLevels es ≤ room
  | [], _, _, _ => Nat.zero_le _
  | (k, v) :: es, _, _, h => by
    obtain ⟨w, gs, hw, hgs, -⟩ := writableEntries_cons h
    exact max_le (levels_of_writable hw) (entryLevels_of_writable hgs)

end

mutual

/-- A value that is not too deep, and in which all strings are well-formed, can be written. -/
theorem writable_of_levels : ∀ {v : Json} {room : Nat}, levels v ≤ room →
    (∀ s ∈ strings v, s.isWellFormed = true) → writable room v = .ok (spelled v)
  | null, room + 1, _, _ => rfl
  | bool _, room + 1, _, _ => rfl
  | int _, room + 1, _, _ => rfl
  | float _, room + 1, _, _ => rfl
  | string _, room + 1, _, _ => rfl
  | array vs, room + 1, h, hs => by
    rw [writable, writableItems_of_levels (Nat.le_of_succ_le_succ h) hs]
    rfl
  | object es, room + 1, h, hs => by
    rw [writable, writableEntries_of_levels (Nat.le_of_succ_le_succ h) hs]
    rfl

theorem writableItems_of_levels : ∀ {vs : List Json} {room : Nat}, itemLevels vs ≤ room →
    (∀ s ∈ itemStrings vs, s.isWellFormed = true) → writableItems room vs = .ok (spelledItems vs)
  | [], _, _, _ => rfl
  | v :: vs, room, h, hs => by
    rw [writableItems, writable_of_levels (le_trans (le_max_left _ _) h) fun s hv =>
      hs s (List.mem_append_left _ hv), writableItems_of_levels (le_trans (le_max_right _ _) h)
      fun s hv => hs s (List.mem_append_right _ hv)]
    rfl

theorem writableEntries_of_levels : ∀ {es : Entries} {room : Nat}, entryLevels es ≤ room →
    (∀ s ∈ entryStrings es, s.isWellFormed = true) →
    writableEntries room es = .ok (spelledEntries es)
  | [], _, _, _ => rfl
  | (k, v) :: es, room, h, hs => by
    obtain ⟨octets, hk⟩ := Utf8.encode_ok_iff.mpr (hs k List.mem_cons_self)
    have hkey : checkKey k = .ok () := by rw [checkKey, hk]
    rw [writableEntries, hkey, writable_of_levels (le_trans (le_max_left _ _) h) fun s hv =>
      hs s (List.mem_cons_of_mem k (List.mem_append_left _ hv)),
      writableEntries_of_levels (le_trans (le_max_right _ _) h)
      fun s hv => hs s (List.mem_cons_of_mem k (List.mem_append_right _ hv))]
    rfl

end

/-! ### Integers -/

mutual

theorem holdsLongInt_spelled : ∀ v : Json, holdsLongInt (spelled v) = holdsLongInt v
  | null => rfl
  | bool _ => rfl
  | int _ => rfl
  | float x => by rw [spelled]; split <;> rfl
  | string _ => rfl
  | array vs => itemsHoldLongInt_spelled vs
  | object es => entriesHoldLongInt_spelled es

theorem itemsHoldLongInt_spelled : ∀ vs : List Json,
    itemsHoldLongInt (spelledItems vs) = itemsHoldLongInt vs
  | [] => rfl
  | v :: vs => by
    rw [spelledItems, itemsHoldLongInt, itemsHoldLongInt, holdsLongInt_spelled v,
      itemsHoldLongInt_spelled vs]

theorem entriesHoldLongInt_spelled : ∀ es : Entries,
    entriesHoldLongInt (spelledEntries es) = entriesHoldLongInt es
  | [] => rfl
  | (k, v) :: es => by
    rw [spelledEntries, entriesHoldLongInt, entriesHoldLongInt, holdsLongInt_spelled v,
      entriesHoldLongInt_spelled es]

end

end Json

end LabelBook
