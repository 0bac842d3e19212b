import LabelBook.Proofs.Store.Opening
import LabelBook.Proofs.Codec

/-!
Reading a text and writing its records again. Every line that is not blank gives one line, and of the
entries that are no fields of its kind the new line has those that are not null, in their order, with
their values in which numbers without a spelling have turned into null. So an entry comes through
exactly if its value is not null and all numbers in it are finite.
-/

namespace LabelBook

/-! ### Values that are spelled as they are -/

namespace Json

mutual

theorem finite_of_spelled : ∀ {v : Json}, spelled v = v → ∀ x ∈ floats v, x.isFinite = true
  | null, _ | bool _, _ | int _, _ | string _, _ => fun _ hx => absurd hx List.not_mem_nil
  | float y, h => by
    intro x hx
    obtain rfl := List.mem_singleton.mp hx
    by_contra hfinite
    rw [spelled, if_neg hfinite] at h
    cases h
  | array _, h => itemsFinite_of_spelled (Json.array.inj h)
  | object _, h => entriesFinite_of_spelled (Json.object.inj h)

theorem itemsFinite_of_spelled : ∀ {vs : List Json}, spelledItems vs = vs →
    ∀ x ∈ itemFloats vs, x.isFinite = true
  | [], _ => fun _ hx => absurd hx List.not_mem_nil
  | v :: vs, h => by
    obtain ⟨hv, hvs⟩ := List.cons.inj h
    intro x hx
    rcases List.mem_append.mp hx with hx | hx
    · exact finite_of_spelled hv x hx
    · exact itemsFinite_of_spelled hvs x hx

theorem entriesFinite_of_spelled : ∀ {es : Entries}, spelledEntries es = es →
    ∀ x ∈ entryFloats es, x.isFinite = true
  | [], _ => fun _ hx => absurd hx List.not_mem_nil
  | (k, v) :: es, h => by
    obtain ⟨hv, hes⟩ := List.cons.inj h
    intro x hx
    rcases List.mem_append.mp hx with hx | hx
    · exact finite_of_spelled (Prod.mk.inj hv).2 x hx
    · exact entriesFinite_of_spelled hes x hx

end

theorem spelled_eq_iff {v : Json} : spelled v = v ↔ ∀ x ∈ floats v, x.isFinite = true :=
  ⟨finite_of_spelled, spelled_of_finite⟩

end Json

/-! ### Values found by their keys -/

namespace Entries

variable {key : Text} {es : Entries}

theorem get?_spelledEntries (key : Text) (es : Entries) :
    get? key (Json.spelledEntries es) = (get? key es).map Json.spelled := by
  induction es with
  | nil => rfl
  | cons e es ih =>
    rw [Json.spelledEntries, get?, get?, ih]
    split <;> rfl

theorem get?_without {names : List Text} (h : key ∉ names) (es : Entries) :
    get? key (es.without names) = get? key es := by
  induction es with
  | nil => rfl
  | cons e es ih =>
    unfold without at ih ⊢
    by_cases hk : e.1 = key
    · rw [List.filter_cons_of_pos (by simpa [hk] using h), get?, get?, if_pos hk, if_pos hk]
    · rw [List.filter_cons, get?, if_neg hk]
      split
      · rw [get?, if_neg hk, ih]
      · exact ih

theorem get?_eq_none_of_keys (h : key ∉ es.map Prod.fst) : get? key es = none :=
  get?_eq_none fun _ he heq => h (heq ▸ List.mem_map_of_mem he)

/-- Of entries with different keys those that are not null are found as before. -/
theorem get?_filter_isNull (h : (es.map Prod.fst).Nodup) :
    get? key (es.filter fun e => !e.2.isNull) = (get? key es).filter fun v => !v.isNull := by
  induction es with
  | nil => rfl
  | cons e es ih =>
    obtain ⟨k, v⟩ := e
    obtain ⟨hk, hes⟩ := List.nodup_cons.mp h
    rw [get?, List.filter_cons]
    by_cases hkey : k = key
    · rw [if_pos hkey]
      cases hv : v.isNull with
      | true =>
        have hnone : get? key es = none := get?_eq_none_of_keys (hkey ▸ hk)
        have hrest := ih hes
        rw [hnone] at hrest
        rw [if_neg (by simp), hrest, Option.filter_some, hv]
        rfl
      | false =>
        rw [if_pos (by simp), get?, if_pos hkey, Option.filter_some, hv]
        rfl
    · rw [if_neg hkey]
      split
      · rw [get?, if_neg hkey, ih hes]
      · exact ih hes

end Entries

/-! ### Lines -/

namespace Record

/-- What the entries written for an object have of those that came with it: `es` are the entries that
were read, `fs` the ones that were written. -/
structure KeepsExtras (k : Kind) (es fs : Entries) : Prop where
  entries : fs.without (fieldNames k) =
    Json.spelledEntries ((es.without (fieldNames k)).filter fun e => !e.2.isNull)
  order : ((fs.without (fieldNames k)).map Prod.fst).Sublist
    ((es.without (fieldNames k)).map Prod.fst)
  same : ∀ key ∉ fieldNames k, ∀ v, es.get? key = some v →
    (fs.get? key = some v ↔ v.isNull = false ∧ ∀ x ∈ v.floats, x.isFinite = true)

/-- The entries that are written for a record keep those that it was read from. -/
theorem keepsExtras {es : Entries} {r : Record} (hdistinct : Json.DistinctKeys (.object es))
    (h : ofMapping es = .ok r) : KeepsExtras r.kind es (r.fieldEntries ++ r.keptExtras) := by
  obtain ⟨-, -, -, hextras⟩ := ofEntries_ok (ofMapping_ok h).2
  have hregular : r.Regular := (ofMapping_described hdistinct h).regular
  have hfresh : ∀ e ∈ r.keptExtras, e.1 ∉ fieldNames r.kind := by
    intro e he
    obtain ⟨f, hf, hfe⟩ := mem_keptExtras he
    exact hfe ▸ hregular.fresh f hf
  have hwithout := without_fieldNames hfresh
  refine ⟨?_, ?_, fun key hkey v hv => ?_⟩
  · rw [hwithout, keptExtras, hextras]
  · rw [hwithout, keptExtras, Json.keys_spelledEntries, hextras]
    exact List.filter_sublist.map Prod.fst
  · have hget : Entries.get? key (r.fieldEntries ++ r.keptExtras) =
        if v.isNull then none else some v.spelled := by
      have hfield : Entries.get? key r.fieldEntries = none :=
        Entries.get?_eq_none fun e he heq => hkey (heq ▸ (r.fieldEntries_keys.1 e he).1)
      rw [Entries.get?_append, hfield, Option.none_or, keptExtras, Entries.get?_spelledEntries,
        Entries.get?_filter_isNull hregular.distinct.1, hextras, Entries.get?_without hkey, hv]
      cases hnull : v.isNull <;> simp [hnull]
    rw [hget, ← Json.spelled_eq_iff]
    cases v.isNull <;> simp

end Record

/-! ### Texts -/

namespace Collection

open Record

theorem linesOf_ok {rs : List Record} {u : Text} (h : linesOf rs = .ok u)
    (hregular : ∀ r ∈ rs, r.Regular) :
    u = (rs.map fun r => r.writtenObject.print false).flatMap (· ++ [.scalar '\n']) ∧
      ∀ r ∈ rs, Json.Readable Json.maxDepth r.writtenObject := by
  induction rs generalizing u with
  | nil => exact ⟨(Except.ok.inj h).symm, fun _ hr => absurd hr List.not_mem_nil⟩
  | cons r rs ih =>
    obtain ⟨a, b, ha, hb, rfl⟩ := linesOf_cons h
    obtain ⟨rfl, hreadable⟩ := line_ok ha (hregular r List.mem_cons_self)
    obtain ⟨rfl, hrest⟩ := ih hb fun q hq => hregular q (List.mem_cons_of_mem r hq)
    exact ⟨by simp, List.forall_mem_cons.mpr ⟨hreadable, hrest⟩⟩

/-- A text that was read and is written again has a line for each line that is not blank, and the entries
of it that are no fields of its kind are kept but for those that are null and for numbers that have no
spelling. -/
theorem text_ofText_keepsExtras {t u : Text} {c : Collection} (read : ofText t = .ok c)
    (written : c.text = .ok u) :
    ∃ lines : List Text, u = lines.flatMap (· ++ [.scalar '\n']) ∧
      List.Forall₂ (fun before after => ∃ k es fs, Json.parse before = .ok (.object es) ∧
          Entries.get? "type" es = some (.string k.name) ∧ Json.parse after = .ok (.object fs) ∧
          KeepsExtras k es fs)
        (t.lines.filter fun line => !line.isBlank) lines := by
  obtain ⟨rs, hrs, rfl⟩ := Except.eq_ok_of_map read
  obtain ⟨hu, hreadable⟩ := linesOf_ok written fun r hr => by
    obtain ⟨n, t, hline⟩ := recordsFrom_lines hrs r hr
    exact (ofLine_described hline).regular
  have hlines := recordsFrom_ok hrs
  refine ⟨_, hu, List.forall₂_map_right_iff.mpr (List.forall₂_iff_zip.mpr ⟨hlines.length_eq, ?_⟩)⟩
  intro before r hmem
  obtain ⟨n, hr⟩ := List.forall₂_zip hlines hmem
  obtain ⟨es, hparse, hread⟩ := ofLine_ok hr
  exact ⟨r.kind, es, r.fieldEntries ++ r.keptExtras, hparse, (ofMapping_ok hread).1,
    Json.parse_print (hreadable r (List.of_mem_zip hmem).2),
    keepsExtras (Json.parse_distinct hparse) hread⟩

/-- Entries with an origin that their kind does not have, a null, and a number. -/
def spicedEntries : Entries :=
  [("type", .string "addr"), ("ref", .string "a"), ("origin", .string "b"), ("x", .null), ("n", .int 5)]

/-- The text of one line with these entries. -/
def spicedText : Text := (Json.object spicedEntries).print false ++ [.scalar '\n']

theorem parse_spicedEntries :
    Json.parse ((Json.object spicedEntries).print false) = .ok (.object spicedEntries) := by
  refine Json.parse_print ⟨by decide, ?_, ?_⟩
  · simp [spicedEntries, Text.ofString]
  · simp only [spicedEntries, Json.EntriesReadable, Json.Readable, and_true, true_and]
    decide

theorem lines_spicedText : spicedText.lines = [(Json.object spicedEntries).print false] :=
  Text.lines_append (by rw [Json.hasLineEnd_print]; decide) []

theorem ofText_spicedText : ∃ r, ofText spicedText = .ok ⟨[r]⟩ ∧ ∃ u, text ⟨[r]⟩ = .ok u := by
  refine ⟨⟨.address, "a", none, [("origin", .string "b"), ("x", .null), ("n", .int 5)], rfl⟩, ?_, ?_⟩
  · rw [ofText, lines_spicedText, recordsFrom, ofLine, parse_spicedEntries]
    rfl
  · exact ⟨_, rfl⟩

/-- The origin and the number are written again, the null is not. -/
theorem text_ofText_keepsExtras_spiced : ∃ c u after fs, ofText spicedText = .ok c ∧
    c.text = .ok u ∧ u = after ++ [.scalar '\n'] ∧ Json.parse after = .ok (.object fs) ∧
    Entries.get? "origin" fs = some (.string "b") ∧ Entries.get? "n" fs = some (.int 5) ∧
    Entries.get? "x" fs ≠ some .null := by
  obtain ⟨r, hread, u, hwritten⟩ := ofText_spicedText
  obtain ⟨lines, hu, hlines⟩ := text_ofText_keepsExtras hread hwritten
  rw [lines_spicedText, List.filter_cons_of_pos (by rfl)] at hlines
  obtain ⟨after, rest, ⟨k, es, fs, hbefore, htype, hafter, keeps⟩, hrest, rfl⟩ :=
    List.forall₂_cons_left_iff.mp hlines
  obtain rfl := List.forall₂_nil_left_iff.mp hrest
  obtain rfl := Json.object.inj (Except.ok.inj (parse_spicedEntries.symm.trans hbefore))
  have hname : "addr" = k.name := Json.string.inj (Option.some.inj htype)
  obtain rfl : k = .address := by
    revert hname
    cases k <;> decide
  refine ⟨_, u, after, fs, hread, hwritten, by simpa using hu, hafter, ?_, ?_, fun hx => ?_⟩
  · exact (keeps.same "origin" (by decide) _ rfl).mpr ⟨rfl, fun _ hx => absurd hx List.not_mem_nil⟩
  · exact (keeps.same "n" (by decide) _ rfl).mpr ⟨rfl, fun _ hx => absurd hx List.not_mem_nil⟩
  · exact absurd ((keeps.same "x" (by decide) _ rfl).mp hx).1 (by decide)

end Collection

end LabelBook
