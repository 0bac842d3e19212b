import LabelBook.Collection
import Mathlib

/-!
Collections by their references. Setting a record keeps the references in their order and puts a new one
behind them, finding a record then gives the one that was set last, and a collection whose references
are all different stays so. Setting records of different new references puts them behind the others as
they are. Where a collection holds several records of one reference, finding and setting mean the first
of them, and all others stay as they are.
-/

namespace LabelBook.Collection

variable {c : Collection} {r s : Record} {rs : List Record}

theorem references_replaceFirst (r : Record) : ∀ rs : List Record,
    (replaceFirst r rs).map Record.reference =
      if r.reference ∈ rs.map Record.reference then rs.map Record.reference
      else rs.map Record.reference ++ [r.reference]
  | [] => by simp [replaceFirst]
  | s :: rs => by
    rw [replaceFirst]
    by_cases hs : s.reference = r.reference
    · rw [if_pos hs, List.map_cons, List.map_cons, if_pos (by simp [hs]), hs]
    · rw [if_neg hs, List.map_cons, List.map_cons, references_replaceFirst r rs]
      by_cases hr : r.reference ∈ rs.map Record.reference
      · rw [if_pos hr, if_pos (List.mem_cons_of_mem _ hr)]
      · rw [if_neg hr, if_neg, List.cons_append]
        rw [List.mem_cons]
        rintro (heq | hmem)
        · exact hs heq.symm
        · exact hr hmem

/-- A record of a reference that is there keeps the place, one of a new reference goes behind. -/
theorem references_set (c : Collection) (r : Record) : (c.set r).references =
    if r.reference ∈ c.references then c.references else c.references ++ [r.reference] :=
  references_replaceFirst r c.records

theorem find?_replaceFirst (r : Record) (ref : Reference) : ∀ rs : List Record,
    (replaceFirst r rs).find? (fun s => s.reference = ref) =
      if ref = r.reference then some r else rs.find? fun s => s.reference = ref
  | [] => by
    by_cases href : ref = r.reference
    · simp [replaceFirst, href]
    · simp [replaceFirst, href, Ne.symm href]
  | s :: rs => by
    rw [replaceFirst]
    by_cases hs : s.reference = r.reference
    · rw [if_pos hs, List.find?_cons, List.find?_cons, hs]
      by_cases href : ref = r.reference
      · simp [href]
      · simp [href, Ne.symm href]
    · rw [if_neg hs, List.find?_cons, List.find?_cons, find?_replaceFirst r ref rs]
      by_cases href : ref = r.reference
      · simp [href, hs]
      · simp [href]

/-- The record that was set is found, and every other reference finds what it found before. -/
theorem get?_set (c : Collection) (r : Record) (ref : Reference) :
    (c.set r).get? ref = if ref = r.reference then some r else c.get? ref :=
  find?_replaceFirst r ref c.records

theorem mem_replaceFirst : ∀ {rs : List Record}, s ∈ replaceFirst r rs → s = r ∨ s ∈ rs
  | [], h => Or.inl (List.mem_singleton.mp h)
  | q :: rs, h => by
    rw [replaceFirst] at h
    split at h
    · rcases List.mem_cons.mp h with rfl | h
      · exact Or.inl rfl
      · exact Or.inr (List.mem_cons_of_mem q h)
    · rcases List.mem_cons.mp h with rfl | h
      · exact Or.inr List.mem_cons_self
      · rcases mem_replaceFirst h with rfl | h
        · exact Or.inl rfl
        · exact Or.inr (List.mem_cons_of_mem q h)

/-- A property of all records of a collection and of a record that is set. -/
theorem forall_mem_set {p : Record → Prop} (hc : ∀ s ∈ c.records, p s) (hr : p r) :
    ∀ s ∈ (c.set r).records, p s := by
  intro s hs
  rcases mem_replaceFirst hs with rfl | hs
  · exact hr
  · exact hc s hs

theorem nodup_set (h : c.references.Nodup) (r : Record) : (c.set r).references.Nodup := by
  rw [references_set]
  split
  · exact h
  · next hr =>
    refine List.Nodup.append h (List.nodup_singleton _) fun ref href hmem => ?_
    rw [List.mem_singleton.mp hmem] at href
    exact hr href

/-! ### Records set one after another -/

theorem setAll_cons (c : Collection) (r : Record) (rs : List Record) :
    c.setAll (r :: rs) = (c.set r).setAll rs := rfl

theorem nodup_setAll (h : c.references.Nodup) (rs : List Record) :
    (c.setAll rs).references.Nodup := by
  induction rs generalizing c with
  | nil => exact h
  | cons r rs ih => exact ih (nodup_set h r)

theorem forall_mem_setAll {p : Record → Prop} (hc : ∀ s ∈ c.records, p s) (hrs : ∀ r ∈ rs, p r) :
    ∀ s ∈ (c.setAll rs).records, p s := by
  induction rs generalizing c with
  | nil => exact hc
  | cons r rs ih =>
    exact ih (forall_mem_set hc (hrs r List.mem_cons_self)) fun s hs =>
      hrs s (List.mem_cons_of_mem r hs)

/-- A collection with a record set is not empty. -/
theorem isEmpty_set (c : Collection) (r : Record) : (c.set r).isEmpty = false := by
  rcases c with ⟨_ | ⟨s, rs⟩⟩
  · rfl
  · simp only [set, isEmpty, replaceFirst]
    split <;> rfl

theorem isEmpty_setAll (c : Collection) (rs : List Record) :
    (c.setAll rs).isEmpty = true ↔ c.isEmpty = true ∧ rs = [] := by
  induction rs generalizing c with
  | nil => exact (and_iff_left rfl).symm
  | cons r rs ih => simp [setAll_cons, ih, isEmpty_set]

theorem replaceFirst_of_not_mem : ∀ {rs : List Record}, r.reference ∉ rs.map Record.reference →
    replaceFirst r rs = rs ++ [r]
  | [], _ => rfl
  | s :: rs, h => by
    rw [List.map_cons, List.mem_cons, not_or] at h
    rw [replaceFirst, if_neg (Ne.symm h.1), replaceFirst_of_not_mem h.2, List.cons_append]

/-- Records of different new references go behind the others as they are. -/
theorem setAll_of_nodup (h : (c.references ++ rs.map Record.reference).Nodup) :
    c.setAll rs = ⟨c.records ++ rs⟩ := by
  induction rs generalizing c with
  | nil => rw [List.append_nil]; rfl
  | cons r rs ih =>
    have hr : r.reference ∉ c.references := by
      intro hmem
      exact (List.disjoint_of_nodup_append h) hmem (by simp)
    have hset : c.set r = ⟨c.records ++ [r]⟩ := congrArg Collection.mk (replaceFirst_of_not_mem hr)
    rw [setAll_cons, hset, ih]
    · rw [List.append_assoc, List.singleton_append]
    · simpa [references] using h

theorem replaceFirst_append {ps : List Record} (h : r.reference ∉ ps.map Record.reference) :
    replaceFirst r (ps ++ rs) = ps ++ replaceFirst r rs := by
  induction ps with
  | nil => rfl
  | cons p ps ih =>
    rw [List.map_cons, List.mem_cons, not_or] at h
    rw [List.cons_append, replaceFirst, if_neg (Ne.symm h.1), ih h.2, List.cons_append]

/-- Records of the references that are there, one after the other, take the places of what is there. -/
theorem setAll_of_references {ps qs : List Record} (nodup : ((ps ++ qs).map Record.reference).Nodup)
    (h : qs.map Record.reference = rs.map Record.reference) :
    (⟨ps ++ qs⟩ : Collection).setAll rs = ⟨ps ++ rs⟩ := by
  induction rs generalizing ps qs with
  | nil =>
    rw [List.map_eq_nil_iff.mp h]
    rfl
  | cons r rs ih =>
    cases qs with
    | nil => cases h
    | cons q qs =>
      obtain ⟨hq, hqs⟩ := List.cons_eq_cons.mp h
      have hfresh : r.reference ∉ ps.map Record.reference := by
        rw [List.map_append] at nodup
        exact fun hmem => List.disjoint_of_nodup_append nodup hmem (by rw [← hq]; simp)
      have hset : (⟨ps ++ q :: qs⟩ : Collection).set r = ⟨ps ++ [r] ++ qs⟩ := by
        rw [set, replaceFirst_append hfresh, replaceFirst, if_pos hq, List.append_assoc]
        rfl
      rw [setAll_cons, hset, ih _ hqs, List.append_assoc, List.singleton_append]
      rw [List.map_append, List.map_append, List.map_singleton, ← hq]
      rw [List.map_append, List.map_cons] at nodup
      rwa [List.append_assoc, List.singleton_append]

/-! ### Several records of one reference -/

/-- The record that is found is the first of its reference. -/
theorem get?_eq_some_iff {ref : Reference} : c.get? ref = some s ↔ s.reference = ref ∧
    ∃ before after, c.records = before ++ s :: after ∧ ref ∉ before.map Record.reference := by
  rw [get?, List.find?_eq_some_iff_append, decide_eq_true_iff]
  simp

theorem exists_get? {ref : Reference} (h : ref ∈ c.references) : ∃ s, c.get? ref = some s := by
  obtain ⟨s, hs, href⟩ := List.mem_map.mp h
  exact Option.isSome_iff_exists.mp (List.find?_isSome.mpr ⟨s, hs, decide_eq_true href⟩)

/-- The record that is found is the one that gives its place to a record that is set. -/
theorem set_found (h : c.get? r.reference = some s) : ∃ before after,
    c.records = before ++ s :: after ∧ r.reference ∉ before.map Record.reference ∧
      (c.set r).records = before ++ r :: after := by
  obtain ⟨hs, before, after, hrecords, hfirst⟩ := get?_eq_some_iff.mp h
  refine ⟨before, after, hrecords, hfirst, ?_⟩
  rw [set, hrecords, replaceFirst_append hfirst, replaceFirst, if_pos hs]

theorem size_eq (c : Collection) : c.size = c.references.length := by
  rw [references, List.length_map, size]

theorem size_set_eq_iff : (c.set r).size = c.size + 1 ↔ r.reference ∉ c.references := by
  rw [size_eq, size_eq, references_set]
  split
  · next h => simp [h]
  · next h => simp [h]

/-- Setting a record changes what its own reference finds and nothing else. A collection without a record
of the reference gets one more record, the last; in any other one the first record of the reference, the
one that was found before, gives its place to the new one, and all others stay in theirs. -/
theorem set_meets_first (c : Collection) (r : Record) :
    (c.set r).get? r.reference = some r ∧
    (∀ ref, ref ≠ r.reference → (c.set r).get? ref = c.get? ref) ∧
    ((c.set r).size = c.size + 1 ↔ r.reference ∉ c.references) ∧
    (r.reference ∉ c.references → (c.set r).records = c.records ++ [r]) ∧
    (r.reference ∈ c.references → ∃ before s after,
      c.records = before ++ s :: after ∧ c.get? r.reference = some s ∧ s.reference = r.reference ∧
      r.reference ∉ before.map Record.reference ∧ (c.set r).records = before ++ r :: after) := by
  refine ⟨?_, fun ref href => ?_, size_set_eq_iff, replaceFirst_of_not_mem, fun hmem => ?_⟩
  · rw [get?_set, if_pos rfl]
  · rw [get?_set, if_neg href]
  · obtain ⟨s, hs⟩ := exists_get? hmem
    obtain ⟨before, after, hrecords, hfirst, hset⟩ := set_found hs
    exact ⟨before, s, after, hrecords, hs, (get?_eq_some_iff.mp hs).1, hfirst, hset⟩

/-- A record of an address with a label. -/
def addressRecord (label : String) : Record := ⟨.address, "a", some label, [], by decide +kernel⟩

/-- A collection with two records of the address, and one of another between them. -/
def twofold : Collection :=
  ⟨[addressRecord "rent", { addressRecord "food" with ref := "b", sound := by decide +kernel },
    addressRecord "loan"]⟩

/-- A third record of that address. -/
def thirdRecord : Record := addressRecord "gift"

/-- The third record takes the place of the first one. -/
theorem set_meets_first_twofold :
    (twofold.set thirdRecord).get? thirdRecord.reference = some thirdRecord ∧
    thirdRecord.reference ∈ twofold.references ∧ ∃ before s after,
      twofold.records = before ++ s :: after ∧ twofold.get? thirdRecord.reference = some s ∧
      s.reference = thirdRecord.reference ∧
      thirdRecord.reference ∉ before.map Record.reference ∧
      (twofold.set thirdRecord).records = before ++ thirdRecord :: after := by
  obtain ⟨hfound, -, -, -, hplace⟩ := set_meets_first twofold thirdRecord
  have hmem : thirdRecord.reference ∈ twofold.references := by decide +kernel
  exact ⟨hfound, hmem, hplace hmem⟩

end LabelBook.Collection
