import LabelBook.Proofs.Store.Dictionary

/-!
A collection merged into the store that it belongs to. Its records have been taken out before the first of
them is set, so they are set in an empty collection one after another, for everybody who shares it: each
reference keeps the place where it came first, with the record that came last. Nothing is lost, and where
no reference comes twice nothing changes.
-/

namespace LabelBook

/-! ### Records set in nothing -/

namespace Dictionary

variable (rs : List Record) (r : Record)

theorem insertAll_concat : empty.insertAll (rs ++ [r]) = (empty.insertAll rs).insert r := by
  rw [insertAll, insertAll, List.foldl_append]
  rfl

/-- The keys are in the order in which they came first. -/
theorem order_insertAll : (empty.insertAll rs).order = (rs.map Record.reference).eraseDups := by
  induction rs using List.reverseRecOn with
  | nil => rfl
  | append_singleton rs r ih =>
    rw [insertAll_concat, insert, ih, List.map_append, List.eraseDups_append, List.map_singleton,
      List.removeAll, List.filter_singleton]
    simp only [List.mem_eraseDups]
    by_cases h : r.reference ∈ rs.map Record.reference
    · rw [if_pos h, List.elem_eq_true_of_mem h]
      exact (List.append_nil _).symm
    · have helem : (rs.map Record.reference).elem r.reference = false := by
        rw [← Bool.not_eq_true, List.elem_iff]
        exact h
      rw [if_neg h, helem, Bool.not_false, cond_true, List.eraseDups_cons, List.filter_nil,
        List.eraseDups_nil]

/-- Each key has the record that came last. -/
theorem value_insertAll (ref : Reference) :
    (empty.insertAll rs).value ref = rs.reverse.find? fun r => r.reference = ref := by
  induction rs using List.reverseRecOn with
  | nil => rfl
  | append_singleton rs r ih =>
    rw [insertAll_concat, List.reverse_concat]
    show Function.update (empty.insertAll rs).value r.reference (some r) ref = _
    rw [Function.update_apply, ih]
    split
    · next h => rw [List.find?_cons_of_pos (by simp [h])]
    · next h => rw [List.find?_cons_of_neg (by simpa using Ne.symm h)]

end Dictionary

namespace Collection

variable {c : Collection}

/-- The last record of a reference. -/
def last? (c : Collection) (ref : Reference) : Option Record :=
  c.records.reverse.find? fun r => r.reference = ref

/-- The last record of each reference, in the order in which the references come first. -/
def latest (c : Collection) : Collection := ⟨c.references.eraseDups.filterMap c.last?⟩

theorem agrees_setAll (c : Collection) :
    (empty.setAll c.records).Agrees ⟨c.references.eraseDups, c.last?⟩ := by
  have hagrees := Agrees.empty.setAll c.records
  refine ⟨hagrees.order.trans (Dictionary.order_insertAll c.records), fun ref => ?_, hagrees.nodup⟩
  exact (hagrees.value ref).trans (Dictionary.value_insertAll c.records ref)

theorem setAll_empty (c : Collection) : empty.setAll c.records = c.latest :=
  congrArg Collection.mk c.agrees_setAll.records_eq

theorem references_latest (c : Collection) : c.latest.references = c.references.eraseDups := by
  rw [← setAll_empty, c.agrees_setAll.order]

theorem get?_latest (c : Collection) (ref : Reference) : c.latest.get? ref = c.last? ref := by
  rw [← setAll_empty, c.agrees_setAll.value]

/-- Where no reference comes twice each record is the last of its reference. -/
theorem latest_of_nodup (h : c.references.Nodup) : c.latest = c := by
  rw [← setAll_empty, setAll_of_nodup (c := empty) h]
  rfl

end Collection

/-! ### Shelves -/

namespace Shelf

variable {f g : Shelf} {i : Nat} {c : Collection}

theorem put_out (h : f.collections.length ≤ i) : f.put i c = f := by
  rw [put, List.set_eq_of_length_le h]

theorem get_out (h : f.collections.length ≤ i) : f.get i = .empty := by
  rw [get, List.getElem?_eq_none h, Option.getD_none]

/-- Shelves of one length with the same collections at their places. -/
theorem ext_get (length : f.collections.length = g.collections.length)
    (h : ∀ i, f.get i = g.get i) : f = g := by
  refine congrArg Shelf.mk (List.ext_getElem length fun i hf hg => ?_)
  have hi := h i
  rwa [get, get, List.getElem?_eq_getElem hf, List.getElem?_eq_getElem hg] at hi

/-- A collection merged into its own store is refilled. -/
theorem get_merge_own (f : Shelf) (t : SharedStore) :
    (f.merge t t.place).1.get t.place = (f.get t.place).latest := by
  have hmerge : (f.merge t t.place).1 = (f.put t.place .empty).put t.place
      (((f.put t.place .empty).get t.place).setAll (f.get t.place).records) := rfl
  rw [hmerge, get_put_empty, Collection.setAll_empty]
  by_cases hi : t.place < f.collections.length
  · exact get_put_self (by rwa [length_put])
  · have hout := Nat.le_of_not_lt hi
    rw [put_out hout, put_out hout, get_out hout]
    rfl

theorem get_merge_ne {t : SharedStore} (h : i ≠ t.place) :
    (f.merge t t.place).1.get i = f.get i := by
  show ((f.put t.place .empty).put t.place _).get i = _
  rw [get_put_ne (Ne.symm h), get_put_ne (Ne.symm h)]

theorem merge_own_of_nodup {t : SharedStore} (h : (f.get t.place).references.Nodup) :
    (f.merge t t.place).1 = f := by
  refine ext_get ((length_put _ _ _).trans (length_put _ _ _)) fun i => ?_
  by_cases hi : i = t.place
  · rw [hi, get_merge_own, Collection.latest_of_nodup h]
  · exact get_merge_ne hi

/-- A store that merges its own collection counts its records as they were, and all who share it see the
last record of each reference, in the order in which the references came first; others see what they saw.
If no reference came twice, as in a store that was opened, the shelf is as it was. -/
theorem merge_own (f : Shelf) (t : SharedStore) :
    let c := f.get t.place
    let g := (f.merge t t.place).1
    (f.merge t t.place).2 = c.size ∧
    (∀ u : SharedStore, g.store u = if u.place = t.place then ⟨c.latest, u.path⟩ else f.store u) ∧
    c.latest.references = c.references.eraseDups ∧ (∀ ref, c.latest.get? ref = c.last? ref) ∧
    (c.references.Nodup → g = f) ∧
    ∀ directory w s v, (Store.openIn directory).run w = (.ok s, v) → c = s.collection → g = f := by
  intro c g
  refine ⟨rfl, fun u => ?_, c.references_latest, c.get?_latest, merge_own_of_nodup, ?_⟩
  · split
    · next hu => rw [store, hu, get_merge_own]
    · next hu => rw [store, get_merge_ne hu, store]
  · intro directory w s v hopen hstore
    refine merge_own_of_nodup ?_
    rw [show f.get t.place = s.collection from hstore]
    exact (Store.openIn_kept hopen).nodup

/-- A record of another reference. -/
def foodRecord : Record := ⟨.address, "e", some "food", [], rfl⟩

/-- A shelf with a collection in which a reference comes twice, and one in which none does. -/
def sharedShelf : Shelf := ⟨[⟨[⟨.address, "f", some "rent", [], rfl⟩, foodRecord,
  ⟨.address, "f", none, [], rfl⟩]⟩, ⟨[foodRecord]⟩]⟩

/-- The octets of a file with one record. -/
def loneOctets : Octets :=
  ("\x7b\"type\": \"addr\", \"ref\": \"d\"\x7d\n" : Text).map fun c => UInt8.ofNat c.toNat

set_option maxRecDepth 20000 in
/-- The reference that comes twice keeps its first place and gets its last record, for two stores of
different files; the other collection, and one that was opened, are as they were. -/
theorem merge_own_repeated :
    (sharedShelf.merge ⟨0, ⟨.here, []⟩⟩ 0).2 = 3 ∧
    (∀ p, (sharedShelf.merge ⟨0, ⟨.here, []⟩⟩ 0).1.store ⟨0, p⟩ =
      ⟨⟨[⟨.address, "f", none, [], rfl⟩, foodRecord]⟩, p⟩) ∧
    (sharedShelf.get 1).references.Nodup ∧ (sharedShelf.merge ⟨1, ⟨.here, []⟩⟩ 1).1 = sharedShelf ∧
    ∃ s v, (Store.openIn ⟨.here, []⟩).run (Store.fileWorld loneOctets) = (.ok s, v) ∧
      s.collection.size = 1 ∧ (merge ⟨[s.collection]⟩ ⟨0, s.path⟩ 0).1 = ⟨[s.collection]⟩ := by
  obtain ⟨hcount, hshared, -, -, -, -⟩ := merge_own sharedShelf ⟨0, ⟨.here, []⟩⟩
  obtain ⟨-, -, -, -, halone, -⟩ := merge_own sharedShelf ⟨1, ⟨.here, []⟩⟩
  refine ⟨hcount, fun p => ?_, List.nodup_singleton _, halone (List.nodup_singleton _), ?_⟩
  · rw [hshared, if_pos rfl]
    rfl
  · obtain ⟨s, hs, hsize⟩ : ∃ s, ((Store.openIn ⟨.here, []⟩).run (Store.fileWorld loneOctets)).1 = .ok s ∧
        s.collection.size = 1 := ⟨_, by cbv, by cbv⟩
    have hopen : (Store.openIn ⟨.here, []⟩).run (Store.fileWorld loneOctets) =
        (.ok s, ((Store.openIn ⟨.here, []⟩).run (Store.fileWorld loneOctets)).2) := Prod.ext hs rfl
    exact ⟨s, _, hopen, hsize, (merge_own ⟨[s.collection]⟩ ⟨0, s.path⟩).2.2.2.2.2 _ _ _ _ hopen rfl⟩

end Shelf

end LabelBook
