import LabelBook.Proofs.Outpoint
import LabelBook.Proofs.Store.Interleaving
import LabelBook.Proofs.Store.Sharing

/-!
Stores without a reference that comes twice. A store has none when it is opened, and setting records and
merging collections, be it that of another store or its own, give it none. So two records of a store that
are attached to one input or output spell it differently, and in canonical spelling the zeros in front of
the index are all the difference there can be.
-/

namespace LabelBook

namespace Shelf

variable {f : Shelf} {i j : Nat} {c : Collection}

/-- Where no reference comes twice none does after a collection without one has been put somewhere. -/
theorem nodup_put (hf : (f.get j).references.Nodup) (hc : c.references.Nodup) :
    ((f.put i c).get j).references.Nodup := by
  by_cases hij : i = j
  · subst hij
    by_cases hi : i < f.collections.length
    · rwa [get_put_self hi]
    · rwa [put_out (Nat.le_of_not_lt hi)]
  · rwa [get_put_ne hij]

theorem nodup_merge {t : SharedStore} (source : Nat) (hj : (f.get j).references.Nodup)
    (ht : (f.get t.place).references.Nodup) : ((f.merge t source).1.get j).references.Nodup := by
  have hempty : Collection.empty.references.Nodup := List.nodup_nil
  exact nodup_put (nodup_put hj hempty) (Collection.nodup_setAll (nodup_put ht hempty) _)

end Shelf

namespace Bench

variable {b : Bench} {deed : Deed}

/-- In no store does a reference come twice. -/
def Distinct (b : Bench) : Prop := ∀ t ∈ b.stores, (b.shelf.get t.place).references.Nodup

theorem Distinct.opened (h : b.Distinct) (shelved : b.Shelved) (p : Path) :
    (b.opened ((Store.openIn p).run b.world)).Distinct := by
  rcases hrun : (Store.openIn p).run b.world with ⟨f | s, v⟩
  · exact h
  · intro t ht
    rcases List.mem_append.mp ht with ht | ht
    · show ((b.shelf.add s.collection).2.get t.place).references.Nodup
      rw [Shelf.get_add (shelved.bound t ht)]
      exact h t ht
    · obtain rfl := List.mem_singleton.mp ht
      show ((b.shelf.add s.collection).2.get b.shelf.collections.length).references.Nodup
      rw [Shelf.get, Shelf.add, List.getElem?_concat_length, Option.getD_some]
      exact (Store.openIn_kept hrun).nodup

theorem Distinct.step (h : b.Distinct) (shelved : b.Shelved) (deed : Deed) : (b.step deed).Distinct := by
  cases deed with
  | wait now => exact h
  | offer c =>
    intro t ht
    show ((b.shelf.add c).2.get t.place).references.Nodup
    rw [Shelf.get_add (shelved.bound t ht)]
    exact h t ht
  | openIn p => exact h.opened shelved p
  | set i r =>
    rw [Bench.step]
    split
    · exact h
    · next s hs =>
      have hset := Collection.nodup_set (h s (List.mem_of_getElem? hs)) r
      exact fun t ht => Shelf.nodup_put (h t ht) hset
  | merge i source =>
    rw [Bench.step]
    split
    · exact h
    · next s hs =>
      exact fun t ht => Shelf.nodup_merge source (h t ht) (h s (List.mem_of_getElem? hs))
  | save i =>
    rw [Bench.step]
    split
    · exact h
    · next s _ =>
      obtain ⟨hshelf, hstores⟩ := b.afterSave_shelf (b.shelf.store s)
      unfold Distinct
      rw [hshelf, hstores]
      exact h

/-- Whatever is done, no reference comes twice in a store. -/
theorem Distinct.run {deeds : List Deed} (h : b.Distinct) (shelved : b.Shelved) :
    (b.run deeds).Distinct := by
  induction deeds generalizing b with
  | nil => exact h
  | cons deed deeds ih => exact ih (h.step shelved deed) (shelved.step deed)

theorem distinct_run_start (w : World) (deeds : List Deed) : ((start w).run deeds).Distinct :=
  Distinct.run (fun _ ht => absurd ht List.not_mem_nil)
    ⟨fun _ ht => absurd ht List.not_mem_nil, List.nodup_nil⟩

end Bench

/-! ### Inputs and outputs -/

namespace Kind

variable {k : Kind}

/-- Records of one kind that are attached to one input or output, and whose references differ, spell it at
different lengths. -/
theorem HasIndex.length_ne {r q : Record} (hk : k.HasIndex) (hr : r.kind = k) (hq : q.kind = k)
    (hne : r.reference ≠ q.reference) (same : Outpoint.of r.ref = Outpoint.of q.ref) :
    r.ref.length ≠ q.ref.length := by
  intro hlength
  have hnames : ∀ p : Record, p.kind = k → k.Names p.ref := fun p hp =>
    hp ▸ defect?_eq_none_iff.mp p.sound
  have hnormal := (hk.normalize_eq_iff (hnames r hr) (hnames q hq)).mpr ⟨same, hlength⟩
  exact hne (by rw [Record.reference, Record.reference, Reference.of, Reference.of, hr, hq, hnormal])

/-- Two identifiers of inputs, or of outputs, have one canonical spelling exactly if they denote the same and
are equally long, so whatever is done with stores, two records of one kind for the same input or output
in a store have indices with different numbers of digits. -/
theorem one_spelling_per_length (hk : k.HasIndex) :
    (∀ s t, k.validate s = .ok s → k.validate t = .ok t →
      (k.normalize s = k.normalize t ↔ Outpoint.of s = Outpoint.of t ∧ s.length = t.length)) ∧
    ∀ w deeds, ∀ t ∈ ((Bench.start w).run deeds).stores,
      (((Bench.start w).run deeds).shelf.store t).collection.records.Pairwise fun r q =>
        r.kind = k → q.kind = k → Outpoint.of r.ref = Outpoint.of q.ref →
          r.ref.length ≠ q.ref.length := by
  refine ⟨fun s t hs ht => ?_, fun w deeds t ht => ?_⟩
  · exact hk.normalize_eq_iff (validate_eq_ok_iff.mp hs).2 (validate_eq_ok_iff.mp ht).2
  · have hnodup := List.pairwise_map.mp (Bench.distinct_run_start w deeds t ht)
    exact hnodup.imp fun hne hr hq same => hk.length_ne hr hq hne same

/-- An input of a transaction, under an index in digits. -/
def spelledInput (digit : Char) (index : String) : Text :=
  Text.ofChars (List.replicate 64 digit) ++ .scalar ':' :: index

/-- A record of an input. -/
def shortRecord : Record := ⟨.input, spelledInput 'a' "1", none, [], by decide +kernel⟩

/-- A record of the same input, spelled with a zero in front of the index. -/
def longRecord : Record := ⟨.input, spelledInput 'a' "01", none, [], by decide +kernel⟩

/-- A store that is opened and sets both records. -/
def spellings : List Bench.Deed := [.openIn ⟨.here, []⟩, .set 0 shortRecord, .set 0 longRecord]

/-- What has become of it in a world without files. -/
def spelledBench : Bench := (Bench.start Bench.bareWorld).run spellings

/-- The store, as it is known on its shelf. -/
def spelledStore : SharedStore := ⟨0, ⟨.here, [Store.fileName]⟩⟩

set_option maxRecDepth 20000 in
theorem spelledBench_stores : spelledBench.stores = [spelledStore] ∧
    (spelledBench.shelf.store spelledStore).collection.records = [shortRecord, longRecord] :=
  ⟨by cbv, by cbv⟩

/-- Capitals in the id make no difference, and the two records of one input in the store have indices of
different lengths. -/
theorem one_spelling_per_length_input :
    input.normalize (spelledInput 'A' "1") = input.normalize (spelledInput 'a' "1") ∧
    shortRecord.ref.length ≠ longRecord.ref.length := by
  obtain ⟨hspelling, hstores⟩ := one_spelling_per_length (k := input) (.inl rfl)
  obtain ⟨hstore, hrecords⟩ := spelledBench_stores
  have hpair : (spelledBench.shelf.store spelledStore).collection.records.Pairwise _ :=
    hstores Bench.bareWorld spellings spelledStore (hstore ▸ List.mem_singleton_self _)
  rw [hrecords] at hpair
  refine ⟨(hspelling _ _ (by decide +kernel) (by decide +kernel)).mpr (by decide +kernel), ?_⟩
  exact List.rel_of_pairwise_cons hpair List.mem_cons_self rfl rfl (by decide +kernel)

/-- An index with a zero in front of it is accepted as well and denotes the same, yet keeps the zero; so a
store can hold two records of one input. -/
theorem index_keeps_zeros :
    input.validate (spelledInput 'a' "1") = .ok (spelledInput 'a' "1") ∧
    input.validate (spelledInput 'a' "01") = .ok (spelledInput 'a' "01") ∧
    Outpoint.of (spelledInput 'a' "1") = Outpoint.of (spelledInput 'a' "01") ∧
    input.normalize (spelledInput 'a' "1") ≠ input.normalize (spelledInput 'a' "01") ∧
    spelledBench.stores = [spelledStore] ∧
    (spelledBench.shelf.store spelledStore).collection.records = [shortRecord, longRecord] :=
  ⟨by decide +kernel, by decide +kernel, by decide +kernel, by decide +kernel, spelledBench_stores⟩

end Kind

end LabelBook
