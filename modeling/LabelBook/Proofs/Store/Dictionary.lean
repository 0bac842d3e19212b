import LabelBook.Proofs.Store.Durability
import LabelBook.Store.Shelf

/-!
A store is a dictionary of records by their references, in the order in which they came. The dictionary
is told apart from any list: its keys in order, and a function from keys to records. Whatever is asked
of a store around a collection on a shelf, one thing after another, gets the answer that the dictionary
gives, and the collection holds the records of the dictionary.
-/

namespace LabelBook

/-- Keys in the order in which they were inserted, and the record of each. -/
structure Dictionary where
  order : List Reference
  value : Reference → Option Record

namespace Dictionary

/-- The dictionary without keys. -/
def empty : Dictionary := ⟨[], fun _ => none⟩

/-- A record under its reference: a key that is there keeps its place, a new one goes last. -/
def insert (d : Dictionary) (r : Record) : Dictionary where
  order := if r.reference ∈ d.order then d.order else d.order ++ [r.reference]
  value := Function.update d.value r.reference (some r)

/-- Records inserted one after another. -/
def insertAll (d : Dictionary) (rs : List Record) : Dictionary := rs.foldl insert d

/-- The records in the order of their keys. -/
def records (d : Dictionary) : List Record := d.order.filterMap d.value

end Dictionary

/-! ### Collections as dictionaries -/

namespace Collection

variable {c : Collection} {d : Dictionary}

/-- A collection that holds what a dictionary holds, no reference twice. -/
structure Agrees (c : Collection) (d : Dictionary) : Prop where
  order : c.references = d.order
  value : ∀ ref, c.get? ref = d.value ref
  nodup : c.references.Nodup

theorem Agrees.empty : Collection.empty.Agrees .empty := ⟨rfl, fun _ => rfl, List.nodup_nil⟩

theorem Agrees.set (h : c.Agrees d) (r : Record) : (c.set r).Agrees (d.insert r) := by
  refine ⟨?_, fun ref => ?_, nodup_set h.nodup r⟩
  · rw [references_set, Dictionary.insert, h.order]
  · show _ = Function.update d.value r.reference (some r) ref
    rw [get?_set, Function.update_apply, h.value]

theorem Agrees.setAll (h : c.Agrees d) (rs : List Record) :
    (c.setAll rs).Agrees (d.insertAll rs) := by
  induction rs generalizing c d with
  | nil => exact h
  | cons r rs ih => exact ih (h.set r)

/-- The records of references that are all different are found by them. -/
theorem filterMap_find? : ∀ {rs : List Record}, (rs.map Record.reference).Nodup →
    (rs.map Record.reference).filterMap (fun ref => rs.find? fun s => s.reference = ref) = rs
  | [], _ => rfl
  | r :: rs, h => by
    obtain ⟨hr, hrs⟩ := List.nodup_cons.mp h
    have hrest : (rs.map Record.reference).filterMap
        (fun ref => (r :: rs).find? fun s => s.reference = ref) = rs := by
      refine (List.filterMap_congr fun ref href => List.find?_cons_of_neg ?_).trans
        (filterMap_find? hrs)
      rw [decide_eq_true_eq]
      rintro rfl
      exact hr href
    rw [List.map_cons, List.filterMap_cons, List.find?_cons_of_pos (by simp), hrest]

theorem Agrees.records_eq (h : c.Agrees d) : c.records = d.records := by
  have hvalue : d.value = fun ref => c.records.find? fun s => s.reference = ref :=
    funext fun ref => (h.value ref).symm
  rw [Dictionary.records, ← h.order, hvalue]
  exact (filterMap_find? h.nodup).symm

theorem Agrees.size_eq (h : c.Agrees d) : c.size = d.order.length := by
  rw [← h.order, references, List.length_map, size]

end Collection

/-! ### Shelves -/

namespace Shelf

variable {f : Shelf} {i j : Nat} {c : Collection}

@[simp] theorem length_put (f : Shelf) (i : Nat) (c : Collection) :
    (f.put i c).collections.length = f.collections.length := List.length_set

theorem get_put_self (h : i < f.collections.length) : (f.put i c).get i = c := by
  rw [get, put, List.getElem?_set_self h, Option.getD_some]

theorem get_put_ne (h : i ≠ j) : (f.put i c).get j = f.get j := by
  rw [get, put, List.getElem?_set_ne h, get]

theorem get_add (h : i < f.collections.length) (c : Collection) : (f.add c).2.get i = f.get i := by
  rw [get, add, List.getElem?_append_left h, get]

theorem get_put_empty (f : Shelf) (i : Nat) : (f.put i .empty).get i = .empty := by
  by_cases h : i < f.collections.length
  · exact get_put_self h
  · rw [get, List.getElem?_eq_none, Option.getD_none]
    rw [length_put]
    exact Nat.le_of_not_lt h

end Shelf

/-! ### Calls -/

/-- What can be asked of a store on a shelf: a record set, the records of a collection at a place merged
into it, the record or the label of a reference, the number of records, and saving in a world. Between
two calls any collection can be put in the place of a source. -/
inductive Call where
  | set (r : Record)
  | merge (source : Nat)
  | refill (source : Nat) (c : Collection)
  | get (ref : Reference)
  | text (ref : Reference)
  | size
  | save (w : World)

/-- The answer to a call. -/
inductive Answer where
  | done
  | count (n : Nat)
  | record (r : Option Record)
  | text (t : Option Text)
  | ended (result : Except Failure Unit × World)

/-- The answers to calls one after another, each with the state behind it. -/
def Call.trace {σ : Type} (step : σ → Call → Answer × σ) : σ → List Call → List (Answer × σ)
  | _, [] => []
  | s, c :: cs => step s c :: trace step (step s c).2 cs

/-- How a store on a shelf answers a call. -/
def SharedStore.step (t : SharedStore) (f : Shelf) : Call → Answer × Shelf
  | .set r => (.done, f.change t.place fun c => c.set r)
  | .merge source => (.count (f.merge t source).2, (f.merge t source).1)
  | .refill source c => (.done, f.put source c)
  | .get ref => (.record ((f.store t).get? ref), f)
  | .text ref => (.text ((f.store t).text? ref), f)
  | .size => (.count (f.store t).collection.size, f)
  | .save w => (.ended ((f.store t).save.run w), f)

/-- A dictionary with the records of the sources that are merged into it. -/
structure Ledger where
  dictionary : Dictionary
  sources : Nat → List Record

/-- How a dictionary whose records are saved at a path answers a call. -/
def Ledger.step (p : Path) (g : Ledger) : Call → Answer × Ledger
  | .set r => (.done, { g with dictionary := g.dictionary.insert r })
  | .merge source => (.count (g.sources source).length,
      ⟨g.dictionary.insertAll (g.sources source), Function.update g.sources source []⟩)
  | .refill source c => (.done, { g with sources := Function.update g.sources source c.records })
  | .get ref => (.record (g.dictionary.value ref), g)
  | .text ref => (.text ((g.dictionary.value ref).bind Record.label), g)
  | .size => (.count g.dictionary.order.length, g)
  | .save w => (.ended ((Store.save ⟨⟨g.dictionary.records⟩, p⟩).run w), g)

namespace SharedStore

variable {t : SharedStore} {f : Shelf} {g : Ledger} {c : Call}

/-- A call on a shelf of a length that merges nothing but sources apart from the collection of the store
itself, and puts nothing but sources in their places. -/
def Takes (t : SharedStore) (length : Nat) : Call → Prop
  | .merge source => source ≠ t.place
  | .refill source _ => source ≠ t.place ∧ source < length
  | _ => True

/-- A shelf where the collection of a store holds what a dictionary holds, and the others hold the
records of its sources. -/
structure Shows (t : SharedStore) (f : Shelf) (g : Ledger) : Prop where
  place : t.place < f.collections.length
  live : (f.get t.place).Agrees g.dictionary
  sources : ∀ i, i ≠ t.place → (f.get i).records = g.sources i

/-- The collection of a store can be put in its place as the dictionary changes. -/
theorem Shows.put_live {d : Collection} {e : Dictionary} (shown : t.Shows f g) (h : d.Agrees e) :
    t.Shows (f.put t.place d) ⟨e, g.sources⟩ := by
  refine ⟨shown.place.trans_eq (Shelf.length_put f _ _).symm, ?_, fun i hi => ?_⟩
  · rw [Shelf.get_put_self shown.place]
    exact h
  · rw [Shelf.get_put_ne (Ne.symm hi)]
    exact shown.sources i hi

/-- Any other collection can be put in its place as the sources change. -/
theorem Shows.put_source {d : Collection} {i : Nat} (shown : t.Shows f g) (hi : i ≠ t.place)
    (h : (f.put i d).get i = d) :
    t.Shows (f.put i d) ⟨g.dictionary, Function.update g.sources i d.records⟩ := by
  refine ⟨shown.place.trans_eq (Shelf.length_put f _ _).symm, ?_, fun j hj => ?_⟩
  · rw [Shelf.get_put_ne hi]
    exact shown.live
  · show _ = Function.update g.sources i d.records j
    rcases eq_or_ne j i with rfl | hne
    · rw [h, Function.update_self]
    · rw [Shelf.get_put_ne (Ne.symm hne), Function.update_of_ne hne]
      exact shown.sources j hj

/-- The shelf after a merge: the source is drained, and its records are set in the collection of the
store. -/
theorem merge_eq {source : Nat} (h : source ≠ t.place) : f.merge t source =
    ((f.put source .empty).put t.place ((f.get t.place).setAll (f.get source).records),
      (f.get source).size) := by
  simp only [Shelf.merge, Collection.drain, Shelf.change, Shelf.get_put_ne h, Collection.size]

/-- A call gets the answer that the dictionary gives, and leaves the shelf with what it holds then. -/
theorem Shows.step (shown : t.Shows f g) (takes : t.Takes f.collections.length c) :
    (t.step f c).1 = (g.step t.path c).1 ∧ t.Shows (t.step f c).2 (g.step t.path c).2 ∧
      (t.step f c).2.collections.length = f.collections.length := by
  have live := shown.live
  cases c with
  | set r => exact ⟨rfl, shown.put_live (live.set r), Shelf.length_put f _ _⟩
  | merge source =>
    have hsource : (f.get source).records = g.sources source := shown.sources source takes
    have hdrained := shown.put_source takes (Shelf.get_put_empty f source)
    rw [SharedStore.step, Ledger.step, merge_eq takes, ← hsource]
    refine ⟨rfl, hdrained.put_live (live.setAll _), ?_⟩
    rw [Shelf.length_put, Shelf.length_put]
  | refill source d =>
    exact ⟨rfl, shown.put_source takes.1 (Shelf.get_put_self takes.2), Shelf.length_put f _ _⟩
  | get ref => exact ⟨congrArg Answer.record (live.value ref), shown, rfl⟩
  | text ref =>
    have htext := congrArg (fun r => Answer.text (r.bind Record.label)) (live.value ref)
    exact ⟨htext, shown, rfl⟩
  | size => exact ⟨congrArg Answer.count live.size_eq, shown, rfl⟩
  | save w =>
    refine ⟨?_, shown, rfl⟩
    rw [SharedStore.step, Ledger.step, Shelf.store, ← live.records_eq]

/-- Calls one after another get the answers that the dictionary gives, and after each of them the shelf
has what it holds then. -/
theorem Shows.trace {calls : List Call} (shown : t.Shows f g)
    (takes : ∀ c ∈ calls, t.Takes f.collections.length c) :
    List.Forall₂ (fun x y => x.1 = y.1 ∧ t.Shows x.2 y.2) (Call.trace t.step f calls)
      (Call.trace (Ledger.step t.path) g calls) := by
  induction calls generalizing f g with
  | nil => exact .nil
  | cons c calls ih =>
    obtain ⟨hanswer, hnext, hlength⟩ := shown.step (takes c List.mem_cons_self)
    refine .cons ⟨hanswer, hnext⟩ (ih hnext fun d hd => ?_)
    rw [hlength]
    exact takes d (List.mem_cons_of_mem c hd)

end SharedStore

/-! ### Opening -/

namespace Store

variable {w w₁ : World} {s : Store} {directory : Path}

/-- A store that was opened refines a dictionary in the order of insertion. Whatever is asked of it, in
any order and with any sources but its own collection, gets the answer of the dictionary into which
the records of its file were inserted; and when it has been opened and after each call its collection
has the records of the dictionary, in their order and no two of one reference, and the sources have
theirs. -/
theorem refines_dictionary {t : SharedStore} {f : Shelf} {calls : List Call}
    (hopened : (openIn directory).run w = (.ok s, w₁)) (hstore : f.store t = s)
    (place : t.place < f.collections.length)
    (takes : ∀ c ∈ calls, t.Takes f.collections.length c) :
    let g : Ledger := ⟨Dictionary.empty.insertAll (loaded directory w), fun i => (f.get i).records⟩
    (f.get t.place).records = g.dictionary.records ∧ t.Shows f g ∧
      List.Forall₂ (fun x y => x.1 = y.1 ∧ (x.2.get t.place).records = y.2.dictionary.records ∧
        t.Shows x.2 y.2) (Call.trace t.step f calls) (Call.trace (Ledger.step t.path) g calls) := by
  intro g
  have hcollection : f.get t.place = Collection.empty.setAll (loaded directory w) :=
    congrArg Store.collection (hstore.trans (openIn_loaded hopened))
  have shown : t.Shows f g := by
    refine ⟨place, ?_, fun _ _ => rfl⟩
    rw [hcollection]
    exact Collection.Agrees.empty.setAll _
  refine ⟨shown.live.records_eq, shown, ?_⟩
  exact (shown.trace takes).imp fun _ _ h => ⟨h.1, h.2.live.records_eq, h.2⟩

/-- Two records of one reference. -/
def twice : List Record := [⟨.address, "d", some "rent", [], rfl⟩, ⟨.address, "d", none, [], rfl⟩]

theorem twice_regular : ∀ r ∈ twice, r.Regular := by
  intro r hr
  rcases List.mem_pair.mp hr with rfl | rfl
  · refine Record.Described.regular
      ⟨.address, [("ref", .string "d"), ("label", .string "rent")], ?_, rfl⟩
    simp [Json.DistinctKeys, Json.EntriesDistinct, Text.ofString]
  · refine Record.Described.regular ⟨.address, [("ref", .string "d")], ?_, rfl⟩
    simp [Json.DistinctKeys, Json.EntriesDistinct, Text.ofString]

/-- A world with a label file in the directory one is in. -/
def fileWorld (octets : Octets) : World :=
  ⟨⟨[([fileName], .file 0 (.ofOctets octets))], [], 1⟩, [], [], [], none, 0, [], [], .initial⟩

theorem fileWorld_quiet (octets : Octets) : (fileWorld octets).Quiet := by
  simp [World.Quiet, fileWorld, Logger.initial]

theorem fileWorld_read (octets : Octets) :
    (fileWorld octets).read ⟨.here, [fileName]⟩ = .ok octets := by
  have spot : (fileWorld octets).Spot ⟨.here, [fileName]⟩ (Tree.maxLinks, []) fileName :=
    World.spot_here ⟨by decide, by decide, by decide⟩ (by decide) (by decide +kernel)
  have hget : (fileWorld octets).tree.get? [fileName] = some (.file 0 (.ofOctets octets)) := rfl
  have hlocate := spot.locate_of_no_link (fun target => by rw [List.nil_append, hget]; simp) .target
  rw [World.read_of_locate hlocate, Tree.read, List.nil_append, hget]
  exact congrArg Except.ok (Content.octets_ofOctets octets)

/-- A file that holds the two records. -/
theorem fileWorld_contents : ∃ octets, ∀ v, (fileWorld octets).SameEntries v →
    LabelFile.contents v ⟨.here, [fileName]⟩ = .ok ⟨twice⟩ := by
  obtain ⟨t, octets, ht, hoctets⟩ : ∃ t octets, Collection.text ⟨twice⟩ = .ok t ∧
      Utf8.encode t = .ok octets := ⟨_, _, rfl, rfl⟩
  refine ⟨octets, fun v same => ?_⟩
  have hread := (same.read _).trans (fileWorld_read octets)
  rw [LabelFile.contents_of_text ht twice_regular hoctets hread,
    Collection.ofText_whole ht twice_regular (by decide)]
  rfl

/-- A file that repeats a reference gives a store of one record, and merging the two records into it
counts both of them. -/
theorem refines_dictionary_repeated : ∃ octets s v,
    (openIn ⟨.here, []⟩).run (fileWorld octets) = (.ok s, v) ∧
    loaded ⟨.here, []⟩ (fileWorld octets) = twice ∧
    (Call.trace (SharedStore.step ⟨0, s.path⟩) ⟨[s.collection, ⟨twice⟩]⟩
      [.size, .merge 1, .size, .text (.of .address "d"), .merge 1]).map Prod.fst =
        [.count 1, .count 2, .count 1, .text none, .count 0] := by
  obtain ⟨octets, hcontents⟩ := fileWorld_contents
  obtain ⟨v, told, hrun⟩ := run_openIn (fileWorld_quiet octets) ⟨.here, []⟩
  have hpath : Path.child ⟨.here, []⟩ fileName = ⟨.here, [fileName]⟩ := rfl
  have hopened : opened (fileWorld octets) ⟨.here, [fileName]⟩ =
      .ok ⟨Collection.empty.setAll twice, ⟨.here, [fileName]⟩⟩ := by
    rw [opened, hcontents _ ⟨fun _ => rfl, rfl, fileWorld_quiet octets⟩]
  rw [hpath, hopened] at hrun
  have hloaded : loaded ⟨.here, []⟩ (fileWorld octets) = twice := by
    obtain ⟨u, hlog, told'⟩ := Program.run_log (fileWorld_quiet octets) .debug
      (Text.concat ["Label file path: ", (Path.child ⟨.here, []⟩ fileName).text])
    rw [loaded, hlog, hpath]
    dsimp only
    rw [hcontents u told'.sameEntries]
  have takes : ∀ c ∈ [Call.size, .merge 1, .size, .text (.of .address "d"), .merge 1],
      SharedStore.Takes ⟨0, ⟨.here, [fileName]⟩⟩ 2 c := by simp [SharedStore.Takes]
  obtain ⟨-, -, htrace⟩ := refines_dictionary
    (f := ⟨[Collection.empty.setAll twice, ⟨twice⟩]⟩) hrun rfl (by decide) takes
  rw [hloaded] at htrace
  refine ⟨octets, _, v, hrun, hloaded, ?_⟩
  have hanswers := List.forall₂_map_left_iff.mpr (List.forall₂_map_right_iff.mpr
    (htrace.imp fun _ _ h => h.1))
  rw [List.forall₂_eq_eq_eq] at hanswers
  rw [hanswers]
  rfl

end Store

end LabelBook
