import LabelBook.Proofs.Store.Dictionary
import LabelBook.Proofs.Store.Keeping

/-!
Several stores on one directory. Whatever they do one after another, the label file is as it was at first
until one of them has saved, and from then on it has the octets of the whole collection that the last of
them to save had at that moment. Their collections are their own.
-/

namespace LabelBook

open Log (At GoesTo Keeps)
open Store (fileName temporaryName Passing Renews)

/-- Stores in a world, with the shelf that their collections and those that can be merged into them are
on. What a store had when one of them saved for the last time is recorded beside them. -/
structure Bench where
  world : World
  shelf : Shelf
  stores : List SharedStore
  saved : Option Collection

namespace Bench

/-- What can be done: time passes, a collection is put on the shelf, a store is opened, and a store,
known by its number, sets a record, merges the collection at a place, or saves. -/
inductive Deed where
  | wait (now : Int)
  | offer (c : Collection)
  | openIn (p : Path)
  | set (i : Nat) (r : Record)
  | merge (i source : Nat)
  | save (i : Nat)

/-- The store that does it. -/
def Deed.store? : Deed → Option Nat
  | set i _ | merge i _ | save i => some i
  | _ => none

/-- The bench before any store has been opened. -/
def start (w : World) : Bench := ⟨w, .empty, [], none⟩

/-- The bench after a store has been opened, if its file could be read. -/
def opened (b : Bench) : Except Failure Store × World → Bench
  | (.error _, v) => { b with world := v }
  | (.ok s, v) =>
    let (place, shelf) := b.shelf.add s.collection
    { b with world := v, shelf := shelf, stores := b.stores ++ [⟨place, s.path⟩] }

/-- The bench after a store has saved. If that ended well and there was something to save, its collection
is recorded. -/
def afterSave (b : Bench) (s : Store) : Bench :=
  let (r, v) := s.save.run b.world
  match (s.hasNothingToSave.run b.world).1, r with
  | .ok false, .ok () => { b with world := v, saved := some s.collection }
  | _, _ => { b with world := v }

/-- The bench after something has been done. -/
def step (b : Bench) : Deed → Bench
  | .wait now => { b with world := { b.world with now := now } }
  | .offer c => { b with shelf := (b.shelf.add c).2 }
  | .openIn p => b.opened ((Store.openIn p).run b.world)
  | .set i r =>
    match b.stores[i]? with
    | none => b
    | some t => { b with shelf := b.shelf.change t.place fun c => c.set r }
  | .merge i source =>
    match b.stores[i]? with
    | none => b
    | some t => { b with shelf := (b.shelf.merge t source).1 }
  | .save i =>
    match b.stores[i]? with
    | none => b
    | some t => b.afterSave (b.shelf.store t)

/-- The bench after some things have been done one after another. -/
def run (b : Bench) (deeds : List Deed) : Bench := deeds.foldl step b

/-- What is done with stores of one directory: they are opened by paths that lead there, and they merge no
collection that is a store's own. -/
def Admits (D : Location) (b : Bench) : Deed → Prop
  | .openIn p => b.world.locate .target p = .ok D
  | .merge _ source => ∀ t ∈ b.stores, t.place ≠ source
  | _ => True

/-- Things that are done with stores of one directory one after another. -/
def AdmitsAll (D : Location) (b : Bench) : List Deed → Prop
  | [] => True
  | deed :: deeds => b.Admits D deed ∧ AdmitsAll D (b.step deed) deeds

/-- The label file of a directory is what it was in a world if no store has saved, and a file with the
octets of the collection that was saved last otherwise. -/
def LastSaved (w : World) (D : Location) (b : Bench) : Prop :=
  match b.saved with
  | none => b.world.tree.get? (D ++ [fileName]) = w.tree.get? (D ++ [fileName])
  | some c => ∃ t octets, c.text = .ok t ∧ Utf8.encode t = .ok octets ∧
      b.world.tree.Holds (D ++ [fileName]) octets

variable {L D : Location} {w v : World} {b : Bench} {s : Store} {t : SharedStore} {deed : Deed}
  {octets : Octets} {p : Path}

/-! ### What is known of the bench -/

/-- What is known of the stores of a directory and the world they are in, which was another at first. -/
structure Steady (L D : Location) (w : World) (b : Bench) : Prop where
  goes : GoesTo L b.world
  directory : b.world.tree.get? D = some .directory
  noLink : ∀ now target, b.world.tree.get? (D ++ [temporaryName now]) ≠ some (.link target)
  paths : ∀ t ∈ b.stores, ∃ p, b.world.locate .target p = .ok D ∧ t.path = p.child fileName
  blind : b.stores ≠ [] → b.world.tree.Blind (D ++ [fileName])
  label : b.LastSaved w D

/-- Every store has a place of its own on the shelf. -/
structure Shelved (b : Bench) : Prop where
  bound : ∀ t ∈ b.stores, t.place < b.shelf.collections.length
  apart : (b.stores.map SharedStore.place).Nodup

/-- Nothing is lost when no file changes but log files and temporary files. -/
theorem Steady.keeps (h : Steady L D w b) (hv : Keeps L (Passing L) b.world v) :
    Steady L D w { b with world := v } := by
  have hlabel := hv.tree.same _ (Store.passing_apart D)
  refine ⟨hv.goes h.goes, hv.tree.ways.directory_iff.mpr h.directory, fun now target => ?_,
    fun t ht => ?_, fun hstores => (h.blind hstores).sameWays hv.tree.ways, ?_⟩
  · rw [Ne, hv.tree.ways.link_iff]
    exact h.noLink now target
  · obtain ⟨p, hp, hpath⟩ := h.paths t ht
    exact ⟨p, hv.toChanges.keepsRoads.locate_directory hp h.directory, hpath⟩
  · have hlast := h.label
    unfold LastSaved Tree.Holds at hlast ⊢
    dsimp only
    rwa [hlabel]

/-- Nothing is lost when the label file is replaced. -/
theorem Steady.renews (h : Steady L D w b) (hstores : b.stores ≠ []) (goes : GoesTo L v)
    (renews : Renews (Passing L) (D ++ [fileName]) octets b.world v) {c : Collection} {text : Text}
    (htext : c.text = .ok text) (hencode : Utf8.encode text = .ok octets) :
    Steady L D w { b with world := v, saved := some c } := by
  have hways : ∀ e : Entry, (e = .directory ∨ ∃ target, e = .link target) → ∀ m,
      m ≠ D ++ [fileName] → (v.tree.get? m = some e ↔ b.world.tree.get? m = some e) := by
    intro e he m hm
    rcases renews.others m hm with hsame | ⟨-, hplain, hplain'⟩
    · rw [hsame]
    · rcases he with rfl | ⟨target, rfl⟩
      · exact iff_of_false hplain'.ne_directory hplain.ne_directory
      · exact iff_of_false (hplain'.ne_link target) (hplain.ne_link target)
  refine ⟨goes, (hways _ (.inl rfl) D (by simp)).mpr h.directory, fun now target => ?_,
    fun t ht => ?_, fun _ => renews.file.plain.blind, text, octets, htext, hencode, renews.file⟩
  · have hne : D ++ [temporaryName now] ≠ D ++ [fileName] := by
      simp [Store.temporaryName_ne]
    rw [Ne, hways _ (.inr ⟨target, rfl⟩) _ hne]
    exact h.noLink now target
  · obtain ⟨p, hp, hpath⟩ := h.paths t ht
    exact ⟨p, (renews.keepsRoads (h.blind hstores)).locate_directory hp h.directory, hpath⟩

/-! ### Step by step -/

theorem Steady.wait (h : Steady L D w b) (now : Int) : Steady L D w (b.step (.wait now)) :=
  h.keeps (.of_same rfl rfl rfl)

/-- Of the shelf nothing is known but the places on it. -/
theorem Steady.shelf (h : Steady L D w b) (f : Shelf) : Steady L D w { b with shelf := f } :=
  ⟨h.goes, h.directory, h.noLink, h.paths, h.blind, h.label⟩

theorem Steady.openIn (h : Steady L D w b) (hp : b.world.locate .target p = .ok D) :
    Steady L D w (b.step (.openIn p)) := by
  rw [step]
  rcases hrun : (Store.openIn p).run b.world with ⟨f | s, v⟩
  · have hlead := (Store.leads_openIn h.goes p).step
    rw [hrun] at hlead
    exact h.keeps (hlead.mono fun _ => .inl)
  · obtain ⟨hkeeps, hpath, -, hhanded, hblind⟩ := Store.openIn_ok h.goes hrun
    have hsteady := h.keeps (hkeeps.mono fun _ => .inl)
    have hp' := hkeeps.toChanges.keepsRoads.locate_directory hp h.directory
    -- what a store is opened on is no directory
    obtain ⟨links, spot⟩ := World.spot_child hp' hsteady.directory hhanded Store.fileName_isName
      Store.short_fileName
    refine ⟨hsteady.goes, hsteady.directory, hsteady.noLink, fun t ht => ?_,
      fun _ => hblind _ spot, hsteady.label⟩
    rcases List.mem_append.mp ht with ht | ht
    · exact hsteady.paths t ht
    · obtain rfl := List.mem_singleton.mp ht
      exact ⟨p, hp', hpath⟩

theorem Steady.afterSave (h : Steady L D w b) (ht : t ∈ b.stores) :
    Steady L D w (b.afterSave (b.shelf.store t)) := by
  obtain ⟨p, hp, hpath⟩ := h.paths t ht
  generalize hs : b.shelf.store t = s
  have hspath : s.path = p.child fileName := by rw [← hs, ← hpath]; rfl
  have hlead : b.world.LeadsInto (Passing L) (Store.temporaryFor s.path b.world.now) := by
    rw [hspath]
    refine (Store.leadsInto_temporary ?_).mono fun _ => .inr
    exact World.noLinkAt_of_locate hp h.directory (h.noLink b.world.now)
  rcases hrun : s.save.run b.world with ⟨f | _, v⟩
  · have hkeeps := Store.failsIn_save h.goes (fun _ => .inl) hlead f v hrun
    unfold Bench.afterSave
    rw [hrun]
    dsimp only
    split
    · next heq => cases heq
    · exact h.keeps hkeeps
  · rcases Store.save_ok h.goes hspath (fun _ => .inl) Store.passing_apart hlead hrun with
      ⟨hnothing, hkeeps⟩ | ⟨hsome, text, octets, d, htext, hencode, spot, renews, goes⟩
    · unfold Bench.afterSave
      rw [hrun, hnothing]
      exact h.keeps hkeeps
    · rw [hspath] at spot
      obtain ⟨links, spot'⟩ := World.spot_child hp h.directory spot.handedOver
        Store.fileName_isName Store.short_fileName
      obtain rfl := spot.unique spot'
      unfold Bench.afterSave
      rw [hrun, hsome]
      exact h.renews (List.ne_nil_of_mem ht) goes renews htext hencode

/-- Whatever is done with the stores of a directory, what is known of them stays known. -/
theorem Steady.step (h : Steady L D w b) (admits : b.Admits D deed) :
    Steady L D w (b.step deed) := by
  cases deed with
  | wait now => exact h.wait now
  | offer c => exact h.shelf _
  | openIn p => exact h.openIn admits
  | set i r =>
    rw [Bench.step]
    split
    · exact h
    · exact h.shelf _
  | merge i source =>
    rw [Bench.step]
    split
    · exact h
    · exact h.shelf _
  | save i =>
    rw [Bench.step]
    split
    · exact h
    · next t ht => exact h.afterSave (List.mem_of_getElem? ht)

/-! ### Collections of their own -/

theorem Shelved.opened (h : b.Shelved) (r : Except Failure Store × World) :
    (b.opened r).Shelved := by
  obtain ⟨f | s, v⟩ := r
  · exact ⟨h.bound, h.apart⟩
  · constructor
    · intro t ht
      show _ < (b.shelf.collections ++ [s.collection]).length
      rw [List.length_append]
      rcases List.mem_append.mp ht with ht | ht
      · exact Nat.lt_add_right _ (h.bound t ht)
      · rw [List.mem_singleton.mp ht]
        exact Nat.lt_succ_self _
    · show (List.map _ (b.stores ++ [_])).Nodup
      rw [List.map_append, List.map_singleton, List.nodup_append]
      refine ⟨h.apart, List.nodup_singleton _, fun i hi j hj => ?_⟩
      obtain ⟨t, ht, rfl⟩ := List.mem_map.mp hi
      rw [List.mem_singleton.mp hj]
      exact Nat.ne_of_lt (h.bound t ht)

/-- What happens on a shelf with as many places does not concern whose places they are. -/
theorem Shelved.shelf {f : Shelf} (h : b.Shelved)
    (hlength : b.shelf.collections.length ≤ f.collections.length) :
    Shelved { b with shelf := f } :=
  ⟨fun t ht => Nat.lt_of_lt_of_le (h.bound t ht) hlength, h.apart⟩

theorem afterSave_shelf (b : Bench) (s : Store) :
    (b.afterSave s).shelf = b.shelf ∧ (b.afterSave s).stores = b.stores := by
  unfold Bench.afterSave
  dsimp only
  split <;> exact ⟨rfl, rfl⟩

theorem Shelved.step (h : b.Shelved) (deed : Deed) : (b.step deed).Shelved := by
  cases deed with
  | wait now => exact ⟨h.bound, h.apart⟩
  | offer c => exact h.shelf (List.length_append ▸ Nat.le_add_right _ _)
  | openIn p => exact h.opened _
  | set i r =>
    rw [Bench.step]
    split
    · exact h
    · exact h.shelf (Shelf.length_put _ _ _).ge
  | merge i source =>
    rw [Bench.step]
    split
    · exact h
    · refine h.shelf (Eq.ge ?_)
      exact (Shelf.length_put _ _ _).trans (Shelf.length_put _ _ _)
  | save i =>
    rw [Bench.step]
    split
    · exact h
    · next t _ =>
      obtain ⟨hshelf, hstores⟩ := b.afterSave_shelf (b.shelf.store t)
      constructor
      · rw [hshelf, hstores]
        exact h.bound
      · rw [hstores]
        exact h.apart

theorem Shelved.place_ne (h : b.Shelved) {i j : Nat} {s : SharedStore} (hs : b.stores[i]? = some s)
    (ht : b.stores[j]? = some t) (hne : i ≠ j) : s.place ≠ t.place := by
  intro heq
  have hmap : (b.stores.map SharedStore.place)[i]? = (b.stores.map SharedStore.place)[j]? := by
    rw [List.getElem?_map, List.getElem?_map, hs, ht, Option.map_some, Option.map_some, heq]
  refine hne ((List.getElem?_inj ?_ h.apart).mp hmap)
  rw [List.length_map]
  exact (List.getElem?_eq_some_iff.mp hs).1

/-- What one store does leaves every other store, and its collection, as it is. -/
theorem Shelved.step_other (h : b.Shelved) (admits : b.Admits D deed) {j : Nat}
    (ht : b.stores[j]? = some t) (hother : deed.store? ≠ some j) :
    (b.step deed).stores[j]? = some t ∧
      (b.step deed).shelf.get t.place = b.shelf.get t.place := by
  have hbound := h.bound t (List.mem_of_getElem? ht)
  have hadded : ∀ c : Collection, Shelf.get ⟨b.shelf.collections ++ [c]⟩ t.place =
      b.shelf.get t.place := Shelf.get_add hbound
  have hapart : ∀ {i : Nat} {s : SharedStore}, some i ≠ some j → b.stores[i]? = some s →
      s.place ≠ t.place :=
    fun hne hs => h.place_ne hs ht fun heq => hne (congrArg some heq)
  cases deed with
  | wait now => exact ⟨ht, rfl⟩
  | offer c => exact ⟨ht, hadded c⟩
  | openIn p =>
    rw [Bench.step]
    rcases (Store.openIn p).run b.world with ⟨f | s, v⟩
    · exact ⟨ht, rfl⟩
    · exact ⟨(List.getElem?_append_left (List.getElem?_eq_some_iff.mp ht).1).trans ht, hadded _⟩
  | set i r =>
    rw [Bench.step]
    split
    · exact ⟨ht, rfl⟩
    · next s hs => exact ⟨ht, Shelf.get_put_ne (hapart hother hs)⟩
  | merge i source =>
    rw [Bench.step]
    split
    · exact ⟨ht, rfl⟩
    · next s hs =>
      have hsource := admits s (List.mem_of_getElem? hs)
      refine ⟨ht, ?_⟩
      rw [SharedStore.merge_eq (Ne.symm hsource)]
      dsimp only
      rw [Shelf.get_put_ne (hapart hother hs),
        Shelf.get_put_ne (Ne.symm (admits t (List.mem_of_getElem? ht)))]
  | save i =>
    rw [Bench.step]
    split
    · exact ⟨ht, rfl⟩
    · next s _ =>
      obtain ⟨hshelf, hstores⟩ := b.afterSave_shelf (b.shelf.store s)
      exact ⟨hstores ▸ ht, by rw [hshelf]⟩

/-! ### Step after step -/

theorem Steady.run {deeds : List Deed} (h : Steady L D w b) (hs : b.Shelved)
    (admits : b.AdmitsAll D deeds) : Steady L D w (b.run deeds) ∧ (b.run deeds).Shelved := by
  induction deeds generalizing b with
  | nil => exact ⟨h, hs⟩
  | cons deed deeds ih => exact ih (h.step admits.1) (hs.step deed) admits.2

/-- The last store to save wins, and nothing is ever mixed. Stores are opened on one directory, by
whatever paths lead there, and do whatever they do one after another, perhaps in the same instant; no
link stands in the directory under the name of a temporary file. At every point the label file is as it
was at first, or it holds the octets of the whole collection that a store had when saving last ended well
and there was something to save. And whatever is done next, the collection of a store that does not do it
itself stays as it is. -/
theorem last_writer_wins {deeds : List Deed} (goes : GoesTo L w)
    (hdirectory : w.tree.get? D = some .directory)
    (noLink : ∀ now target, w.tree.get? (D ++ [temporaryName now]) ≠ some (.link target))
    (admits : (start w).AdmitsAll D deeds) :
    ((start w).run deeds).LastSaved w D ∧
      ∀ deed j t, ((start w).run deeds).Admits D deed →
        ((start w).run deeds).stores[j]? = some t → deed.store? ≠ some j →
        (((start w).run deeds).step deed).stores[j]? = some t ∧
          (((start w).run deeds).step deed).shelf.get t.place =
            ((start w).run deeds).shelf.get t.place := by
  have hstart : Steady L D w (start w) :=
    ⟨goes, hdirectory, noLink, fun t ht => absurd ht List.not_mem_nil,
      fun hnil => absurd rfl hnil, rfl⟩
  have hshelved : (start w).Shelved :=
    ⟨fun t ht => absurd ht List.not_mem_nil, List.nodup_nil⟩
  obtain ⟨hsteady, hrun⟩ := hstart.run hshelved admits
  exact ⟨hsteady.label, fun deed j t hadmits ht hother => hrun.step_other hadmits ht hother⟩

/-- A world without files. -/
def bareWorld : World := ⟨⟨[], [], 0⟩, [], [], [], none, 0, [], [], .initial⟩

/-- A record of a reference with a label. -/
def rentRecord : Record := { Collection.plainRecord with extras := [] }

/-- Another record of that reference. -/
def foodRecord : Record := { Collection.plainRecord with label := some "food", extras := [] }

/-- Two stores of the directory one is in that save different records of one reference in the same
instant. -/
def rivals : List Deed :=
  [.openIn ⟨.root, []⟩, .openIn ⟨.here, []⟩, .set 0 rentRecord, .set 1 foodRecord, .save 0, .save 1]

theorem bareWorld_get? {l : Location} (hl : l ≠ []) : bareWorld.tree.get? l = none := by
  rw [Tree.get?_of_ne_nil _ hl]
  rfl

theorem bareWorld_orderly : bareWorld.Orderly := by
  have hnone : ∀ {l : Location} {number : Nat} {c : Content},
      bareWorld.tree.get? l ≠ some (.file number c) := by
    intro l number c h
    by_cases hl : l = []
    · subst hl
      cases h
    · cases (bareWorld_get? hl).symm.trans h
  refine ⟨⟨fun l n e h => ?_, fun _ _ _ _ _ h => absurd h hnone, fun _ _ _ h => absurd h hnone⟩, rfl⟩
  cases (bareWorld_get? (by simp)).symm.trans h

set_option maxRecDepth 20000 in
theorem rivals_saved : ((start bareWorld).run rivals).saved = some ⟨[foodRecord]⟩ := by cbv

set_option maxRecDepth 20000 in
theorem rivals_admitted : (start bareWorld).AdmitsAll [] rivals := by
  refine ⟨?_, ?_, trivial, trivial, trivial, trivial, trivial⟩
  · show World.locate _ _ _ = _
    cbv
  · show World.locate _ _ _ = _
    cbv

/-- The last of them has won. -/
theorem last_writer_wins_rivals : ∃ t octets, Collection.text ⟨[foodRecord]⟩ = .ok t ∧
    Utf8.encode t = .ok octets ∧
    ((start bareWorld).run rivals).world.tree.Holds [fileName] octets := by
  obtain ⟨L, goes⟩ := Log.goesTo_of_quiet bareWorld_orderly fun o ho => absurd ho List.not_mem_nil
  have noLink : ∀ now target,
      bareWorld.tree.get? ([] ++ [temporaryName now]) ≠ some (.link target) := by
    intro now target
    rw [bareWorld_get? (by simp)]
    simp
  have hlast := (last_writer_wins goes rfl noLink rivals_admitted).1
  rw [LastSaved, rivals_saved] at hlast
  exact hlast

end Bench

end LabelBook
