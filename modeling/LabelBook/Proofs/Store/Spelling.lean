import LabelBook.Proofs.Record.Spelling
import LabelBook.Proofs.Store.Interleaving

/-!
Spellings in use. What is asked of stores one thing after another may name transactions, inputs and outputs
in small or in capital digits, in the records that are made for it and in the references that are looked
up. The answers do not depend on that, and neither do the collections and the files behind them. Where the
case makes a difference, in identifiers of other kinds, references do tell it apart.
-/

namespace LabelBook

/-! ### Making records -/

/-- A way to make a record: from a mapping or from pairs that name the kind, from the fields of a kind, from
the values that a user gives, or from a line of JSON. -/
inductive Recipe where
  | mapping (d : Entries)
  | pairs (ps : List (Key × Json))
  | fields (k : Kind) (d : Entries)
  | made (k : Kind) (ref label : Json) (more : Entries)
  | line (number : Int) (t : Text)

namespace Recipe

/-- The record that is made. -/
def build : Recipe → Except Failure Record
  | mapping d => (Record.ofMapping d).mapError .rejected
  | pairs ps => (Record.ofPairs ps).mapError .rejected
  | fields k d => (Record.ofFields k d).mapError .rejected
  | made k ref label more => (Record.make k ref label more).mapError .rejected
  | line number t => Record.ofLine number t

/-- Two ways to make a record that differ in the spelling of its identifier at most. -/
inductive Alike : Recipe → Recipe → Prop
  | same (x : Recipe) : Alike x x
  | mapping {k : Kind} {d e : Entries} (named : d.get? "type" = some (.string k.name))
      (h : Entries.Respelled k d e) : Alike (.mapping d) (.mapping e)
  | pairs {k : Kind} {ps qs : List (Key × Json)} (others : otherKeys ps = otherKeys qs)
      (named : Entries.get? "type" (textPairs ps) = some (.string k.name))
      (h : Entries.Respelled k (textPairs ps) (textPairs qs)) : Alike (.pairs ps) (.pairs qs)
  | fields {k : Kind} {d e : Entries} (h : Entries.Respelled k d e) :
      Alike (.fields k d) (.fields k e)
  | made {k l : Kind} {s t : Text} {label : Json} {more : Entries}
      (named : (Entries.putAll [("type", .string k.name), ("ref", .string s), ("label", label)]
        more).get? "type" = some (.string l.name))
      (h : l.Respelled s t) : Alike (.made k (.string s) label more) (.made k (.string t) label more)
  | line {k : Kind} {d e : Entries} {t u : Text} (number : Int)
      (ht : Json.parse t = .ok (.object d)) (hu : Json.parse u = .ok (.object e))
      (named : d.get? "type" = some (.string k.name)) (h : Entries.Respelled k d e) :
      Alike (.line number t) (.line number u)

/-- They make one record. -/
theorem Alike.build_eq {x y : Recipe} (h : Alike x y) : x.build = y.build := by
  cases h with
  | same => rfl
  | mapping named h => rw [build, build, h.ofMapping_eq named]
  | pairs others named h =>
    rw [build, build, Record.ofPairs, Record.ofPairs, others,
      h.ofNamedKind_eq named (h.ofEntriesBeside_eq _)]
  | fields h => rw [build, build, Record.ofFields, Record.ofFields, h.ofEntries_eq]
  | @made k l s t label more named h =>
    have hgiven : Entries.Respelled l [("type", .string k.name), ("ref", .string s), ("label", label)]
        [("type", .string k.name), ("ref", .string t), ("label", label)] :=
      .cons (.inl rfl) (.cons (.inr ⟨s, t, rfl, rfl, h⟩) (.cons (.inl rfl) .nil))
    rw [build, build, Record.make, Record.make, (hgiven.putAll more).ofMapping_eq named]
  | line number ht hu named h =>
    rw [build, build, Record.ofLine_object ht, Record.ofLine_object hu, h.ofMapping_eq named]

end Recipe

/-! ### Errands -/

/-- What is asked of the stores on a bench: anything that can be done with the records there are, a record
that is made to be set in a store, a collection of such records, and the record or the label of a
reference. -/
inductive Errand where
  | deed (deed : Bench.Deed)
  | set (i : Nat) (recipe : Recipe)
  | offer (recipes : List Recipe)
  | get (i : Nat) (k : Kind) (s : Text)
  | text (i : Nat) (k : Kind) (s : Text)

/-- The answer to an errand. -/
inductive Reply where
  | done
  | failed (f : Failure)
  | count (n : Nat)
  | record (r : Option Record)
  | text (t : Option Text)
  | noStore

/-- Two errands that differ at most in the spelling of identifiers that name transactions, inputs and
outputs. -/
inductive Errand.Alike : Errand → Errand → Prop
  | same (x : Errand) : Alike x x
  | set {i : Nat} {x y : Recipe} (h : x.Alike y) : Alike (.set i x) (.set i y)
  | offer {xs ys : List Recipe} (h : List.Forall₂ Recipe.Alike xs ys) : Alike (.offer xs) (.offer ys)
  | get {i : Nat} {k : Kind} {s t : Text} (h : k.Respelled s t) : Alike (.get i k s) (.get i k t)
  | text {i : Nat} {k : Kind} {s t : Text} (h : k.Respelled s t) : Alike (.text i k s) (.text i k t)

namespace Bench

/-- What a store that is known by its number answers. -/
def ask (b : Bench) (i : Nat) (f : SharedStore → Reply) : Reply :=
  match b.stores[i]? with
  | none => .noStore
  | some t => f t

/-- The answer to something that can fail. -/
def ended {α : Type} : Except Failure α → Reply
  | .ok _ => .done
  | .error f => .failed f

/-- The answer to what is done on a bench. -/
def reply (b : Bench) : Deed → Reply
  | .wait _ | .offer _ => .done
  | .openIn p => ended ((Store.openIn p).run b.world).1
  | .set i _ => b.ask i fun _ => .done
  | .merge i source => b.ask i fun t => .count (b.shelf.merge t source).2
  | .save i => b.ask i fun t => ended ((b.shelf.store t).save.run b.world).1

/-- The answer to an errand, and the bench after it. A record that cannot be made changes nothing. -/
def serve (b : Bench) : Errand → Reply × Bench
  | .deed deed => (b.reply deed, b.step deed)
  | .set i recipe =>
    match recipe.build with
    | .error f => (.failed f, b)
    | .ok r => (b.reply (.set i r), b.step (.set i r))
  | .offer recipes =>
    match recipes.mapM Recipe.build with
    | .error f => (.failed f, b)
    | .ok rs => (.done, b.step (.offer ⟨rs⟩))
  | .get i k s => (b.ask i fun t => .record ((b.shelf.store t).get? (.of k s)), b)
  | .text i k s => (b.ask i fun t => .text ((b.shelf.store t).text? (.of k s)), b)

/-- The answers to errands one after another, each with the bench behind it. -/
def trace (b : Bench) : List Errand → List (Reply × Bench)
  | [] => []
  | x :: xs => b.serve x :: trace (b.serve x).2 xs

variable {b : Bench} {x y : Errand} {errands others : List Errand}

/-- Ways to make records that are alike one by one make the same records. -/
theorem mapM_build_eq {xs ys : List Recipe} (h : List.Forall₂ Recipe.Alike xs ys) :
    xs.mapM Recipe.build = ys.mapM Recipe.build := by
  induction h with
  | nil => rfl
  | cons h _ ih => rw [List.mapM_cons, List.mapM_cons, h.build_eq, ih]

/-- Errands that are alike get one answer, and leave one bench. -/
theorem serve_eq (h : x.Alike y) : b.serve x = b.serve y := by
  cases h with
  | same => rfl
  | set h => rw [serve, serve, h.build_eq]
  | offer h => rw [serve, serve, mapM_build_eq h]
  | get h => rw [serve, serve, Reference.of_eq_iff.mpr ⟨rfl, h.normalize_eq⟩]
  | text h => rw [serve, serve, Reference.of_eq_iff.mpr ⟨rfl, h.normalize_eq⟩]

theorem trace_eq (h : List.Forall₂ Errand.Alike errands others) :
    b.trace errands = b.trace others := by
  induction h generalizing b with
  | nil => rfl
  | cons h _ ih => rw [trace, trace, serve_eq h, ih]

/-- The case of hexadecimal digits never matters, and nothing else is taken for the same. Two runs whose
errands differ in the spelling of identifiers of transactions, inputs and outputs at most get the same
answers, and have after each errand the same collections in their stores, and the same files with the same
octets in the world around them. References of different kinds are different; those of addresses, public
keys and extended keys are different if their identifiers are not the same character by character; and
those of transactions, inputs and outputs are the same exactly if the identifiers are spellings of one
another. -/
theorem case_never_matters (b : Bench) (alike : List.Forall₂ Errand.Alike errands others) :
    b.trace errands = b.trace others ∧
      ∀ k s t, (∀ l, k ≠ l → Reference.of k s ≠ .of l t) ∧
        (k = .address ∨ k = .publicKey ∨ k = .extendedKey → Reference.of k s = .of k t → s = t) ∧
        (k = .transaction ∨ k = .input ∨ k = .output → k.Names s → k.Names t →
          (Reference.of k s = .of k t ↔ k.Respelled s t)) := by
  refine ⟨trace_eq alike, fun k s t => ⟨fun l hne h => hne (Reference.of_eq h).1, ?_, ?_⟩⟩
  · rintro (rfl | rfl | rfl) h <;> exact (Reference.of_eq h).2.1 rfl
  · intro hkind hs ht
    have hid : k.hasTransactionId = true := by
      rcases hkind with rfl | rfl | rfl <;> rfl
    exact ⟨fun h => (Reference.of_eq h).2.2 hid hs ht,
      fun h => Reference.of_eq_iff.mpr ⟨rfl, h.normalize_eq⟩⟩

/-- A transaction in capital digits. -/
def capitalId : Text := List.replicate 64 (.scalar 'A')

/-- The same transaction in small digits. -/
def smallId : Text := List.replicate 64 (.scalar 'a')

/-- A store is opened, a transaction is labelled in it under one spelling and looked up under another, and
the store is saved. -/
def visit (stored asked : Text) : List Errand :=
  [.deed (.openIn ⟨.here, []⟩), .set 0 (.made .transaction (.string stored) (.string "rent") []),
    .text 0 .transaction asked, .deed (.save 0)]

theorem respelled_id : Kind.Respelled .transaction capitalId smallId where
  hasTransactionId := rfl
  names := ⟨rfl, by decide⟩
  same := by decide

set_option maxRecDepth 20000 in
/-- The label is found, and what is saved is the same whichever spelling was stored. -/
theorem case_never_matters_capitals :
    List.Forall₂ Errand.Alike (visit capitalId smallId) (visit smallId smallId) ∧
      (start bareWorld).trace (visit capitalId smallId) =
        (start bareWorld).trace (visit smallId smallId) ∧
      ((start bareWorld).trace (visit smallId smallId)).map Prod.fst =
        [.done, .done, .text (some "rent"), .done] := by
  have alike : List.Forall₂ Errand.Alike (visit capitalId smallId) (visit smallId smallId) :=
    .cons (.same _) (.cons (.set (.made rfl respelled_id)) (.cons (.same _) (.cons (.same _) .nil)))
  exact ⟨alike, (case_never_matters _ alike).1, by cbv⟩

end Bench

end LabelBook
