import LabelBook.Json.Parser
import LabelBook.Proofs.Json.Written

/-!
Values that have been read. What holds of the words, the numbers and the strings that can be read, and
passes from the parts of a value to the value, holds of all that is read: a key that comes again keeps
its place and takes the last value, so no object has a key twice; and no integer has too many digits.
-/

namespace LabelBook

namespace Entries

theorem keys_put (key : Text) (value : Json) (es : Entries) : (es.put key value).map Prod.fst =
    if key ∈ es.map Prod.fst then es.map Prod.fst else es.map Prod.fst ++ [key] := by
  induction es with
  | nil => simp [put]
  | cons e es ih =>
    obtain ⟨k, v⟩ := e
    rw [put]
    by_cases hk : k = key
    · rw [if_pos hk, if_pos (by simp [hk])]
      simp
    · rw [if_neg hk, List.map_cons, ih]
      by_cases hmem : key ∈ es.map Prod.fst
      · rw [if_pos hmem, if_pos (by simp at hmem; simp [hmem])]
        rfl
      · rw [if_neg hmem, if_neg (by simp at hmem; simp [hmem, Ne.symm hk])]
        rfl

theorem nodup_put {es : Entries} (h : (es.map Prod.fst).Nodup) (key : Text) (value : Json) :
    ((es.put key value).map Prod.fst).Nodup := by
  rw [keys_put]
  split
  · exact h
  · next hmem =>
    refine List.Nodup.append h (List.nodup_singleton key) fun k hk hkey => ?_
    rw [List.mem_singleton.mp hkey] at hk
    exact hmem hk

theorem mem_put {key : Text} {value : Json} {e : Text × Json} : ∀ {es : Entries},
    e ∈ es.put key value → e = (key, value) ∨ e ∈ es
  | [], h => Or.inl (List.mem_singleton.mp h)
  | (k, v) :: es, h => by
    rw [put] at h
    split at h
    · next hk =>
      rcases List.mem_cons.mp h with rfl | h
      · exact Or.inl (by rw [hk])
      · exact Or.inr (List.mem_cons_of_mem _ h)
    · rcases List.mem_cons.mp h with rfl | h
      · exact Or.inr List.mem_cons_self
      · rcases mem_put h with h | h
        · exact Or.inl h
        · exact Or.inr (List.mem_cons_of_mem _ h)

end Entries

namespace Json

variable {item : Text → Except Fault (Json × Text)} {s rest : Text} {v : Json}

theorem itemsDistinct_iff {vs : List Json} : ItemsDistinct vs ↔ ∀ v ∈ vs, DistinctKeys v := by
  induction vs with
  | nil => simp [ItemsDistinct]
  | cons v vs ih => rw [ItemsDistinct, ih, List.forall_mem_cons]

theorem distinctKeys_put {es : Entries} (h : DistinctKeys (.object es)) (hv : DistinctKeys v)
    (key : Text) : DistinctKeys (.object (es.put key v)) := by
  refine ⟨Entries.nodup_put h.1 key v, entriesDistinct_iff.mpr fun e he => ?_⟩
  rcases Entries.mem_put he with rfl | he
  · exact hv
  · exact entriesDistinct_iff.mp h.2 e he

theorem distinctKeys_putAll {fields : Entries} : ∀ {es : Entries}, DistinctKeys (.object es) →
    (∀ e ∈ fields, DistinctKeys e.2) → DistinctKeys (.object (es.putAll fields)) := by
  induction fields with
  | nil => exact fun h _ => h
  | cons e fields ih =>
    intro es h hfields
    obtain ⟨he, hfields⟩ := List.forall_mem_cons.mp hfields
    exact ih (distinctKeys_put h he e.1) hfields

/-! ### Values that have been read -/

/-- A property of values that what is read has: words, strings and numbers have it, integers unless they
have too many digits, and a value has it if its parts do. -/
structure Inherited (P : Json → Prop) : Prop where
  word : ∀ w ∈ words, P w.2
  string : ∀ t, P (.string t)
  float : ∀ x, P (.float x)
  int : ∀ n, digitCount n.natAbs ≤ maxDigits → P (.int n)
  array : ∀ vs, (∀ v ∈ vs, P v) → P (.array vs)
  nothing : P (.object [])
  put : ∀ (es : Entries) (v : Json) (key : Text), P (.object es) → P v → P (.object (es.put key v))

variable {P : Json → Prop}

theorem wholeDigits_decimal {s : Text} : ∀ c ∈ (wholeDigits s).1, c.isDigit = true := by
  unfold wholeDigits
  split
  · intro c hc
    rw [List.take_succ_cons, List.take_zero, List.mem_singleton] at hc
    rw [hc]
    rfl
  · exact fun c hc => List.mem_takeWhile_imp hc

theorem number?_inherits (hP : Inherited P) {negative : Bool}
    (h : number? negative s = .ok (some (v, rest))) : P v := by
  simp only [number?] at h
  split at h
  · cases h
  next hwhole =>
  split at h
  · cases h
    exact hP.float _
  split at h
  · split at h
    · cases h
    · next hdigits =>
      cases h
      refine hP.int _ ?_
      have hcount := digitCount_digitsValue (wholeDigits_decimal (s := s)) (by simpa using hwhole)
      split <;> simp only [Int.natAbs_neg, Int.natAbs_natCast] <;> omega
  · cases h
    exact hP.float _

theorem scalar_inherits (hP : Inherited P) (h : scalar s = .ok (v, rest)) : P v := by
  simp only [scalar] at h
  split at h
  · next hword =>
    obtain ⟨w, hw, hfound⟩ := List.exists_of_findSome?_eq_some hword
    obtain ⟨tail, -, rfl⟩ := Option.map_eq_some_iff.mp hfound
    cases h
    exact hP.word w hw
  · split at h
    · cases h
    · next hnumber =>
      cases h
      split at hnumber <;> exact number?_inherits hP hnumber
    · cases h

theorem items_inherit (hitem : ∀ {s v rest}, item s = .ok (v, rest) → P v) :
    ∀ {fuel : Nat} {done vs : List Json} {s rest : Text}, (∀ v ∈ done, P v) →
    items item fuel done s = .ok (vs, rest) → ∀ v ∈ vs, P v
  | 0, _, _, _, _, _, h => by simp [items] at h
  | fuel + 1, done, vs, s, rest, hdone, h => by
    rw [items] at h
    split at h
    · cases h
    · next v tail hv =>
      have hcons : ∀ w ∈ v :: done, P w := List.forall_mem_cons.mpr ⟨hitem hv, hdone⟩
      split at h
      · cases h
        exact fun w hw => hcons w (List.mem_reverse.mp hw)
      · exact items_inherit hitem hcons h
      · cases h

theorem members_inherit (hP : Inherited P) (hitem : ∀ {s v rest}, item s = .ok (v, rest) → P v) :
    ∀ {fuel : Nat} {done es : Entries} {s rest : Text}, P (.object done) →
    members item fuel done s = .ok (es, rest) → P (.object es)
  | 0, _, _, _, _, _, h => by simp [members] at h
  | fuel + 1, done, es, s, rest, hdone, h => by
    unfold members at h
    split at h
    · split at h
      · cases h
      · next key _ _ =>
        split at h
        · split at h
          · cases h
          · next hv =>
            have hput := hP.put done _ key hdone (hitem hv)
            split at h
            · cases h
              exact hput
            · exact members_inherit hP hitem hput h
            · cases h
        · cases h
    · cases h

theorem arrayBody_inherits (hP : Inherited P) (hitem : ∀ {s v rest}, item s = .ok (v, rest) → P v)
    (h : arrayBody item s = .ok (v, rest)) : P v := by
  have hnil : ∀ w ∈ ([] : List Json), P w := fun _ hw => absurd hw List.not_mem_nil
  unfold arrayBody at h
  split at h
  · cases h
    exact hP.array [] hnil
  · split at h
    · cases h
    · next hitems =>
      cases h
      exact hP.array _ (items_inherit hitem hnil hitems)

theorem objectBody_inherits (hP : Inherited P) (hitem : ∀ {s v rest}, item s = .ok (v, rest) → P v)
    (h : objectBody item s = .ok (v, rest)) : P v := by
  unfold objectBody at h
  split at h
  · cases h
    exact hP.nothing
  · split at h
    · cases h
    · next hmembers =>
      cases h
      exact members_inherit hP hitem hP.nothing hmembers

theorem value_inherits (hP : Inherited P) {depth : Nat} (h : value depth s = .ok (v, rest)) : P v := by
  induction depth generalizing s v rest with
  | zero =>
    unfold value at h
    split at h
    · split at h
      · cases h
      · cases h
        exact hP.string _
    · cases h
    · cases h
    · exact scalar_inherits hP h
  | succ depth ih =>
    unfold value at h
    split at h
    · split at h
      · cases h
      · cases h
        exact hP.string _
    · exact arrayBody_inherits hP ih h
    · exact objectBody_inherits hP ih h
    · exact scalar_inherits hP h

theorem parse_inherits (hP : Inherited P) (h : parse s = .ok v) : P v := by
  unfold parse ofUnmarkedText ofText at h
  split at h
  · cases h
  · split at h
    · cases h
    · next hvalue =>
      split at h
      · cases h
        exact value_inherits hP hvalue
      · cases h

/-- No object in a value that was read has a key twice. -/
theorem parse_distinct (h : parse s = .ok v) : DistinctKeys v :=
  parse_inherits ⟨by simp [words, DistinctKeys], fun _ => trivial, fun _ => trivial,
    fun _ _ => trivial, fun _ => itemsDistinct_iff.mpr, ⟨List.nodup_nil, trivial⟩,
    fun _ _ key hes hv => distinctKeys_put hes hv key⟩ h

theorem itemsHoldLongInt_eq_false {vs : List Json} :
    itemsHoldLongInt vs = false ↔ ∀ v ∈ vs, holdsLongInt v = false := by
  induction vs with
  | nil => simp [itemsHoldLongInt]
  | cons v vs ih => rw [itemsHoldLongInt, Bool.or_eq_false_iff, ih, List.forall_mem_cons]

theorem entriesHoldLongInt_eq_false {es : Entries} :
    entriesHoldLongInt es = false ↔ ∀ e ∈ es, holdsLongInt e.2 = false := by
  induction es with
  | nil => simp [entriesHoldLongInt]
  | cons e es ih => rw [entriesHoldLongInt, Bool.or_eq_false_iff, ih, List.forall_mem_cons]

theorem holdsLongInt_put {es : Entries} (h : holdsLongInt (.object es) = false)
    (hv : holdsLongInt v = false) (key : Text) : holdsLongInt (.object (es.put key v)) = false := by
  refine entriesHoldLongInt_eq_false.mpr fun e he => ?_
  rcases Entries.mem_put he with rfl | he
  · exact hv
  · exact entriesHoldLongInt_eq_false.mp h e he

/-- No integer in a value that was read has more digits than are written. -/
theorem parse_short (h : parse s = .ok v) : holdsLongInt v = false :=
  parse_inherits (P := fun v => holdsLongInt v = false)
    ⟨by simp [words, holdsLongInt], fun _ => rfl, fun _ => rfl,
      fun n hn => by simpa [holdsLongInt, Datum.tooLong, maxDigits] using hn,
      fun _ => itemsHoldLongInt_eq_false.mpr, rfl, fun _ _ key hes hv => holdsLongInt_put hes hv key⟩ h

end Json

end LabelBook
