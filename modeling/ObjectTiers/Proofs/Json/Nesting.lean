/-
How deep values nest, and what a reader with a limit does about it.

The written form of a value has as many levels of brackets as the value nests deep (`nesting`).
Within the limit a value of 64-bit integers is read back (`readValue_nested`); above it the reader
gives up where the surplus bracket opens, whatever else the value holds (`readValue_tooDeep`).

What is read back is the normal form. A value whose objects have their members in order is its own
(`normal_of_isSorted`), and there are no others among the values a reader gives
(`isSorted_of_readValue`).
-/
import ObjectTiers.Proofs.Json.Members

namespace ObjectTiers.Json

/-! ### Values part by part -/

mutual
/-- The levels of arrays and objects in a value. -/
def nesting : Json → Nat
  | .array xs => nestingItems xs + 1
  | .object ms => nestingMembers ms + 1
  | .null | .bool _ | .number _ | .text _ => 0

/-- The most levels among items. -/
def nestingItems : List Json → Nat
  | [] => 0
  | x :: xs => max (nesting x) (nestingItems xs)

/-- The most levels among the values of members. -/
def nestingMembers : List (String × Json) → Nat
  | [] => 0
  | (_, v) :: ms => max (nesting v) (nestingMembers ms)
end

mutual
/-- Whether `p` holds of a value and of every value inside it. -/
def every (p : Json → Bool) : Json → Bool
  | .array xs => p (.array xs) && everyItem p xs
  | .object ms => p (.object ms) && everyMember p ms
  | .null => p .null
  | .bool b => p (.bool b)
  | .number n => p (.number n)
  | .text s => p (.text s)

/-- Whether `p` holds of items and of every value inside them. -/
def everyItem (p : Json → Bool) : List Json → Bool
  | [] => true
  | x :: xs => every p x && everyItem p xs

/-- Whether `p` holds of the values of members and of every value inside them. -/
def everyMember (p : Json → Bool) : List (String × Json) → Bool
  | [] => true
  | (_, v) :: ms => every p v && everyMember p ms
end

/-- Whether all numbers in a value are integers of 64 bits, signed or not. -/
def holdsWords : Json → Bool :=
  every fun
    | .number n => Number.isWord n
    | _ => true

/-- Whether all objects in a value have their members in order. -/
def isSorted : Json → Bool :=
  every fun
    | .object ms => decide (Ascends ms)
    | _ => true

theorem nestingItems_le {xs : List Json} {n : Nat} :
    nestingItems xs ≤ n ↔ ∀ x ∈ xs, nesting x ≤ n := by
  induction xs with
  | nil => simp [nestingItems]
  | cons x xs ih => rw [nestingItems, Nat.max_le, ih, List.forall_mem_cons]

theorem nestingMembers_le {ms : List (String × Json)} {n : Nat} :
    nestingMembers ms ≤ n ↔ ∀ m ∈ ms, nesting m.2 ≤ n := by
  induction ms with
  | nil => simp [nestingMembers]
  | cons m ms ih => rw [nestingMembers, Nat.max_le, ih, List.forall_mem_cons]

theorem lt_nesting_array {xs : List Json} {n : Nat} :
    n + 1 < (array xs).nesting ↔ ∃ x ∈ xs, n < x.nesting := by
  rw [nesting, Nat.add_lt_add_iff_right, ← Nat.not_le, nestingItems_le]
  simp

theorem lt_nesting_object {ms : List (String × Json)} {n : Nat} :
    n + 1 < (object ms).nesting ↔ ∃ m ∈ ms, n < m.2.nesting := by
  rw [nesting, Nat.add_lt_add_iff_right, ← Nat.not_le, nestingMembers_le]
  simp

theorem everyItem_eq (p : Json → Bool) (xs : List Json) : everyItem p xs = xs.all (every p) := by
  induction xs with
  | nil => rfl
  | cons x xs ih => rw [everyItem, ih, List.all_cons]

theorem everyMember_eq (p : Json → Bool) (ms : List (String × Json)) :
    everyMember p ms = ms.all fun m => every p m.2 := by
  induction ms with
  | nil => rfl
  | cons m ms ih => rw [everyMember, ih, List.all_cons]

theorem holdsWords_array {xs : List Json} :
    (array xs).holdsWords = true ↔ ∀ x ∈ xs, x.holdsWords = true := by
  simp [holdsWords, every, everyItem_eq]

theorem holdsWords_object {ms : List (String × Json)} :
    (object ms).holdsWords = true ↔ ∀ m ∈ ms, m.2.holdsWords = true := by
  simp [holdsWords, every, everyMember_eq]

theorem isSorted_array {xs : List Json} :
    (array xs).isSorted = true ↔ ∀ x ∈ xs, x.isSorted = true := by
  simp [isSorted, every, everyItem_eq]

theorem isSorted_object {ms : List (String × Json)} :
    (object ms).isSorted = true ↔ Ascends ms ∧ ∀ m ∈ ms, m.2.isSorted = true := by
  simp [isSorted, every, everyMember_eq]

/-- Values by induction: an array by its items, an object by the values of its members. -/
theorem byParts {P : Json → Prop} (null : P .null) (bool : ∀ b, P (.bool b))
    (number : ∀ n, P (.number n)) (text : ∀ s, P (.text s))
    (array : ∀ xs, (∀ x ∈ xs, P x) → P (.array xs))
    (object : ∀ ms, (∀ m ∈ ms, P m.2) → P (.object ms)) (j : Json) : P j := by
  refine @Json.rec P (fun xs => ∀ x ∈ xs, P x) (fun ms => ∀ m ∈ ms, P m.2) (fun m => P m.2)
    null bool number text array object nofun ?items nofun ?members (fun _ _ h => h) j
  case items =>
    intro x xs hx hxs y hy
    rcases List.mem_cons.mp hy with rfl | hy
    · exact hx
    · exact hxs y hy
  case members =>
    intro m ms hm hms p hp
    rcases List.mem_cons.mp hp with rfl | hp
    · exact hm
    · exact hms p hp

/-! ### Values in normal form -/

theorem normal_of_isSorted {j : Json} (h : j.isSorted = true) : normal j = j := by
  induction j using byParts with
  | null | bool b | number n | text s => rfl
  | array xs ih =>
    have hall := isSorted_array.mp h
    rw [normal, normalItems_eq, List.map_congr_left fun x hx => ih x hx (hall x hx), List.map_id']
  | object ms ih =>
    obtain ⟨hascends, hall⟩ := isSorted_object.mp h
    have hself : ∀ m ∈ ms, (m.1, normal m.2) = m := fun m hm =>
      Prod.ext rfl (ih m hm (hall m hm))
    have hset : insertAll [] ms = [] ++ ms := insertAll_of_ascends hascends
    rw [normal, normalMembers_eq, List.map_congr_left hself, List.map_id']
    exact congrArg Json.object hset

section Read

variable {α : Type} {P : α → Prop} {value : Bytes → Read α}

theorem forall_of_readItems (h : ∀ input x rest, value input = .ok (x, rest) → P x)
    {bound input rest : Bytes} {acc xs : List α} (hacc : ∀ x ∈ acc, P x)
    (hread : readItems value bound input acc = .ok (xs, rest)) : ∀ x ∈ xs, P x := by
  induction bound generalizing input acc with
  | nil => cases hread
  | cons y bound ih =>
    rw [readItems] at hread
    split at hread
    · cases hread
    split at hread
    · cases hread
      simpa using hacc
    split at hread
    · split at hread
      · cases hread
      split at hread
      · cases hread
      split at hread
      · cases hread
      · next x r hx => exact ih (List.forall_mem_cons.mpr ⟨h _ _ _ hx, hacc⟩) hread
    · cases hread

theorem forall_of_readArray (h : ∀ input x rest, value input = .ok (x, rest) → P x)
    {input rest : Bytes} {xs : List α} (hread : readArray value input = .ok (xs, rest)) :
    ∀ x ∈ xs, P x := by
  rw [readArray] at hread
  split at hread
  · cases hread
  split at hread
  · cases hread
    nofun
  split at hread
  · cases hread
  · next x r hx => exact forall_of_readItems h (by simpa using h _ _ _ hx) hread

theorem of_readMember (h : ∀ input x rest, value input = .ok (x, rest) → P x)
    {input rest : Bytes} {m : String × α} (hread : readMember value input = .ok (m, rest)) :
    P m.2 := by
  rw [readMember] at hread
  split at hread
  · cases hread
  split at hread
  · cases hread
  split at hread
  · cases hread
  · next v r hv =>
    cases hread
    exact h _ _ _ hv

/-- Members are set as they are read, each under its key. -/
theorem forall_of_readMembers (h : ∀ input x rest, value input = .ok (x, rest) → P x)
    {bound input rest : Bytes} {acc ms : List (String × α)} (hascends : Ascends acc)
    (hacc : ∀ m ∈ acc, P m.2) (hread : readMembers value bound input acc = .ok (ms, rest)) :
    Ascends ms ∧ ∀ m ∈ ms, P m.2 := by
  induction bound generalizing input acc with
  | nil => cases hread
  | cons y bound ih =>
    rw [readMembers] at hread
    split at hread
    · cases hread
    split at hread
    · cases hread
      exact ⟨hascends, hacc⟩
    split at hread
    · split at hread
      · cases hread
      split at hread
      · split at hread
        · cases hread
        · next k v r hm =>
          refine ih (ascends_insertMember hascends k v) (fun m hmem => ?_) hread
          rcases mem_insertMember hmem with rfl | hmem
          · exact of_readMember h hm
          · exact hacc m hmem
      · split at hread <;> cases hread
    · cases hread

theorem forall_of_readObject (h : ∀ input x rest, value input = .ok (x, rest) → P x)
    {input rest : Bytes} {ms : List (String × α)}
    (hread : readObject value input = .ok (ms, rest)) : Ascends ms ∧ ∀ m ∈ ms, P m.2 := by
  rw [readObject] at hread
  split at hread
  · cases hread
  split at hread
  · cases hread
    exact ⟨List.Pairwise.nil, nofun⟩
  split at hread
  · split at hread
    · cases hread
    · next k v r hm =>
      exact forall_of_readMembers h (by simp [Ascends]) (by simpa using of_readMember h hm) hread
  · cases hread

end Read

theorem ok_of_map {α β : Type} {f : α → β} {x : Read α} {b : β} {rest : Bytes}
    (h : Read.map f x = .ok (b, rest)) : ∃ a, x = .ok (a, rest) ∧ f a = b := by
  cases x with
  | error e => cases h
  | ok p =>
    cases h
    exact ⟨p.1, rfl, rfl⟩

theorem isSorted_of_readScalar {b : UInt8} {r rest : Bytes} {j : Json}
    (h : readScalar b r = .ok (j, rest)) : j.isSorted = true := by
  have hconstant {letters r : Bytes} {v : Json} (hv : v.isSorted = true)
      (h : readConstant letters v r = .ok (j, rest)) : j.isSorted = true := by
    unfold readConstant at h
    split at h
    · cases h
    · cases h
      exact hv
  unfold readScalar at h
  split at h
  · exact hconstant rfl h
  split at h
  · exact hconstant rfl h
  split at h
  · exact hconstant rfl h
  split at h
  · obtain ⟨n, -, rfl⟩ := ok_of_map h
    rfl
  split at h
  · obtain ⟨n, -, rfl⟩ := ok_of_map h
    rfl
  split at h
  · obtain ⟨s, -, rfl⟩ := ok_of_map h
    rfl
  · cases h

/-- Whatever value is read, its objects have their members in order. -/
theorem isSorted_of_readValue {depth : Nat} {input rest : Bytes} {j : Json}
    (h : readValue depth input = .ok (j, rest)) : j.isSorted = true := by
  induction depth generalizing input j rest with
  | zero =>
    rw [readValue] at h
    split at h
    · cases h
    split at h
    · cases h
    · exact isSorted_of_readScalar h
  | succ depth ih =>
    rw [readValue] at h
    split at h
    · cases h
    split at h
    · obtain ⟨xs, hread, rfl⟩ := ok_of_map h
      exact isSorted_array.mpr (forall_of_readArray (fun _ _ _ => ih) hread)
    split at h
    · obtain ⟨ms, hread, rfl⟩ := ok_of_map h
      exact isSorted_object.mpr
        (forall_of_readObject (P := fun x => x.isSorted = true) (fun _ _ _ => ih) hread)
    · exact isSorted_of_readScalar h

/-! ### Within the limit -/

theorem isPlainTo_iff {depth : Nat} {j : Json} :
    isPlainTo depth j = true ↔ j.holdsWords = true ∧ j.nesting ≤ depth := by
  induction depth generalizing j with
  | zero => cases j <;> simp [isPlainTo, holdsWords, every, nesting]
  | succ depth ih =>
    cases j with
    | array xs =>
      rw [isPlainTo, List.all_eq_true, holdsWords_array, nesting, Nat.add_le_add_iff_right,
        nestingItems_le, ← forall₂_and]
      exact forall₂_congr fun x _ => ih
    | object ms =>
      rw [isPlainTo, List.all_eq_true, holdsWords_object, nesting, Nat.add_le_add_iff_right,
        nestingMembers_le, ← forall₂_and]
      exact forall₂_congr fun m _ => ih
    | null | bool b | number n | text s => simp [isPlainTo, holdsWords, every, nesting]

/-- A value of integers that nests within the limit is read back in its normal form. -/
theorem readValue_nested {depth : Nat} {j : Json} (hwords : j.holdsWords = true)
    (hdepth : j.nesting ≤ depth) {rest : Bytes} (hrest : Stops rest) :
    readValue depth (write j ++ rest) = .ok (normal j, rest) :=
  readValue_write (isPlainTo_iff.mpr ⟨hwords, hdepth⟩) hrest

/-! ### Above the limit -/

/-- Whether a reader of values reads a written one to its end. -/
def Reads {α : Type} (value : Bytes → Read α) (j : Json) : Prop :=
  ∀ ⦃rest⦄, Stops rest → ∃ v, value (write j ++ rest) = .ok (v, rest)

/-- Whether a reader of values gives up at a written one for its nesting. -/
def GivesUp {α : Type} (value : Bytes → Read α) (j : Json) : Prop :=
  ∀ ⦃rest⦄, Stops rest → ∃ r, value (write j ++ rest) = .error ⟨.tooDeep, r⟩

section GiveUp

variable {α : Type} {value : Bytes → Read α}

/-- What is read behind a value is given up with the value, or in what follows it. -/
theorem tooDeep_or_next {β : Type} {j : Json} (hj : Reads value j ∨ GivesUp value j)
    {input : Bytes} (hinput : Stops input) {next : α → Bytes → Read β}
    (hnext : ¬ GivesUp value j → ∀ v, ∃ r, next v input = .error ⟨.tooDeep, r⟩) :
    ∃ r, (match value (write j ++ input) with
      | .error e => .error e
      | .ok (v, rest) => next v rest : Read β) = .error ⟨.tooDeep, r⟩ := by
  by_cases hdeep : GivesUp value j
  · obtain ⟨r, hr⟩ := hdeep hinput
    rw [hr]
    exact ⟨r, rfl⟩
  · obtain ⟨v, hv⟩ := hj.resolve_right hdeep hinput
    rw [hv]
    exact hnext hdeep v

/-- A reader gives up at items where it gives up at one of them. -/
theorem readItems_tooDeep {xs : List Json} (hall : ∀ x ∈ xs, Reads value x ∨ GivesUp value x)
    (hsome : ∃ x ∈ xs, GivesUp value x) {bound : Bytes} (hbound : xs.length < bound.length)
    (rest : Bytes) (acc : List α) :
    ∃ r, readItems value bound (writeItems xs ++ rest) acc = .error ⟨.tooDeep, r⟩ := by
  induction xs generalizing bound acc with
  | nil => simp at hsome
  | cons x xs ih =>
    obtain ⟨y, bound, rfl⟩ := List.exists_cons_of_length_pos (Nat.zero_lt_of_lt hbound)
    rw [readItems_cons]
    refine tooDeep_or_next (hall x (by simp)) (stops_writeItems xs rest) fun hx v => ?_
    exact ih (fun z hz => hall z (by simp [hz])) (by simpa [hx] using hsome)
      (by simpa using hbound) _

theorem readArray_tooDeep {x : Json} {xs : List Json}
    (hall : ∀ z ∈ x :: xs, Reads value z ∨ GivesUp value z)
    (hsome : ∃ z ∈ x :: xs, GivesUp value z) (rest : Bytes) :
    ∃ r, readArray value (write x ++ (writeItems xs ++ rest)) = .error ⟨.tooDeep, r⟩ := by
  rw [readArray_cons]
  refine tooDeep_or_next (hall x (by simp)) (stops_writeItems xs rest) fun hx v => ?_
  refine readItems_tooDeep (fun z hz => hall z (by simp [hz])) (by simpa [hx] using hsome) ?_ _ _
  have := length_writeItems xs
  rw [List.length_append]
  omega

/-- A reader gives up at members where it gives up at the value of one of them. -/
theorem readMembers_tooDeep {ms : List (String × Json)}
    (hall : ∀ m ∈ ms, Reads value m.2 ∨ GivesUp value m.2)
    (hsome : ∃ m ∈ ms, GivesUp value m.2) {bound : Bytes} (hbound : ms.length < bound.length)
    (rest : Bytes) (acc : List (String × α)) :
    ∃ r, readMembers value bound (writeMembers ms ++ rest) acc = .error ⟨.tooDeep, r⟩ := by
  induction ms generalizing bound acc with
  | nil => simp at hsome
  | cons m ms ih =>
    obtain ⟨y, bound, rfl⟩ := List.exists_cons_of_length_pos (Nat.zero_lt_of_lt hbound)
    rw [readMembers_cons]
    refine tooDeep_or_next (hall m (by simp)) (stops_writeMembers ms rest) fun hm v => ?_
    refine ih (fun p hp => hall p (by simp [hp])) ?_ (by simpa using hbound) _
    simpa only [List.exists_mem_cons_iff, hm, false_or] using hsome

theorem readObject_tooDeep {m : String × Json} {ms : List (String × Json)}
    (hall : ∀ p ∈ m :: ms, Reads value p.2 ∨ GivesUp value p.2)
    (hsome : ∃ p ∈ m :: ms, GivesUp value p.2) (rest : Bytes) :
    ∃ r, readObject value (writeText m.1 ++ 0x3a :: (write m.2 ++ (writeMembers ms ++ rest))) =
      .error ⟨.tooDeep, r⟩ := by
  rw [readObject_cons]
  refine tooDeep_or_next (hall m (by simp)) (stops_writeMembers ms rest) fun hm v => ?_
  refine readMembers_tooDeep (fun p hp => hall p (by simp [hp])) ?_ ?_ _ _
  · simpa only [List.exists_mem_cons_iff, hm, false_or] using hsome
  · have := length_writeMembers ms
    rw [List.length_append]
    omega

end GiveUp

/-- A value of integers that nests deeper than the limit is given up. -/
theorem readValue_tooDeep {depth : Nat} {j : Json} (hwords : j.holdsWords = true)
    (hdepth : depth < j.nesting) : GivesUp (readValue depth) j := by
  induction depth generalizing j with
  | zero =>
    intro rest _
    cases j with
    | array xs => cases xs <;> exact ⟨_, rfl⟩
    | object ms =>
      cases ms with
      | nil => exact ⟨_, rfl⟩
      | cons m ms => exact ⟨_, rfl⟩
    | null | bool b | number n | text s => simp [nesting] at hdepth
  | succ depth ih =>
    -- every part is read or given up, as it nests within the smaller limit or not
    have hpart (x : Json) (hx : x.holdsWords = true) :
        Reads (readValue depth) x ∨ GivesUp (readValue depth) x := by
      rcases Nat.lt_or_ge depth x.nesting with hlt | hle
      · exact .inr (ih hx hlt)
      · exact .inl fun rest hrest => ⟨_, readValue_nested hx hle hrest⟩
    intro rest _
    cases j with
    | array xs =>
      have hall := holdsWords_array.mp hwords
      obtain ⟨x, hx, hlt⟩ := lt_nesting_array.mp hdepth
      cases xs with
      | nil => cases hx
      | cons y ys =>
        obtain ⟨r, hr⟩ := readArray_tooDeep (fun z hz => hpart z (hall z hz))
          ⟨x, hx, ih (hall x hx) hlt⟩ rest
        rw [write_array_cons, readValue_bracket, hr]
        exact ⟨r, rfl⟩
    | object ms =>
      have hall := holdsWords_object.mp hwords
      obtain ⟨m, hm, hlt⟩ := lt_nesting_object.mp hdepth
      cases ms with
      | nil => cases hm
      | cons p ps =>
        obtain ⟨r, hr⟩ := readObject_tooDeep (fun q hq => hpart q.2 (hall q hq))
          ⟨m, hm, ih (hall m hm) hlt⟩ rest
        rw [write_object_cons, readValue_brace, hr]
        exact ⟨r, rfl⟩
    | null | bool b | number n | text s => simp [nesting] at hdepth

end ObjectTiers.Json
