/-
Written values read back.

`readValue_write`: a value of integers that nests no deeper than is allowed is read back as its
normal form (`normal`), in which the members of every object are in order and each key counts
once.

`readValue_rest`: of any other value, say one with a number that reads as another, all that is
known is where a successful reading ends: behind the value, or inside a number in it, and from
there no reader goes on. So the members of an object are still told apart (`readMembers_rest`).
-/
import Mathlib.Data.List.Forall2
import ObjectTiers.Proofs.Json.Scan

namespace ObjectTiers.Json

/-! ### Normal forms -/

mutual
/-- The value with the members of its objects in order, and of two with one key the later. -/
def normal : Json → Json
  | .array xs => .array (normalItems xs)
  | .object ms => ofMembers (normalMembers ms)
  | .null => .null
  | .bool b => .bool b
  | .number n => .number n
  | .text s => .text s

/-- Items, each in normal form. -/
def normalItems : List Json → List Json
  | [] => []
  | x :: xs => normal x :: normalItems xs

/-- Members as they stand, each value in normal form. -/
def normalMembers : List (String × Json) → List (String × Json)
  | [] => []
  | (k, v) :: ms => (k, normal v) :: normalMembers ms
end

theorem normalItems_eq (xs : List Json) : normalItems xs = xs.map normal := by
  induction xs with
  | nil => rfl
  | cons x xs ih => rw [normalItems, ih, List.map_cons]

theorem normalMembers_eq (ms : List (String × Json)) :
    normalMembers ms = ms.map fun m => (m.1, normal m.2) := by
  induction ms with
  | nil => rfl
  | cons m ms ih => rw [normalMembers, ih, List.map_cons]

/-- Integers of 64 bits, signed or not. -/
def Number.isWord : Number → Bool
  | .integer i => decide (-9223372036854775808 ≤ i ∧ i < 18446744073709551616)
  | .real _ => false

/-- Whether all numbers in a value are integers of 64 bits and its arrays and objects nest at most
so many levels deep. -/
def isPlainTo : Nat → Json → Bool
  | _, .number n => Number.isWord n
  | 0, .array _ => false
  | 0, .object _ => false
  | depth + 1, .array xs => xs.all (isPlainTo depth)
  | depth + 1, .object ms => ms.all fun m => isPlainTo depth m.2
  | _, _ => true

/-! ### Numbers -/

theorem isNumberByte_of_isDigit {c : Char} (h : c.isDigit = true) :
    isNumberByte (.ofNat c.toNat) = true := by
  have hc : 48 ≤ c.toNat ∧ c.toNat ≤ 57 := Char.isDigit_iff_toNat.mp h
  have hb : (UInt8.ofNat c.toNat).toNat = c.toNat := by rw [UInt8.toNat_ofNat']; omega
  have hd : isDigit (.ofNat c.toNat) = true := by
    simp only [isDigit, Bool.and_eq_true, decide_eq_true_eq, UInt8.le_iff_toNat_le, hb]
    exact hc
  rw [isNumberByte, hd]
  rfl

theorem isNumberByte_layout {digits : List Char} {p : Int}
    (h : ∀ c ∈ digits, c.isDigit = true) :
    ∀ c ∈ Binary64.layout digits p, isNumberByte (.ofNat c.toNat) = true := by
  intro c hc
  have hdigits {c : Char} (hc : c ∈ digits) := isNumberByte_of_isDigit (h c hc)
  have hzero (n : Nat) (hc : c ∈ List.replicate n '0') :
      isNumberByte (.ofNat c.toNat) = true := by
    rw [(List.mem_replicate.mp hc).2]
    decide
  unfold Binary64.layout at hc
  simp only at hc
  split at hc
  · rcases List.mem_append.mp hc with hc | hc
    · rcases List.mem_append.mp hc with hc | hc
      · exact hdigits hc
      · exact hzero _ hc
    · simp only [List.mem_cons, List.not_mem_nil, or_false] at hc
      rcases hc with rfl | rfl <;> rfl
  split at hc
  · rcases List.mem_append.mp hc with hc | hc
    · exact hdigits (List.mem_of_mem_take hc)
    · rcases List.mem_cons.mp hc with rfl | hc
      · decide
      · exact hdigits (List.mem_of_mem_drop hc)
  split at hc
  · rcases List.mem_cons.mp hc with rfl | hc
    · decide
    rcases List.mem_cons.mp hc with rfl | hc
    · decide
    rcases List.mem_append.mp hc with hc | hc
    · exact hzero _ hc
    · exact hdigits hc
  · rcases List.mem_append.mp hc with hc | hc
    · split at hc
      · cases hc
      · exact hdigits hc
      · rcases List.mem_cons.mp hc with rfl | hc
        · exact hdigits (by simp)
        rcases List.mem_cons.mp hc with rfl | hc
        · decide
        · exact hdigits (by simp [hc])
    · rcases List.mem_cons.mp hc with rfl | hc
      · decide
      rcases List.mem_cons.mp hc with rfl | hc
      · split <;> decide
      · exact isNumberByte_of_isDigit (Nat.isDigit_of_mem_toDigits (by decide) (by decide) hc)

theorem layout_ne_nil (digits : List Char) (p : Int) : Binary64.layout digits p ≠ [] := by
  unfold Binary64.layout
  simp only
  split
  · simp
  split
  · simp
  split
  · simp
  · simp

theorem writeNat_bytes (n : Nat) :
    (∀ b ∈ writeNat n, isNumberByte b = true) ∧
      ∃ d ds, writeNat n = d :: ds ∧ isDigit d = true := by
  have hdigit (d : Nat) (hd : d < 10) : isNumberByte (.ofNat (48 + d)) = true := by
    rw [isNumberByte, isDigit_ofNat d hd]
    rfl
  induction n using writeNat.induct with
  | case1 n h =>
    rw [writeNat, if_pos h]
    exact ⟨by simpa using hdigit n h, _, [], rfl, isDigit_ofNat n h⟩
  | case2 n h ih =>
    obtain ⟨hall, d, ds, hw, hd⟩ := ih
    rw [writeNat, if_neg h]
    refine ⟨fun b hb => ?_, d, ds ++ [.ofNat (48 + n % 10)], by rw [hw]; rfl, hd⟩
    rcases List.mem_append.mp hb with hb | hb
    · exact hall b hb
    · rw [List.mem_singleton.mp hb]
      exact hdigit _ (Nat.mod_lt n (by decide))

theorem writeNumber_bytes (n : Number) :
    (∀ b ∈ writeNumber n, isNumberByte b = true) ∧ writeNumber n ≠ [] := by
  cases n with
  | integer i =>
    cases i with
    | ofNat n =>
      obtain ⟨hall, d, ds, hw, -⟩ := writeNat_bytes n
      exact ⟨hall, by simp [writeNumber, writeInt, hw]⟩
    | negSucc n =>
      refine ⟨fun b hb => ?_, by simp [writeNumber, writeInt]⟩
      rcases List.mem_cons.mp hb with rfl | hb
      · decide
      · exact (writeNat_bytes (n + 1)).1 b hb
  | real x =>
    simp only [writeNumber, ascii, Binary64.text]
    have hmagnitude : ∀ m : List Char, (∀ c ∈ m, isNumberByte (.ofNat c.toNat) = true) → m ≠ [] →
        (∀ b ∈ (if x.negative then '-' :: m else m).map fun c => UInt8.ofNat c.toNat,
          isNumberByte b = true) ∧
        ((if x.negative then '-' :: m else m).map fun c => UInt8.ofNat c.toNat) ≠ [] := by
      intro m hm hne
      split
      · exact ⟨by simpa using ⟨by decide, hm⟩, by simp⟩
      · exact ⟨by simpa using hm, by simpa using hne⟩
    refine hmagnitude _ ?_ ?_
    · split
      · intro c hc
        simp only [List.mem_cons, List.not_mem_nil, or_false] at hc
        rcases hc with rfl | rfl | rfl <;> rfl
      · exact isNumberByte_layout fun c hc =>
          Nat.isDigit_of_mem_toDigits (by decide) (by decide) hc
    · split
      · simp
      · exact layout_ne_nil _ _

/-! ### The first byte of a value -/

/-- A byte that opens a value: no blank and no closing bracket. -/
structure Opens (b : UInt8) : Prop where
  space : isSpace b = false
  bracket : b ≠ 0x5d

theorem skipSpace_cons {b : UInt8} (h : isSpace b = false) (r : Bytes) :
    skipSpace (b :: r) = b :: r := by
  simp [skipSpace, h]

theorem isNumberByte_ne {b : UInt8} (h : isNumberByte b = true) :
    Opens b ∧ b ≠ 0x5b ∧ b ≠ 0x7b ∧ b ≠ 0x7d ∧ b ≠ 0x2c ∧ b ≠ 0x22 ∧ b ≠ 0x6e ∧ b ≠ 0x74 ∧
      b ≠ 0x66 := by
  have hne (a : UInt8) (ha : isNumberByte a = false) : b ≠ a := by
    rintro rfl
    rw [h] at ha
    cases ha
  refine ⟨⟨?_, hne _ rfl⟩, hne _ rfl, hne _ rfl, hne _ rfl, hne _ rfl, hne _ rfl, hne _ rfl,
    hne _ rfl, hne _ rfl⟩
  simp only [isSpace, Bool.or_eq_false_iff, beq_eq_false_iff_ne]
  exact ⟨⟨⟨hne _ rfl, hne _ rfl⟩, hne _ rfl⟩, hne _ rfl⟩

theorem write_head (j : Json) : ∃ b r, write j = b :: r ∧ Opens b := by
  cases j with
  | null => exact ⟨_, _, rfl, rfl, by decide⟩
  | bool b => cases b <;> exact ⟨_, _, rfl, rfl, by decide⟩
  | text s => exact ⟨_, _, rfl, rfl, by decide⟩
  | number n =>
    obtain ⟨hall, hne⟩ := writeNumber_bytes n
    obtain ⟨b, r, hw⟩ := List.exists_cons_of_ne_nil hne
    exact ⟨b, r, hw, (isNumberByte_ne (hall b (by simp [hw]))).1⟩
  | array xs => cases xs <;> exact ⟨_, _, rfl, rfl, by decide⟩
  | object ms =>
    cases ms with
    | nil => exact ⟨_, _, rfl, rfl, by decide⟩
    | cons m ms => exact ⟨_, _, rfl, rfl, by decide⟩

/-- The first byte of a value that is neither array nor object decides how it is read. -/
theorem readValue_scalar {b : UInt8} (hb : Opens b) (harray : b ≠ 0x5b) (hobject : b ≠ 0x7b)
    (depth : Nat) (r : Bytes) : readValue depth (b :: r) = readScalar b r := by
  cases depth with
  | zero =>
    simp only [readValue, skipSpace_cons hb.space]
    rw [if_neg (by simp [harray, hobject])]
  | succ depth =>
    simp only [readValue, skipSpace_cons hb.space]
    rw [if_neg harray, if_neg hobject]

theorem readScalar_number {b : UInt8} (h : isNumberByte b = true) (r : Bytes) :
    readScalar b r =
      if b = 0x2d then Read.map Json.number (readNumber true r)
      else if isDigit b then Read.map Json.number (readNumber false (b :: r))
      else failOn .expectedValue (b :: r) := by
  obtain ⟨-, -, -, -, -, hquote, hn, ht, hf⟩ := isNumberByte_ne h
  simp only [readScalar, if_neg hquote, if_neg hn, if_neg ht, if_neg hf]

theorem readValue_writeInt {i : Int} (h : Number.isWord (.integer i) = true) (depth : Nat)
    {rest : Bytes} (hrest : Stops rest) :
    readValue depth (writeInt i ++ rest) = .ok (.number (.integer i), rest) := by
  simp only [Number.isWord, decide_eq_true_eq] at h
  cases i with
  | ofNat n =>
    have hn : n < significandBound := by
      have : (n : Int) < 18446744073709551616 := h.2
      have : n < 18446744073709551616 := by omega
      exact this
    obtain ⟨hall, d, ds, hw, hd⟩ := writeNat_bytes n
    have hnumber : isNumberByte d = true := hall d (by simp [hw])
    have hne := isNumberByte_ne hnumber
    have hminus : d ≠ 0x2d := by
      intro h
      subst h
      cases hd
    have hread := readNumber_writeNat hn false hrest
    rw [hw, List.cons_append] at hread
    rw [writeInt, hw, List.cons_append, readValue_scalar hne.1 hne.2.1 hne.2.2.1,
      readScalar_number hnumber, if_neg hminus, if_pos hd, hread, hrest.afterInteger]
    rfl
  | negSucc n =>
    have hn : n + 1 ≤ 9223372036854775808 := by
      have := h.1
      omega
    have hread := readNumber_writeNat (n := n + 1) (Nat.lt_of_le_of_lt hn (by decide)) true hrest
    rw [writeInt, List.cons_append, readValue_scalar ⟨rfl, by decide⟩ (by decide) (by decide),
      readScalar_number rfl, if_pos rfl, hread, hrest.afterInteger,
      if_neg (by decide : ¬ (!true) = true), if_pos ⟨Nat.succ_pos n, hn⟩]
    rfl

/-- A number that is read ends with the written number or inside it. -/
theorem readValue_number {n : Number} {depth : Nat} {rest rest' : Bytes} {v : Json}
    (hrest : Stops rest) (h : readValue depth (writeNumber n ++ rest) = .ok (v, rest')) :
    ∃ w, rest' = w ++ rest ∧ ∀ b ∈ w, isNumberByte b = true := by
  obtain ⟨hall, hnil⟩ := writeNumber_bytes n
  obtain ⟨b, r, hw⟩ := List.exists_cons_of_ne_nil hnil
  rw [hw] at hall h
  have hnumber := hall b (by simp)
  have hne := isNumberByte_ne hnumber
  rw [List.cons_append, readValue_scalar hne.1 hne.2.1 hne.2.2.1, readScalar_number hnumber] at h
  -- whatever number is read, only bytes of numbers are gone
  have htook : Took (b :: r ++ rest) rest' := by
    split at h
    · cases hread : readNumber true (r ++ rest) with
      | error e => rw [hread] at h; cases h
      | ok p =>
        rw [hread] at h
        cases h
        exact (readNumber_took hread).cons hnumber
    · split at h
      · cases hread : readNumber false (b :: (r ++ rest)) with
        | error e => rw [hread] at h; cases h
        | ok p =>
          rw [hread] at h
          cases h
          exact readNumber_took hread
      · cases h
  exact htook.suffix hrest hall

/-! ### Items -/

theorem stops_writeItems (xs : List Json) (rest : Bytes) : Stops (writeItems xs ++ rest) := by
  cases xs with
  | nil => exact .inr (.inl rfl)
  | cons x xs => exact .inl rfl

theorem length_writeItems (xs : List Json) : xs.length < (writeItems xs).length := by
  induction xs with
  | nil => exact Nat.zero_lt_one
  | cons x xs ih =>
    rw [writeItems, List.length_append, List.length_cons, List.length_cons]
    omega

/-- Where a reader of written values ends when it succeeds: behind the value, or inside a number
in it. -/
def EndsBehind {α : Type} (value : Bytes → Read α) : Prop :=
  ∀ ⦃j rest v rest'⦄, Stops rest → value (write j ++ rest) = .ok (v, rest') →
    ∃ w, rest' = w ++ rest ∧ ∀ b ∈ w, isNumberByte b = true

section Items

variable {α : Type} (item : Bytes → Read α)

theorem readItems_nil (y : UInt8) (bound rest : Bytes) (acc : List α) :
    readItems item (y :: bound) (writeItems [] ++ rest) acc = .ok (acc.reverse, rest) := by
  simp [writeItems, readItems, skipSpace, isSpace]

theorem readItems_cons (y : UInt8) (bound : Bytes) (x : Json) (xs : List Json) (rest : Bytes)
    (acc : List α) :
    readItems item (y :: bound) (writeItems (x :: xs) ++ rest) acc =
      match item (write x ++ (writeItems xs ++ rest)) with
      | .error e => .error e
      | .ok (v, r) => readItems item bound r (v :: acc) := by
  obtain ⟨b, r, hw, hb⟩ := write_head x
  simp only [writeItems, List.cons_append, List.append_assoc, readItems]
  rw [skipSpace_cons (by rfl)]
  simp only [hw, List.cons_append, skipSpace_cons hb.space]
  rw [if_neg (by decide), if_pos trivial]
  exact if_neg hb.bracket

theorem readArray_cons (x : Json) (xs : List Json) (rest : Bytes) :
    readArray item (write x ++ (writeItems xs ++ rest)) =
      match item (write x ++ (writeItems xs ++ rest)) with
      | .error e => .error e
      | .ok (v, r) => readItems item r r [v] := by
  obtain ⟨b, r, hw, hb⟩ := write_head x
  simp only [hw, List.cons_append, readArray, skipSpace_cons hb.space]
  exact if_neg hb.bracket

theorem readItems_number {b : UInt8} (h : isNumberByte b = true) (bound r : Bytes) (acc : List α)
    (out : List α × Bytes) : readItems item bound (b :: r) acc ≠ .ok out := by
  obtain ⟨hb, -, -, -, hcomma, -⟩ := isNumberByte_ne h
  cases bound with
  | nil => intro h; cases h
  | cons y bound =>
    simp only [readItems, skipSpace_cons hb.space]
    rw [if_neg hb.bracket, if_neg hcomma]
    intro h
    cases h

variable {item}

theorem readItems_write {f : Json → α} {xs : List Json}
    (h : ∀ x ∈ xs, ∀ rest, Stops rest → item (write x ++ rest) = .ok (f x, rest))
    {bound : Bytes} (hbound : xs.length < bound.length) (rest : Bytes) (acc : List α) :
    readItems item bound (writeItems xs ++ rest) acc = .ok (acc.reverse ++ xs.map f, rest) := by
  induction xs generalizing bound acc with
  | nil =>
    obtain ⟨y, bound, rfl⟩ := List.exists_cons_of_length_pos hbound
    rw [readItems_nil, List.map_nil, List.append_nil]
  | cons x xs ih =>
    obtain ⟨y, bound, rfl⟩ := List.exists_cons_of_length_pos (Nat.zero_lt_of_lt hbound)
    simp only [List.length_cons] at hbound
    rw [readItems_cons, h x (by simp) _ (stops_writeItems xs rest)]
    simp only
    rw [ih (fun x hx => h x (by simp [hx])) (by omega)]
    simp

/-- Items that are read end with the last one of them. -/
theorem readItems_rest (h : EndsBehind item) {xs : List Json} {bound rest : Bytes} {acc : List α}
    {out : List α × Bytes}
    (hread : readItems item bound (writeItems xs ++ rest) acc = .ok out) : out.2 = rest := by
  induction xs generalizing bound acc with
  | nil =>
    cases bound with
    | nil => cases hread
    | cons y bound => rw [readItems_nil] at hread; cases hread; rfl
  | cons x xs ih =>
    cases bound with
    | nil => cases hread
    | cons y bound =>
      rw [readItems_cons] at hread
      split at hread
      · cases hread
      · next v r hitem =>
        obtain ⟨w, rfl, hw⟩ := h (stops_writeItems xs rest) hitem
        cases w with
        | nil => exact ih hread
        | cons b w => exact absurd hread (readItems_number item (hw b (by simp)) _ _ _ _)

theorem readArray_rest (h : EndsBehind item) {x : Json} {xs : List Json} {rest : Bytes}
    {out : List α × Bytes}
    (hread : readArray item (write x ++ (writeItems xs ++ rest)) = .ok out) : out.2 = rest := by
  rw [readArray_cons] at hread
  split at hread
  · cases hread
  · next v r hitem =>
    obtain ⟨w, rfl, hw⟩ := h (stops_writeItems xs rest) hitem
    cases w with
    | nil => exact readItems_rest h hread
    | cons b w => exact absurd hread (readItems_number item (hw b (by simp)) _ _ _ _)

end Items

/-! ### Members -/

theorem stops_writeMembers (ms : List (String × Json)) (rest : Bytes) :
    Stops (writeMembers ms ++ rest) := by
  cases ms with
  | nil => exact .inr (.inr rfl)
  | cons m ms => exact .inl rfl

theorem length_writeMembers (ms : List (String × Json)) :
    ms.length < (writeMembers ms).length := by
  induction ms with
  | nil => exact Nat.zero_lt_one
  | cons m ms ih =>
    simp only [writeMembers, List.length_append, List.length_cons]
    omega

/-- The members with others set one after another. -/
def insertAll {α : Type} (acc ms : List (String × α)) : List (String × α) :=
  ms.foldl (fun acc m => insertMember m.1 m.2 acc) acc

section Members

variable {α : Type} (value : Bytes → Read α)

/-- A key is read off its written form; what follows the colon is left to the reader of values. -/
theorem readMember_write (k : String) (rest : Bytes) :
    readMember value (k.toList.flatMap writeChar ++ 0x22 :: 0x3a :: rest) =
      match value rest with
      | .error e => .error e
      | .ok (v, r) => .ok ((k, v), r) := by
  rw [readMember, readText_flatMap]
  simp only [readColon, skipSpace_cons (by rfl : isSpace 0x3a = false)]
  rfl

theorem readMembers_nil (y : UInt8) (bound rest : Bytes) (acc : List (String × α)) :
    readMembers value (y :: bound) (writeMembers [] ++ rest) acc = .ok (acc, rest) := by
  simp [writeMembers, readMembers, skipSpace, isSpace]

theorem readMembers_cons (y : UInt8) (bound : Bytes) (m : String × Json)
    (ms : List (String × Json)) (rest : Bytes) (acc : List (String × α)) :
    readMembers value (y :: bound) (writeMembers (m :: ms) ++ rest) acc =
      match value (write m.2 ++ (writeMembers ms ++ rest)) with
      | .error e => .error e
      | .ok (v, r) => readMembers value bound r (insertMember m.1 v acc) := by
  obtain ⟨k, j⟩ := m
  have hbytes : writeMembers ((k, j) :: ms) ++ rest = 0x2c :: 0x22 ::
      (k.toList.flatMap writeChar ++ 0x22 :: 0x3a :: (write j ++ (writeMembers ms ++ rest))) := by
    simp [writeMembers, writeText]
  rw [hbytes, readMembers]
  simp only [skipSpace_cons (by rfl : isSpace 0x2c = false),
    skipSpace_cons (by rfl : isSpace 0x22 = false), readMember_write]
  rw [if_neg (by decide), if_pos trivial, if_pos trivial]
  cases value (write j ++ (writeMembers ms ++ rest)) <;> rfl

theorem readObject_cons (m : String × Json) (ms : List (String × Json)) (rest : Bytes) :
    readObject value (writeText m.1 ++ 0x3a :: (write m.2 ++ (writeMembers ms ++ rest))) =
      match value (write m.2 ++ (writeMembers ms ++ rest)) with
      | .error e => .error e
      | .ok (v, r) => readMembers value r r [(m.1, v)] := by
  rw [writeText_append, readObject]
  simp only [skipSpace_cons (by rfl : isSpace 0x22 = false), readMember_write]
  rw [if_neg (by decide), if_pos trivial]
  cases value (write m.2 ++ (writeMembers ms ++ rest)) <;> rfl

theorem readMembers_number {b : UInt8} (h : isNumberByte b = true) (bound r : Bytes)
    (acc : List (String × α)) (out : List (String × α) × Bytes) :
    readMembers value bound (b :: r) acc ≠ .ok out := by
  obtain ⟨hb, -, -, hbrace, hcomma, -⟩ := isNumberByte_ne h
  cases bound with
  | nil => intro h; cases h
  | cons y bound =>
    simp only [readMembers, skipSpace_cons hb.space]
    rw [if_neg hbrace, if_neg hcomma]
    intro h
    cases h

variable {value}

theorem readMembers_write {f : Json → α} {ms : List (String × Json)}
    (h : ∀ m ∈ ms, ∀ rest, Stops rest → value (write m.2 ++ rest) = .ok (f m.2, rest))
    {bound : Bytes} (hbound : ms.length < bound.length) (rest : Bytes)
    (acc : List (String × α)) :
    readMembers value bound (writeMembers ms ++ rest) acc =
      .ok (insertAll acc (ms.map fun m => (m.1, f m.2)), rest) := by
  induction ms generalizing bound acc with
  | nil =>
    obtain ⟨y, bound, rfl⟩ := List.exists_cons_of_length_pos hbound
    rw [readMembers_nil]
    rfl
  | cons m ms ih =>
    obtain ⟨y, bound, rfl⟩ := List.exists_cons_of_length_pos (Nat.zero_lt_of_lt hbound)
    simp only [List.length_cons] at hbound
    rw [readMembers_cons, h m (by simp) _ (stops_writeMembers ms rest)]
    simp only
    rw [ih (fun m hm => h m (by simp [hm])) (by omega)]
    rfl

/-- A member as it is read: its key, and a value that is read off the written one. -/
def ReadsAs (value : Bytes → Read α) (m : String × Json) (m' : String × α) : Prop :=
  m'.1 = m.1 ∧ ∃ rest, Stops rest ∧ value (write m.2 ++ rest) = .ok (m'.2, rest)

/-- Members that are read end with the last one of them, and are the written ones. -/
theorem readMembers_rest (h : EndsBehind value) {ms : List (String × Json)}
    {bound rest : Bytes} {acc : List (String × α)} {out : List (String × α) × Bytes}
    (hread : readMembers value bound (writeMembers ms ++ rest) acc = .ok out) :
    out.2 = rest ∧ ∃ ms', List.Forall₂ (ReadsAs value) ms ms' ∧ out.1 = insertAll acc ms' := by
  induction ms generalizing bound acc with
  | nil =>
    cases bound with
    | nil => cases hread
    | cons y bound =>
      rw [readMembers_nil] at hread
      cases hread
      exact ⟨rfl, [], .nil, rfl⟩
  | cons m ms ih =>
    cases bound with
    | nil => cases hread
    | cons y bound =>
      rw [readMembers_cons] at hread
      split at hread
      · cases hread
      · next v r hvalue =>
        have hstops := stops_writeMembers ms rest
        obtain ⟨w, rfl, hw⟩ := h hstops hvalue
        cases w with
        | cons b w => exact absurd hread (readMembers_number value (hw b (by simp)) _ _ _ _)
        | nil =>
          obtain ⟨hrest, ms', hms, hout⟩ := ih hread
          exact ⟨hrest, (m.1, v) :: ms', .cons ⟨rfl, _, hstops, hvalue⟩ hms, hout⟩

theorem readObject_rest (h : EndsBehind value) {m : String × Json} {ms : List (String × Json)}
    {rest : Bytes} {out : List (String × α) × Bytes}
    (hread : readObject value (writeText m.1 ++ 0x3a :: (write m.2 ++ (writeMembers ms ++ rest))) =
      .ok out) :
    out.2 = rest ∧ ∃ ms', List.Forall₂ (ReadsAs value) (m :: ms) ms' ∧
      out.1 = insertAll [] ms' := by
  rw [readObject_cons] at hread
  split at hread
  · cases hread
  · next v r hvalue =>
    have hstops := stops_writeMembers ms rest
    obtain ⟨w, rfl, hw⟩ := h hstops hvalue
    cases w with
    | cons b w => exact absurd hread (readMembers_number value (hw b (by simp)) _ _ _ _)
    | nil =>
      obtain ⟨hrest, ms', hms, hout⟩ := readMembers_rest h hread
      exact ⟨hrest, (m.1, v) :: ms', .cons ⟨rfl, _, hstops, hvalue⟩ hms, hout⟩

end Members

/-! ### Values -/

theorem write_array_cons (x : Json) (xs : List Json) (rest : Bytes) :
    write (.array (x :: xs)) ++ rest = 0x5b :: (write x ++ (writeItems xs ++ rest)) := by
  simp [write]

theorem write_object_cons (m : String × Json) (ms : List (String × Json)) (rest : Bytes) :
    write (.object (m :: ms)) ++ rest =
      0x7b :: (writeText m.1 ++ 0x3a :: (write m.2 ++ (writeMembers ms ++ rest))) := by
  obtain ⟨k, j⟩ := m
  simp [write]

theorem readValue_bracket (depth : Nat) (r : Bytes) :
    readValue (depth + 1) (0x5b :: r) = Read.map Json.array (readArray (readValue depth) r) := by
  simp only [readValue, skipSpace_cons (by rfl : isSpace 0x5b = false)]
  rfl

theorem readValue_brace (depth : Nat) (r : Bytes) :
    readValue (depth + 1) (0x7b :: r) = Read.map Json.object (readObject (readValue depth) r) := by
  simp only [readValue, skipSpace_cons (by rfl : isSpace 0x7b = false)]
  rfl

/-- Fixed words and texts. -/
def isFixed : Json → Bool
  | .null | .bool _ | .text _ => true
  | _ => false

/-- A fixed word or a text is read back whatever the depth and whatever follows. -/
theorem readValue_fixed {j : Json} (h : isFixed j = true) (depth : Nat) (rest : Bytes) :
    readValue depth (write j ++ rest) = .ok (j, rest) := by
  cases j with
  | null =>
    rw [show write .null = 0x6e :: [0x75, 0x6c, 0x6c] by rfl, List.cons_append,
      readValue_scalar ⟨rfl, by decide⟩ (by decide) (by decide)]
    rfl
  | bool b =>
    cases b with
    | true =>
      rw [show write (.bool true) = 0x74 :: [0x72, 0x75, 0x65] by rfl, List.cons_append,
        readValue_scalar ⟨rfl, by decide⟩ (by decide) (by decide)]
      rfl
    | false =>
      rw [show write (.bool false) = 0x66 :: [0x61, 0x6c, 0x73, 0x65] by rfl, List.cons_append,
        readValue_scalar ⟨rfl, by decide⟩ (by decide) (by decide)]
      rfl
  | text s =>
    rw [write, writeText_append, readValue_scalar ⟨rfl, by decide⟩ (by decide) (by decide)]
    simp only [readScalar, readText_flatMap]
    rfl
  | number n => cases h
  | array xs => cases h
  | object ms => cases h

/-- A value of integers that nests no deeper than is allowed is read back in its normal form. -/
theorem readValue_write {depth : Nat} {j : Json} (h : isPlainTo depth j = true) {rest : Bytes}
    (hrest : Stops rest) : readValue depth (write j ++ rest) = .ok (normal j, rest) := by
  induction depth generalizing j rest with
  | zero =>
    cases j with
    | null => exact readValue_fixed rfl _ _
    | bool b => exact readValue_fixed rfl _ _
    | text s => exact readValue_fixed rfl _ _
    | number n =>
      cases n with
      | integer i => exact readValue_writeInt h _ hrest
      | real x => cases h
    | array xs => cases h
    | object ms => cases h
  | succ depth ih =>
    cases j with
    | null => exact readValue_fixed rfl _ _
    | bool b => exact readValue_fixed rfl _ _
    | text s => exact readValue_fixed rfl _ _
    | number n =>
      cases n with
      | integer i => exact readValue_writeInt h _ hrest
      | real x => cases h
    | array xs =>
      have hall : ∀ x ∈ xs, isPlainTo depth x = true := List.all_eq_true.mp h
      cases xs with
      | nil =>
        rw [show write (.array []) = [0x5b, 0x5d] by rfl]
        exact readValue_bracket depth _
      | cons x xs =>
        rw [write_array_cons, readValue_bracket, readArray_cons,
          ih (hall x (by simp)) (stops_writeItems xs rest)]
        simp only
        rw [readItems_write (f := normal) (fun y hy rest => ih (hall y (by simp [hy])))]
        · simp [Read.map, normal, normalItems, normalItems_eq]
        · have := length_writeItems xs
          rw [List.length_append]
          omega
    | object ms =>
      have hall : ∀ m ∈ ms, isPlainTo depth m.2 = true := List.all_eq_true.mp h
      cases ms with
      | nil =>
        rw [show write (.object []) = [0x7b, 0x7d] by rfl]
        exact readValue_brace depth _
      | cons m ms =>
        rw [write_object_cons, readValue_brace, readObject_cons,
          ih (hall m (by simp)) (stops_writeMembers ms rest)]
        simp only
        rw [readMembers_write (f := normal) (fun m hm rest => ih (hall m (by simp [hm])))]
        · simp [Read.map, normal, normalMembers, normalMembers_eq, ofMembers, insertAll,
            insertMember]
        · have := length_writeMembers ms
          rw [List.length_append]
          omega

/-- A value that is read ends where it was written to, or inside a number. -/
theorem readValue_rest (depth : Nat) : EndsBehind (readValue depth) := by
  intro j rest v rest' hrest h
  have hfixed {j : Json} (hj : isFixed j = true) {depth : Nat} {v : Json} {rest rest' : Bytes}
      (h : readValue depth (write j ++ rest) = .ok (v, rest')) :
      ∃ w, rest' = w ++ rest ∧ ∀ b ∈ w, isNumberByte b = true := by
    rw [readValue_fixed hj] at h
    cases h
    exact ⟨[], rfl, by simp⟩
  induction depth generalizing j v rest rest' with
  | zero =>
    cases j with
    | null => exact hfixed rfl h
    | bool b => exact hfixed rfl h
    | text s => exact hfixed rfl h
    | number n => exact readValue_number hrest h
    | array xs => cases xs <;> cases h
    | object ms =>
      cases ms with
      | nil => cases h
      | cons m ms => cases h
  | succ depth ih =>
    cases j with
    | null => exact hfixed rfl h
    | bool b => exact hfixed rfl h
    | text s => exact hfixed rfl h
    | number n => exact readValue_number hrest h
    | array xs =>
      cases xs with
      | nil =>
        rw [show write (.array []) = [0x5b, 0x5d] by rfl] at h
        cases h
        exact ⟨[], rfl, by simp⟩
      | cons x xs =>
        rw [write_array_cons, readValue_bracket] at h
        cases hread : readArray (readValue depth) (write x ++ (writeItems xs ++ rest)) with
        | error e => rw [hread] at h; cases h
        | ok out =>
          rw [hread] at h
          cases h
          exact ⟨[], readArray_rest ih hread, by simp⟩
    | object ms =>
      cases ms with
      | nil =>
        rw [show write (.object []) = [0x7b, 0x7d] by rfl] at h
        cases h
        exact ⟨[], rfl, by simp⟩
      | cons m ms =>
        rw [write_object_cons, readValue_brace] at h
        cases hread : readObject (readValue depth)
          (writeText m.1 ++ 0x3a :: (write m.2 ++ (writeMembers ms ++ rest))) with
        | error e => rw [hread] at h; cases h
        | ok out =>
          rw [hread] at h
          cases h
          exact ⟨[], (readObject_rest ih hread).1, by simp⟩

end ObjectTiers.Json
