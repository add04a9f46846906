/-
What records hold. A byte string stands at a place of a record (`StandsAt`); a field holds the
bytes or the text that it names there, or has in it (`HoldsBytes`, `HoldsText`), and a reader finds
exactly what the field holds (`bytesAt?_eq_some_iff`, `textAt?_eq_some_iff`). What is held lies
within bounds that go on by its length (`HoldsText.room`), and other bytes do not matter to it
(`HoldsText.set`). The fields that are written hold what they were written for
(`HoldsText.of_textField`), in a root that stands at the first aligned place behind the content
(`rootOf_le`).
-/
import ObjectTiers.Record.Layout
import ObjectTiers.Proofs.Text

namespace ObjectTiers

/-! ### Numbers -/

namespace Bytes

theorem littleBytes_littleNat (b : Bytes) : littleBytes b.length (littleNat b) = b := by
  induction b with
  | nil => rfl
  | cons a r ih =>
    have hlt := a.toNat_lt
    have hdiv : (a.toNat + 256 * littleNat r) / 256 = littleNat r := by omega
    have hmod : UInt8.ofNat (a.toNat + 256 * littleNat r) = a := by
      apply UInt8.toNat_inj.mp
      rw [UInt8.toNat_ofNat']
      omega
    rw [List.length_cons, littleNat, littleBytes, hdiv, hmod, ih]

theorem littleNat_lt (b : Bytes) : littleNat b < Nat.pow 256 b.length := by
  induction b with
  | nil => decide
  | cons a r ih =>
    have hlt := a.toNat_lt
    rw [Nat.pow_eq] at ih ⊢
    rw [List.length_cons, Nat.pow_succ, littleNat]
    omega

theorem signedOf_littleSigned {i : Int} (hlow : -2147483648 ≤ i) (hhigh : i < 2147483648) :
    signedOf (littleNat (littleSigned i)) = i := by
  have hlt : (Int32.ofInt i).toUInt32.toNat < Nat.pow 256 4 := (Int32.ofInt i).toUInt32.toNat_lt
  unfold signedOf littleSigned
  rw [littleNat_littleBytes hlt, UInt32.ofNat_toNat, Int32.toInt32_toUInt32]
  exact Int32.toInt_ofInt_of_le hlow hhigh

theorem littleSigned_signedOf {n : Nat} (h : n < 4294967296) :
    littleSigned (signedOf n) = littleBytes 4 n := by
  unfold littleSigned signedOf
  rw [Int32.ofInt_toInt, UInt32.toUInt32_toInt32, UInt32.toNat_ofNat_of_lt' h]

end Bytes

namespace Layout

@[simp] theorem length_distance (here target : Nat) : (distance here target).length = 4 :=
  Bytes.length_littleBytes _ _

@[simp] theorem length_bytesField (here target n : Nat) :
    (bytesField here target n).length = 8 := by
  simp [bytesField, Bytes.length_littleBytes]

@[simp] theorem length_textField (here target : Nat) (text : Bytes) :
    (textField here target text).length = 8 := by
  unfold textField inlineSize
  split
  · rw [List.length_append, List.length_replicate]
    omega
  · simp [Bytes.length_littleBytes]

/-! ### Places -/

/-- The bytes `f` stand at a place of `b`. -/
def StandsAt (b : Bytes) (place : Nat) (f : Bytes) : Prop :=
  ∃ before after, b = before ++ (f ++ after) ∧ before.length = place

theorem length_slice {b : Bytes} {start n : Nat} (h : start + n ≤ b.length) :
    (slice b start n).length = n := by
  rw [slice, List.length_take, List.length_drop]
  omega

namespace StandsAt

variable {b f g : Bytes} {i j : Nat}

theorem self (b : Bytes) : StandsAt b 0 b := ⟨[], [], by simp, rfl⟩

theorem left (h : StandsAt b i (f ++ g)) : StandsAt b i f := by
  obtain ⟨p, q, hb, hp⟩ := h
  exact ⟨p, g ++ q, by rw [hb, List.append_assoc], hp⟩

theorem right (h : StandsAt b i (f ++ g)) (hj : i + f.length = j) : StandsAt b j g := by
  obtain ⟨p, q, hb, hp⟩ := h
  exact ⟨p ++ f, q, by rw [hb]; simp only [List.append_assoc], by rw [List.length_append, hp, hj]⟩

theorem append (hf : StandsAt b i f) (hg : StandsAt b (i + f.length) g) :
    StandsAt b i (f ++ g) := by
  obtain ⟨p, q, rfl, rfl⟩ := hf
  obtain ⟨p', q', hb, hp⟩ := hg
  rw [← List.append_assoc] at hb
  obtain ⟨-, rfl⟩ := List.append_inj hb (by rw [List.length_append, hp])
  exact ⟨p, q', by rw [List.append_assoc], rfl⟩

/-- Changing a byte elsewhere leaves what stands at a place. -/
theorem set (h : StandsAt b i f) (a : UInt8) (hj : j < i ∨ i + f.length ≤ j) :
    StandsAt (b.set j a) i f := by
  obtain ⟨p, q, rfl, rfl⟩ := h
  rcases hj with hj | hj
  · exact ⟨p.set j a, q, List.set_append_left _ _ hj, List.length_set⟩
  · refine ⟨p, q.set (j - p.length - f.length) a, ?_, rfl⟩
    rw [List.set_append_right _ _ (by omega), List.set_append_right _ _ (by omega)]

theorem slice (h : StandsAt b i f) : Layout.slice b i f.length = f := by
  obtain ⟨p, q, rfl, rfl⟩ := h
  simp [Layout.slice]

theorem of_slice {n : Nat} (h : i + n ≤ b.length) : StandsAt b i (Layout.slice b i n) := by
  refine ⟨b.take i, b.drop (i + n), ?_, List.length_take_of_le (by omega)⟩
  rw [Layout.slice, ← List.drop_drop, List.take_append_drop, List.take_append_drop]

theorem natAt {width n : Nat} (h : StandsAt b i (Bytes.littleBytes width n))
    (hn : n < Nat.pow 256 width) : natAt b i width = n := by
  have hs := h.slice
  rw [Bytes.length_littleBytes] at hs
  rw [Layout.natAt, hs, Bytes.littleNat_littleBytes hn]

theorem pointed? {low high here : Nat} {offset : Int} (h : StandsAt b i f)
    (hoff : offset = (i : Int) - here) (hlow : low ≤ i) (hhigh : i + f.length ≤ high) :
    pointed? b low high here offset f.length = some (f, i + f.length) := by
  have hstart : (here : Int) + offset = i := by omega
  unfold Layout.pointed?
  simp only [hstart, Int.toNat_natCast]
  rw [if_pos ⟨by omega, by omega⟩, h.slice]

theorem signedOf {here target : Nat} (h : StandsAt b i (distance here target)) (hle : target ≤ here)
    (hhere : here < sizeLimit) : Bytes.signedOf (Layout.natAt b i 4) = (target : Int) - here := by
  have hs := h.slice
  rw [length_distance] at hs
  simp only [sizeLimit] at hhere
  rw [Layout.natAt, hs]
  exact Bytes.signedOf_littleSigned (by omega) (by omega)

end StandsAt

theorem natAt_lt {b : Bytes} {i width : Nat} (hi : i + width ≤ b.length) :
    natAt b i width < Nat.pow 256 width := by
  have := Bytes.littleNat_lt (slice b i width)
  rwa [length_slice hi] at this

theorem natAt_eq_iff {b : Bytes} {i width n : Nat} (hi : i + width ≤ b.length)
    (hn : n < Nat.pow 256 width) :
    natAt b i width = n ↔ StandsAt b i (Bytes.littleBytes width n) := by
  refine ⟨fun h => ?_, fun h => h.natAt hn⟩
  have hdigits := Bytes.littleBytes_littleNat (slice b i width)
  rw [length_slice hi, ← natAt, h] at hdigits
  rw [hdigits]
  exact .of_slice hi

theorem natAt_mark_iff {b : Bytes} {i n : Nat} (hi : i + 1 ≤ b.length) (hn : n < 256) :
    natAt b i 1 = n ↔ StandsAt b i [UInt8.ofNat n] :=
  natAt_eq_iff hi hn

theorem signedOf_eq_iff {b : Bytes} {i here target : Nat} (hi : i + 4 ≤ b.length)
    (hle : target ≤ here) (hhere : here < sizeLimit) :
    Bytes.signedOf (natAt b i 4) = (target : Int) - here ↔ StandsAt b i (distance here target) := by
  refine ⟨fun h => ?_, fun h => h.signedOf hle hhere⟩
  have hnum := natAt_lt hi
  rw [distance, ← h, Bytes.littleSigned_signedOf hnum]
  exact (natAt_eq_iff hi hnum).mp rfl

/-! ### Byte strings -/

/-- The bytes `f` stand at a place, within bounds. -/
structure LiesAt (b : Bytes) (low high : Nat) (f : Bytes) (start : Nat) : Prop where
  standsAt : StandsAt b start f
  low_le : low ≤ start
  le_high : start + f.length ≤ high

theorem pointed?_eq_some_iff {b : Bytes} {low high here n next : Nat} {offset : Int} {f : Bytes}
    (hb : high ≤ b.length) : pointed? b low high here offset n = some (f, next) ↔
      ∃ start : Nat, offset = (start : Int) - here ∧ f.length = n ∧ next = start + n ∧
        LiesAt b low high f start := by
  constructor
  · intro h
    simp only [pointed?] at h
    split at h
    · next hin =>
      obtain ⟨start, hstart⟩ : ∃ start : Nat, (here : Int) + offset = start :=
        Int.eq_ofNat_of_zero_le (by omega)
      rw [hstart] at h hin
      rw [Int.toNat_natCast] at h
      cases h
      exact ⟨start, by omega, length_slice (by omega), rfl, .of_slice (by omega), by omega,
        by rw [length_slice (by omega)]; omega⟩
    · cases h
  · rintro ⟨start, rfl, rfl, rfl, hf, hlow, hhigh⟩
    exact hf.pointed? rfl hlow hhigh

/-- The field at `here` names the length of a byte string and the distance to it, and the byte
string lies within bounds. What follows it is bounded by its end. -/
inductive HoldsBytes (b : Bytes) (low high here : Nat) (f : Bytes) : Nat → Prop
  | intro {start : Nat} (hfield : StandsAt b here (bytesField here start f.length))
    (h : LiesAt b low high f start) : HoldsBytes b low high here f (start + f.length)

/-- A byte string is read from the fields that hold it, and from no others. -/
theorem bytesAt?_eq_some_iff {b : Bytes} {low high here next : Nat} {f : Bytes}
    (hhigh : high ≤ here) (hhere : here + 8 ≤ b.length) (hsize : here < sizeLimit) :
    bytesAt? b low high here = some (f, next) ↔ HoldsBytes b low high here f next := by
  unfold bytesAt?
  constructor
  · intro h
    obtain ⟨start, hoff, hlen, rfl, hlies⟩ := (pointed?_eq_some_iff (by omega)).mp h
    have hle : start ≤ here := by
      have := hlies.le_high
      omega
    have hdistance := (signedOf_eq_iff (by omega) hle hsize).mp hoff
    have hlength := (natAt_eq_iff (by omega) (hlen ▸ natAt_lt (by omega))).mp hlen.symm
    rw [← hlen]
    exact .intro (hdistance.append (by rwa [length_distance])) hlies
  · rintro ⟨hfield, hlies⟩
    have hend := hlies.le_high
    have hlimit : f.length < sizeLimit := by omega
    have hlength := (hfield.right (j := here + 4) (by rw [length_distance])).natAt
      (Nat.lt_trans hlimit (by decide))
    rw [hlength, hfield.left.signedOf (by omega) hsize]
    exact hlies.standsAt.pointed? rfl hlies.low_le hend

theorem HoldsBytes.room {b f : Bytes} {low high here next : Nat}
    (h : HoldsBytes b low high here f next) : low + f.length ≤ next ∧ next ≤ high := by
  obtain ⟨-, h⟩ := h
  exact ⟨Nat.add_le_add_right h.low_le _, h.le_high⟩

/-! ### Texts -/

/-- A text within the limit, where a reader finds it: a short one in the field at `here` itself,
closed by `0xff` if it does not fill it; a long one within bounds, at the distance the field names.
What follows is bounded by the end of it. -/
inductive HoldsText (b : Bytes) (low high here : Nat) (s : String) : Nat → Prop
  | short {spare : Bytes} (hfield : StandsAt b here (Bytes.ofText s ++ spare))
    (hsize : (Bytes.ofText s ++ spare).length = inlineSize)
    (hclosed : ∀ a ∈ spare.head?, a = 0xff) : HoldsText b low high here s low
  | long {start : Nat} (hlong : inlineSize < (Bytes.ofText s).length)
    (hlimit : (Bytes.ofText s).length < textLimit)
    (hfield : StandsAt b here
      (Bytes.littleBytes 4 (lengthWord (Bytes.ofText s).length) ++ distance here start))
    (h : LiesAt b low high (Bytes.ofText s) start) :
    HoldsText b low high here s (start + (Bytes.ofText s).length)

/-- The low bits of the first byte of a field tell how its text is written. -/
theorem littleNat_mark (a : UInt8) (r : Bytes) :
    Bytes.littleNat (a :: r) / 64 % 4 = a.toNat / 64 := by
  have := a.toNat_lt
  simp only [Bytes.littleNat]
  omega

theorem lengthWord_mark (n : Nat) : lengthWord n / 64 % 4 = 2 := by
  simp only [lengthWord]
  omega

theorem lengthWord_length (n : Nat) : lengthWord n % 64 + lengthWord n / 256 * 64 = n := by
  simp only [lengthWord]
  omega

theorem lengthWord_lt {n : Nat} (h : n < textLimit) : lengthWord n < Nat.pow 256 4 := by
  have : lengthWord n < 4294967296 := by
    simp only [textLimit] at h
    simp only [lengthWord]
    omega
  exact this

theorem lengthWord_of_mark {word : Nat} (h : word / 64 % 4 = 2) :
    lengthWord (word % 64 + word / 256 * 64) = word := by
  simp only [lengthWord]
  omega

theorem mark_of_short {s : String} {spare : Bytes}
    (hsize : (Bytes.ofText s ++ spare).length = inlineSize)
    (hclosed : ∀ a ∈ spare.head?, a = 0xff) :
    Bytes.littleNat ((Bytes.ofText s ++ spare).take 4) / 64 % 4 ≠ 2 := by
  cases hs : Bytes.ofText s with
  | nil =>
    rw [hs, List.nil_append] at hsize
    cases spare with
    | nil => cases hsize
    | cons a r =>
      rw [List.nil_append, List.take_succ_cons, littleNat_mark, hclosed a rfl]
      decide
  | cons a r =>
    rw [List.cons_append, List.take_succ_cons, littleNat_mark]
    exact Bytes.head_ofText hs

/-- The text in a field of its own ends where it is closed. -/
theorem takeWhile_short {s : String} {spare : Bytes} (hclosed : ∀ a ∈ spare.head?, a = 0xff) :
    (Bytes.ofText s ++ spare).takeWhile (· != 0xff) = Bytes.ofText s := by
  have hall : ∀ a ∈ Bytes.ofText s, (a != 0xff) = true := by
    intro a ha
    simpa using Bytes.ne_ff_of_mem_ofText ha
  rw [List.takeWhile_append_of_pos hall]
  cases spare with
  | nil => rw [List.takeWhile_nil, List.append_nil]
  | cons a r =>
    rw [hclosed a rfl, List.takeWhile_cons_of_neg (by decide), List.append_nil]

/-- A text is read from the fields that hold it, and from no others. -/
theorem textAt?_eq_some_iff {b : Bytes} {low high here next : Nat} {s : String}
    (hhigh : high ≤ here) (hhere : here + 8 ≤ b.length) (hsize : here < sizeLimit) :
    textAt? b low high here = some (s, next) ↔ HoldsText b low high here s next := by
  constructor
  · intro h
    simp only [textAt?] at h
    split at h
    · next hmark =>
      split at h
      · cases h
      next hlong =>
      obtain ⟨⟨text, next'⟩, hpoint, h⟩ := Option.bind_eq_some_iff.mp h
      obtain ⟨s', htext, h⟩ := Option.bind_eq_some_iff.mp h
      cases h
      obtain rfl := Bytes.ofText_of_toText? htext
      obtain ⟨start, hoff, hlen, rfl, hlies⟩ := (pointed?_eq_some_iff (by omega)).mp hpoint
      have hle : start ≤ here := by
        have := hlies.le_high
        omega
      have hword : natAt b here 4 < 4294967296 := natAt_lt (by omega)
      have hlength : natAt b here 4 = lengthWord (Bytes.ofText s).length := by
        rw [hlen, lengthWord_of_mark hmark]
      have hfield : StandsAt b here (Bytes.littleBytes 4 (lengthWord (Bytes.ofText s).length)) :=
        (natAt_eq_iff (by omega) (hlength ▸ natAt_lt (by omega))).mp hlength
      have hdistance := (signedOf_eq_iff (by omega) hle hsize).mp hoff
      rw [← hlen]
      refine .long (by omega) ?_ (hfield.append ?_) hlies
      · simp only [textLimit]
        omega
      · rwa [Bytes.length_littleBytes]
    · obtain ⟨s', htext, h⟩ := Option.bind_eq_some_iff.mp h
      cases h
      have hparts :=
        List.takeWhile_append_dropWhile (p := (· != 0xff)) (l := slice b here inlineSize)
      rw [← Bytes.ofText_of_toText? htext] at hparts
      have hfield : StandsAt b here (slice b here inlineSize) := .of_slice hhere
      have hspare : (slice b here inlineSize).length = inlineSize := length_slice hhere
      rw [← hparts] at hfield hspare
      refine .short hfield hspare fun a ha => ?_
      have hhead := List.head?_dropWhile_not (· != 0xff) (slice b here inlineSize)
      rw [Option.mem_def.mp ha] at hhead
      simpa using hhead
  · intro h
    cases h with
    | @short spare hfield hspare hclosed =>
      have hslice := hfield.slice
      rw [hspare] at hslice
      have hword : natAt b here 4 = Bytes.littleNat ((Bytes.ofText s ++ spare).take 4) := by
        rw [← hslice, natAt, slice, slice, List.take_take]
        rfl
      simp only [textAt?, hslice, hword]
      rw [if_neg (mark_of_short hspare hclosed), takeWhile_short hclosed, Bytes.toText?_ofText]
      rfl
    | @long start hlong hlimit hfield hlies =>
      have hend := hlies.le_high
      have hword := hfield.left.natAt (lengthWord_lt hlimit)
      have hoff := (hfield.right (j := here + 4) (by rw [Bytes.length_littleBytes])).signedOf
        (by omega) hsize
      simp only [textAt?, hword, hoff]
      rw [if_pos (lengthWord_mark _), lengthWord_length, if_neg (by omega),
        hlies.standsAt.pointed? rfl hlies.low_le hend]
      simp [Bytes.toText?_ofText]

/-- The bounds go on by what a text has outside its field. -/
theorem HoldsText.room {b : Bytes} {low high here next : Nat} {s : String} (hle : low ≤ high)
    (h : HoldsText b low high here s next) :
    low + (outside (Bytes.ofText s)).length ≤ next ∧ next ≤ high ∧
      (Bytes.ofText s).length < textLimit := by
  cases h with
  | short hfield hsize hclosed =>
    have hlength : (Bytes.ofText s).length ≤ inlineSize := by
      rw [List.length_append] at hsize
      omega
    rw [outside, if_pos hlength]
    exact ⟨Nat.le_refl _, hle, Nat.lt_of_le_of_lt hlength (by decide)⟩
  | long hlong hlimit hfield h =>
    rw [outside, if_neg (by omega)]
    exact ⟨Nat.add_le_add_right h.low_le _, h.le_high, hlimit⟩

/-- A text within the limit is held by the field that is written for it. -/
theorem HoldsText.of_textField {b : Bytes} {high here target : Nat} {s : String}
    (hfield : StandsAt b here (textField here target (Bytes.ofText s)))
    (hcontent : StandsAt b target (outside (Bytes.ofText s)))
    (hhigh : target + (outside (Bytes.ofText s)).length ≤ high)
    (hlimit : (Bytes.ofText s).length < textLimit) :
    HoldsText b target high here s (target + (outside (Bytes.ofText s)).length) := by
  unfold textField at hfield
  unfold outside at hcontent hhigh ⊢
  by_cases hin : (Bytes.ofText s).length ≤ inlineSize
  · rw [if_pos hin] at hfield ⊢
    refine .short hfield ?_ ?_
    · rw [List.length_append, List.length_replicate]
      omega
    · intro a ha
      rw [Option.mem_def, List.head?_eq_some_iff] at ha
      obtain ⟨r, hr⟩ := ha
      exact List.eq_of_mem_replicate (hr ▸ List.mem_cons_self)
  · rw [if_neg hin] at hfield hcontent hhigh ⊢
    exact .long (by omega) hlimit hfield ⟨hcontent, Nat.le_refl _, hhigh⟩

/-! ### Bytes that are not read -/

theorem LiesAt.set {b f : Bytes} {low high start j : Nat} (h : LiesAt b low high f start)
    (a : UInt8) (hj : high ≤ j) : LiesAt (b.set j a) low high f start :=
  ⟨h.standsAt.set a (.inr (Nat.le_trans h.le_high hj)), h.low_le, h.le_high⟩

theorem HoldsBytes.set {b f : Bytes} {low high here next j : Nat}
    (h : HoldsBytes b low high here f next) (a : UInt8) (hj : high ≤ j)
    (hfield : j < here ∨ here + 8 ≤ j) : HoldsBytes (b.set j a) low high here f next := by
  obtain ⟨hf, h⟩ := h
  exact .intro (hf.set a (by rwa [length_bytesField])) (h.set a hj)

theorem HoldsText.set {b : Bytes} {low high here next j : Nat} {s : String}
    (h : HoldsText b low high here s next) (a : UInt8) (hj : high ≤ j)
    (hfield : j < here ∨ here + 8 ≤ j) : HoldsText (b.set j a) low high here s next := by
  cases h with
  | short hf hsize hclosed =>
    exact .short (hf.set a (by rwa [hsize])) hsize hclosed
  | long hlong hlimit hf h =>
    refine .long hlong hlimit (hf.set a ?_) (h.set a hj)
    rwa [List.length_append, length_distance, Bytes.length_littleBytes]

/-! ### Records -/

theorem length_alignment {n : Nat} (hn : 0 < n) (k : Nat) :
    (k + (alignment n k).length) % n = 0 := by
  have hlt := Nat.mod_lt k hn
  rw [alignment, List.length_replicate]
  by_cases h0 : k % n = 0
  · rw [h0, Nat.sub_zero, Nat.mod_self]
    exact h0
  · rw [Nat.mod_eq_of_lt (by omega : n - k % n < n)]
    have hk : k + (n - k % n) = n * (k / n + 1) := by
      have := Nat.div_add_mod k n
      rw [Nat.mul_add]
      omega
    rw [hk, Nat.mul_mod_right]

theorem length_alignment_lt {n : Nat} (hn : 0 < n) (k : Nat) : (alignment n k).length < n := by
  rw [alignment, List.length_replicate]
  exact Nat.mod_lt _ hn

/-- Where the root stands behind the content. -/
def rootOf (align : Nat) (content : Bytes) : Nat :=
  (content ++ alignment align content.length).length

/-- A record: its content, aligned, and the fields of the root, which count from where it stands. -/
def record (align : Nat) (content : Bytes) (fields : Nat → Bytes) : Bytes :=
  content ++ alignment align content.length ++ fields (rootOf align content)

section record

variable {align n : Nat} {content : Bytes} {fields : Nat → Bytes}

theorem length_record (hf : (fields (rootOf align content)).length = rootSize) :
    (record align content fields).length = rootOf align content + rootSize := by
  rw [record, List.length_append, hf, rootOf]

theorem length_le_rootOf (align : Nat) (content : Bytes) :
    content.length ≤ rootOf align content := by
  rw [rootOf, List.length_append]
  exact Nat.le_add_right _ _

theorem rootOf_lt (hn : 0 < align) (content : Bytes) :
    rootOf align content < content.length + align := by
  rw [rootOf, List.length_append]
  exact Nat.add_lt_add_left (length_alignment_lt hn _) _

theorem rootOf_mod (hn : 0 < align) (content : Bytes) : rootOf align content % align = 0 := by
  rw [rootOf, List.length_append]
  exact length_alignment hn content.length

/-- The root stands at the first place behind the content that is aligned. -/
theorem rootOf_le (hn : 0 < align) (hle : content.length ≤ n) (hmod : n % align = 0) :
    rootOf align content ≤ n := by
  refine Nat.not_lt.mp fun hlt => ?_
  have hdvd : align ∣ rootOf align content - n :=
    Nat.dvd_sub (Nat.dvd_of_mod_eq_zero (rootOf_mod hn content)) (Nat.dvd_of_mod_eq_zero hmod)
  have hstep := Nat.le_of_dvd (by omega) hdvd
  have hnear := rootOf_lt hn content
  omega

/-- A record takes no more room than any byte string with its content before an aligned root. -/
theorem length_record_le {b : Bytes} {root : Nat} (hn : 0 < align)
    (hf : (fields (rootOf align content)).length = rootSize) (hlength : b.length = root + rootSize)
    (hmod : root % align = 0) (hcontent : content.length ≤ root) :
    (record align content fields).length ≤ b.length := by
  rw [length_record hf, hlength]
  exact Nat.add_le_add_right (rootOf_le hn hcontent hmod) _

theorem rootAt?_eq_some_iff {b : Bytes} {root : Nat} :
    rootAt? align b = some root ↔ b.length = root + rootSize ∧ root % align = 0 := by
  unfold rootAt?
  constructor
  · intro h
    simp only at h
    split at h
    · next hin => cases h; exact ⟨by omega, hin.2⟩
    · cases h
  · rintro ⟨hlen, hmod⟩
    have hroot : b.length - rootSize = root := by omega
    simp only [hroot]
    rw [if_pos ⟨by omega, hmod⟩]

theorem standsAt_content (align : Nat) (content : Bytes) (fields : Nat → Bytes) :
    StandsAt (record align content fields) 0 content :=
  (StandsAt.self (record align content fields)).left.left

theorem standsAt_fields (align : Nat) (content : Bytes) (fields : Nat → Bytes) :
    StandsAt (record align content fields) (rootOf align content) (fields (rootOf align content)) :=
  (StandsAt.self (record align content fields)).right (by rw [Nat.zero_add, rootOf])

end record

/-! ### Records that fit -/

theorem fits_iff {texts : List String} {length : Nat} :
    fits (texts.map Bytes.ofText) length = true ↔
      (∀ t ∈ texts, (Bytes.ofText t).length < textLimit) ∧ length < sizeLimit := by
  simp [fits]

/-- A text is within the limit if what stands of it outside its field is. -/
theorem length_lt_of_outside {text : Bytes} (h : (outside text).length < textLimit) :
    text.length < textLimit := by
  unfold outside at h
  split at h
  · next hin => exact Nat.lt_of_le_of_lt hin (by decide)
  · exact h

end Layout

end ObjectTiers
