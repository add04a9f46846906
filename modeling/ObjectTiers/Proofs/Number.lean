/-
Numbers of 64 bits in decimal. Which texts spell one (`Text.SpellsNumber`), and what is wrong with
the others (`Text.Misspells`), is written down apart from the reader, which reads the former and
reports the latter (`Text.readWord64_eq_ok_iff`, `Text.readWord64_eq_error_iff`).
-/
import Mathlib.Data.List.Induction
import ObjectTiers.Text.Decimal

namespace ObjectTiers.Text

variable {cs ds rest t : List Char} {bound n : Nat} {w : UInt64} {fault : NumberFault}

/-- The text behind a plus sign, if it begins with one. -/
def unsigned : List Char → List Char
  | '+' :: r => r
  | cs => cs

/-- The number that digits stand for. -/
def digitsValue (ds : List Char) : Nat := Nat.ofDigitChars 10 ds 0

/-- A number of 64 bits: an optional plus sign and at least one digit, however many zeros first. -/
def SpellsNumber (t : List Char) (w : UInt64) : Prop :=
  ∃ ds, (t = ds ∨ t = '+' :: ds) ∧ ds ≠ [] ∧ (∀ c ∈ ds, c.isDigit = true) ∧
    digitsValue ds = w.toNat

/-- Digits of a number that has 64 bits. -/
structure Fit (ds : List Char) : Prop where
  digits : ∀ c ∈ ds, c.isDigit = true
  lt : digitsValue ds < UInt64.size

/-- What is wrong with a text that spells no number of 64 bits: there is nothing, or nothing behind
the sign, or behind digits of a number that has 64 bits comes what is no digit, or the digit that is
too much. -/
inductive Misspells : List Char → NumberFault → Prop
  | empty : Misspells [] .empty
  | sign : Misspells ['+'] .digit
  | digit {t before after : List Char} {c : Char} (ht : unsigned t = before ++ c :: after)
    (hbefore : Fit before) (hc : c.isDigit = false) : Misspells t .digit
  | overflow {t before after : List Char} {c : Char} (ht : unsigned t = before ++ c :: after)
    (hbefore : Fit before) (hc : c.isDigit = true)
    (hlarge : UInt64.size ≤ digitsValue (before ++ [c])) : Misspells t .overflow

theorem readDigits_append (hdigits : ∀ c ∈ ds, c.isDigit = true)
    (hlt : Nat.ofDigitChars 10 ds n < bound) :
    readDigits bound n (ds ++ rest) = readDigits bound (Nat.ofDigitChars 10 ds n) rest := by
  induction ds generalizing n with
  | nil => rfl
  | cons c ds ih =>
    obtain ⟨hc, hdigits⟩ := List.forall_mem_cons.mp hdigits
    have hzero : '0'.toNat = 48 := rfl
    rw [Nat.ofDigitChars_cons, hzero] at hlt ⊢
    have hstep : 10 * n + (c.toNat - 48) < bound := by
      refine Nat.lt_of_le_of_lt ?_ hlt
      rw [Nat.ofDigitChars_eq_ofDigitChars_zero]
      exact Nat.le_add_right_of_le (Nat.le_mul_of_pos_left _ (Nat.pow_pos (by decide)))
    rw [List.cons_append, readDigits, if_neg (by simp [hc])]
    simp only [hstep, if_true]
    exact ih hdigits hlt

/-- Digits are read to their number, or up to what is no digit or one digit too much. -/
theorem fit_or (ds : List Char) : Fit ds ∨ ∃ before c after, ds = before ++ c :: after ∧
    Fit before ∧ (c.isDigit = true → UInt64.size ≤ digitsValue (before ++ [c])) := by
  induction ds using List.reverseRecOn with
  | nil => exact .inl ⟨nofun, by decide⟩
  | append_singleton ds c ih =>
    rcases ih with hfit | ⟨before, d, after, rfl, hrest⟩
    · by_cases hc : c.isDigit = true ∧ digitsValue (ds ++ [c]) < UInt64.size
      · refine .inl ⟨fun d hd => ?_, hc.2⟩
        rcases List.mem_append.mp hd with hd | hd
        · exact hfit.digits d hd
        · rw [List.mem_singleton.mp hd]
          exact hc.1
      · exact .inr ⟨ds, c, [], rfl, hfit, fun hdigit => Nat.le_of_not_lt fun h => hc ⟨hdigit, h⟩⟩
    · exact .inr ⟨before, d, after ++ [c], by simp, hrest⟩

theorem readWord64_unsigned (hne : t ≠ []) (hsign : t ≠ ['+']) :
    readWord64 (String.ofList t) =
      (readDigits UInt64.size 0 (unsigned t)).map UInt64.ofNat := by
  unfold readWord64 unsigned
  rw [String.toList_ofList]
  split <;> simp_all

theorem unsigned_of_digits (h : ∀ c ∈ ds, c.isDigit = true) : unsigned ds = ds := by
  unfold unsigned
  split
  · exact absurd (h '+' (List.mem_cons_self ..)) (by decide)
  · rfl

theorem SpellsNumber.readWord64 (h : SpellsNumber t w) :
    readWord64 (String.ofList t) = .ok w := by
  obtain ⟨ds, ht, hne, hdigits, hvalue⟩ := h
  have hread : (readDigits UInt64.size 0 ds).map UInt64.ofNat = .ok w := by
    have hlt : Nat.ofDigitChars 10 ds 0 < UInt64.size := by
      rw [← digitsValue, hvalue]
      exact w.toNat_lt_size
    rw [← List.append_nil ds, readDigits_append hdigits hlt, readDigits, Except.map, ← digitsValue,
      hvalue, UInt64.ofNat_toNat]
  rcases ht with rfl | rfl
  · have hsign : t ≠ ['+'] := by
      rintro rfl
      exact absurd (hdigits '+' (List.mem_cons_self ..)) (by decide)
    rw [readWord64_unsigned hne hsign, unsigned_of_digits hdigits, hread]
  · rw [readWord64_unsigned (by simp) (by simpa using hne)]
    exact hread

theorem readWord64_append {before after : List Char} {c : Char}
    (ht : unsigned t = before ++ c :: after) (hbefore : Fit before) :
    readWord64 (String.ofList t) =
      (readDigits UInt64.size (digitsValue before) (c :: after)).map UInt64.ofNat := by
  have hne : t ≠ [] := by
    rintro rfl
    simp [unsigned] at ht
  have hsign : t ≠ ['+'] := by
    rintro rfl
    simp [unsigned] at ht
  rw [readWord64_unsigned hne hsign, ht, readDigits_append hbefore.digits hbefore.lt, digitsValue]

theorem Misspells.readWord64 (h : Misspells t fault) :
    readWord64 (String.ofList t) = .error fault := by
  cases h with
  | empty => rfl
  | sign => rfl
  | digit ht hbefore hc =>
    rw [readWord64_append ht hbefore, readDigits, if_pos (by simp [hc])]
    rfl
  | @overflow _ before after c ht hbefore hc hlarge =>
    have hnext : ¬ 10 * digitsValue before + (c.toNat - 48) < UInt64.size := by
      rw [digitsValue, Nat.ofDigitChars_append] at hlarge
      exact Nat.not_lt_of_le hlarge
    rw [readWord64_append ht hbefore, readDigits, if_neg (by simp [hc])]
    simp only [hnext, if_false]
    rfl

/-- Every text spells a number of 64 bits or has something wrong with it. -/
theorem spells_or_misspells (t : List Char) :
    (∃ w, SpellsNumber t w) ∨ ∃ fault, Misspells t fault := by
  by_cases hne : t = []
  · subst hne
    exact .inr ⟨_, .empty⟩
  by_cases hsign : t = ['+']
  · subst hsign
    exact .inr ⟨_, .sign⟩
  have hunsigned : (t = unsigned t ∨ t = '+' :: unsigned t) ∧ unsigned t ≠ [] := by
    unfold unsigned
    split <;> simp_all
  rcases fit_or (unsigned t) with hfit | ⟨before, c, after, ht, hbefore, hlarge⟩
  · refine .inl ⟨.ofNat (digitsValue (unsigned t)), unsigned t, hunsigned.1, hunsigned.2,
      hfit.digits, ?_⟩
    exact (UInt64.toNat_ofNat_of_lt' hfit.lt).symm
  · cases hc : c.isDigit with
    | false => exact .inr ⟨_, .digit ht hbefore hc⟩
    | true => exact .inr ⟨_, .overflow ht hbefore hc (hlarge hc)⟩

theorem readWord64_eq_ok_iff : readWord64 (String.ofList t) = .ok w ↔ SpellsNumber t w := by
  refine ⟨fun h => ?_, SpellsNumber.readWord64⟩
  rcases spells_or_misspells t with ⟨w', hw'⟩ | ⟨fault, hfault⟩
  · cases h.symm.trans hw'.readWord64
    exact hw'
  · cases h.symm.trans hfault.readWord64

theorem readWord64_eq_error_iff :
    readWord64 (String.ofList t) = .error fault ↔ Misspells t fault := by
  refine ⟨fun h => ?_, Misspells.readWord64⟩
  rcases spells_or_misspells t with ⟨w, hw⟩ | ⟨fault', hfault'⟩
  · cases h.symm.trans hw.readWord64
  · cases h.symm.trans hfault'.readWord64
    exact hfault'

end ObjectTiers.Text
