/-
Texts as byte strings. The UTF-8 form of a text is the forms of its characters one after another
(`ofText_eq_flatMap`), none of its bytes is `0xff` (`ne_ff_of_mem_ofText`), and its first byte is
never one that continues a character (`head_ofText`). Below, the decimal forms of numbers: a
number is read off its digits (`paddedDigits_injective`).
-/
import ObjectTiers.Bytes
import ObjectTiers.Text.Decimal

namespace ObjectTiers

namespace Bytes

theorem ofText_eq_flatMap (s : String) : ofText s = s.toList.flatMap String.utf8EncodeChar := by
  unfold ofText
  rw [← String.utf8Encode_toList, List.utf8Encode]
  simp

/-- What the bytes of a character look like: one below 128, or a leading byte and continuations. -/
theorem utf8EncodeChar_cases (c : Char) :
    (c.toNat < 128 ∧ String.utf8EncodeChar c = [.ofNat c.toNat]) ∨
    (128 ≤ c.toNat ∧ ∃ a r, String.utf8EncodeChar c = a :: r ∧ 192 ≤ a.toNat ∧
      ∀ b ∈ a :: r, 128 ≤ b.toNat ∧ b.toNat < 255) := by
  have hv : c.val.toNat = c.toNat := rfl
  unfold String.utf8EncodeChar
  simp only [hv]
  split
  · exact .inl ⟨by omega, rfl⟩
  · right
    refine ⟨by omega, ?_⟩
    split
    · refine ⟨_, _, rfl, ?_, ?_⟩ <;> simp [UInt8.toNat_ofNat'] <;> omega
    · split
      · refine ⟨_, _, rfl, ?_, ?_⟩ <;> simp [UInt8.toNat_ofNat'] <;> omega
      · refine ⟨_, _, rfl, ?_, ?_⟩ <;> simp [UInt8.toNat_ofNat'] <;> omega

theorem ne_ff_of_mem_ofText {s : String} {b : UInt8} (h : b ∈ ofText s) : b ≠ 0xff := by
  rw [ofText_eq_flatMap, List.mem_flatMap] at h
  obtain ⟨c, -, hb⟩ := h
  intro heq
  subst heq
  rcases utf8EncodeChar_cases c with ⟨hc, he⟩ | ⟨-, a, r, he, -, hall⟩
  · rw [he, List.mem_singleton] at hb
    have := congrArg UInt8.toNat hb
    simp [UInt8.toNat_ofNat'] at this
    omega
  · have := (hall _ (he ▸ hb)).2
    simp at this

/-- The first byte of a text does not continue a character: its top bits are not `10`. -/
theorem head_ofText {s : String} {b : UInt8} {r : Bytes} (h : ofText s = b :: r) :
    b.toNat / 64 ≠ 2 := by
  rw [ofText_eq_flatMap] at h
  cases hs : s.toList with
  | nil => rw [hs] at h; cases h
  | cons c cs =>
    rw [hs, List.flatMap_cons] at h
    rcases utf8EncodeChar_cases c with ⟨hc, he⟩ | ⟨-, a, t, he, ha, -⟩
    · rw [he] at h
      cases h
      rw [UInt8.toNat_ofNat']
      omega
    · rw [he] at h
      cases h
      have := b.toNat_lt
      omega

end Bytes

namespace Text

theorem length_paddedDigits {width n : Nat} (h : (Nat.toDigits 10 n).length ≤ width) :
    (paddedDigits width n).length = width := by
  simp only [paddedDigits, List.length_append, List.length_replicate]
  omega

theorem paddedDigits_injective {width m n : Nat} (h : paddedDigits width m = paddedDigits width n) :
    m = n := by
  have hval := congrArg (fun ds => Nat.ofDigitChars 10 ds 0) h
  simpa only [paddedDigits, Nat.ofDigitChars_append, Nat.ofDigitChars_replicate_zero, Nat.mul_zero,
    Nat.ofDigitChars_ten_toDigits] using hval

end Text

end ObjectTiers
