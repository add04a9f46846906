/-
Byte strings as lists, their UTF-8 reading, and numbers of a fixed width.

`toText?_ofText` and `ofText_of_toText?`: a text and its UTF-8 form determine each other.
`littleNat_littleBytes`: a number that fits its width is read back from its bytes.
-/

namespace ObjectTiers

/-- A byte string, read from its first byte on. -/
abbrev Bytes := List UInt8

namespace Bytes

/-- The UTF-8 form of a text. -/
def ofText (s : String) : Bytes := s.toByteArray.data.toList

/-- The text a byte string is the UTF-8 form of. -/
def toText? (b : Bytes) : Option String := String.fromUTF8? ⟨b.toArray⟩

theorem toText?_ofText (s : String) : toText? (ofText s) = some s := by
  have h : (⟨(ofText s).toArray⟩ : ByteArray) = s.toByteArray := by simp [ofText]
  simp only [toText?, String.fromUTF8?, h]
  rw [dif_pos s.isValidUTF8]
  rfl

theorem ofText_of_toText? {b : Bytes} {s : String} (h : toText? b = some s) : ofText s = b := by
  unfold toText? String.fromUTF8? at h
  split at h
  · cases h; simp [ofText, String.fromUTF8]
  · cases h

theorem ofText_injective {s t : String} (h : ofText s = ofText t) : s = t := by
  have := toText?_ofText s
  rw [h, toText?_ofText] at this
  exact (Option.some.inj this).symm

/-- The low `width` bytes of `n`, the least significant first. -/
def littleBytes : Nat → Nat → Bytes
  | 0, _ => []
  | width + 1, n => UInt8.ofNat n :: littleBytes width (n / 256)

/-- The number whose bytes are given, the least significant first. -/
def littleNat : Bytes → Nat
  | [] => 0
  | b :: r => b.toNat + 256 * littleNat r

/-- The low `width` bytes of `n`, the most significant first. -/
def bigBytes (width n : Nat) : Bytes := (littleBytes width n).reverse

theorem length_littleBytes (width n : Nat) : (littleBytes width n).length = width := by
  induction width generalizing n with
  | zero => rfl
  | succ w ih => simp [littleBytes, ih]

theorem littleNat_littleBytes {width n : Nat} (h : n < Nat.pow 256 width) :
    littleNat (littleBytes width n) = n := by
  induction width generalizing n with
  | zero => simp at h; simp [littleBytes, littleNat, h]
  | succ w ih =>
    have hw : n / 256 < Nat.pow 256 w := by
      apply Nat.div_lt_of_lt_mul; rw [Nat.pow_eq, Nat.pow_succ] at h; rw [Nat.pow_eq]; omega
    simp only [littleBytes, littleNat, ih hw, UInt8.toNat_ofNat']
    omega

/-- A signed number of 32 bits, the least significant byte first. -/
def littleSigned (i : Int) : Bytes := littleBytes 4 (Int32.ofInt i).toUInt32.toNat

/-- The signed reading of a number of 32 bits. -/
def signedOf (n : Nat) : Int := (UInt32.ofNat n).toInt32.toInt

/-- The length of the UTF-8 character the byte string starts with, as RFC 3629 lists them. -/
def leadingCharLength? : Bytes → Option Nat
  | [] => none
  | a :: r =>
    let tail (b : UInt8) := 0x80 ≤ b && b ≤ 0xBF
    if a ≤ 0x7F then some 1
    else match r with
      | [] => none
      | b :: r =>
        if 0xC2 ≤ a && a ≤ 0xDF && tail b then some 2
        else match r with
          | [] => none
          | c :: r =>
            let three := a == 0xE0 && 0xA0 ≤ b && b ≤ 0xBF || 0xE1 ≤ a && a ≤ 0xEC && tail b
              || a == 0xED && 0x80 ≤ b && b ≤ 0x9F || 0xEE ≤ a && a ≤ 0xEF && tail b
            if three && tail c then some 3
            else match r with
              | [] => none
              | d :: _ =>
                let four := a == 0xF0 && 0x90 ≤ b && b ≤ 0xBF || 0xF1 ≤ a && a ≤ 0xF3 && tail b
                  || a == 0xF4 && 0x80 ≤ b && b ≤ 0x8F
                if four && tail c && tail d then some 4 else none

/-- How many bytes form whole UTF-8 characters before the first that does not. -/
def textLength (b : Bytes) : Nat := go b.length b
where
  go : Nat → Bytes → Nat
    | 0, _ => 0
    | fuel + 1, b =>
      match leadingCharLength? b with
      | some n => n + go fuel (b.drop n)
      | none => 0

end Bytes

end ObjectTiers
