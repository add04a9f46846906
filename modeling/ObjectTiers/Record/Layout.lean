/-
The layout that rows and cache entries share: little-endian fields in a root of 40 bytes, behind
the bytes that do not fit into it.

A text of at most eight bytes stands in its field, filled up with `0xff`; a longer one stands
before the root, and its field holds its length and the distance to it. A byte string always
stands before the root. Reading checks that what the fields point at lies before the root, each
after the end of the one before.

Fields have 32 bits, two of which a text needs to mark its length: a record that does not fit them
is not written.
-/
import ObjectTiers.Bytes

namespace ObjectTiers.Layout

/-- The bytes of a root. -/
def rootSize : Nat := 40

/-- The bytes a text has room for in its own field. -/
def inlineSize : Nat := 8

/-! ### Writing -/

/-- The distance from position `here` back to `target`, in 32 bits. -/
def distance (here target : Nat) : Bytes := Bytes.littleSigned ((target : Int) - here)

/-- The length of a text outside its field: its low six bits, the mark `10`, and the rest. -/
def lengthWord (n : Nat) : Nat := n % 64 + 128 + n / 64 * 256

/-- The bytes of a text that stand before the root. -/
def outside (text : Bytes) : Bytes := if text.length ≤ inlineSize then [] else text

/-- The field at position `here` of a text whose outside bytes stand at `target`. -/
def textField (here target : Nat) (text : Bytes) : Bytes :=
  if text.length ≤ inlineSize then text ++ List.replicate (inlineSize - text.length) 0xff
  else Bytes.littleBytes 4 (lengthWord text.length) ++ distance here target

/-- The field at position `here` of a byte string that stands at `target`. -/
def bytesField (here target length : Nat) : Bytes :=
  distance here target ++ Bytes.littleBytes 4 length

/-- Zeros up to a multiple of `n`. -/
def alignment (n length : Nat) : Bytes := List.replicate ((n - length % n) % n) 0

/-- Lengths of texts stay below this bound. -/
def textLimit : Nat := 0x40000000

/-- Records stay below this length, so that every distance in them fits its field. -/
def sizeLimit : Nat := 0x80000000

/-- Whether a record of a length, with these texts in it, can be written. -/
def fits (texts : List Bytes) (length : Nat) : Bool :=
  texts.all (fun t => decide (t.length < textLimit)) && decide (length < sizeLimit)

/-! ### Reading -/

/-- So many bytes from a position on, fewer where the string ends. -/
def slice (b : Bytes) (start length : Nat) : Bytes := (b.drop start).take length

/-- The little-endian number of so many bytes from a position on. -/
def natAt (b : Bytes) (start width : Nat) : Nat := Bytes.littleNat (slice b start width)

/-- The position of the root, which is the end of a record. -/
def rootAt? (align : Nat) (b : Bytes) : Option Nat :=
  let root := b.length - rootSize
  if rootSize ≤ b.length ∧ root % align = 0 then some root else none

/-- The bytes at a signed distance from `here`, within the bounds, and the end of them. -/
def pointed? (b : Bytes) (low high here : Nat) (offset : Int) (length : Nat) :
    Option (Bytes × Nat) :=
  let start := (here : Int) + offset
  if (low : Int) ≤ start ∧ start + length ≤ high then
    some (slice b start.toNat length, start.toNat + length)
  else none

/-- The byte string whose field stands at `here`, and the bound for what follows. -/
def bytesAt? (b : Bytes) (low high here : Nat) : Option (Bytes × Nat) :=
  pointed? b low high here (Bytes.signedOf (natAt b here 4)) (natAt b (here + 4) 4)

/-- The text whose field stands at `here`, and the bound for what follows. -/
def textAt? (b : Bytes) (low high here : Nat) : Option (String × Nat) :=
  let field := slice b here inlineSize
  let word := natAt b here 4
  if word / 64 % 4 = 2 then do
    let length := word % 64 + word / 256 * 64
    if length ≤ inlineSize then none
    else
      let (text, low) ← pointed? b low high here (Bytes.signedOf (natAt b (here + 4) 4)) length
      let s ← Bytes.toText? text
      pure (s, low)
  else do
    let s ← Bytes.toText? (field.takeWhile (· != 0xff))
    pure (s, low)

end ObjectTiers.Layout
