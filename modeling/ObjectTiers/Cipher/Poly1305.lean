/-
The Poly1305 authenticator of RFC 8439, over natural numbers.
-/
import ObjectTiers.Bytes

namespace ObjectTiers.Poly1305

/-- The prime that is calculated modulo. -/
def modulus : Nat := Nat.pow 2 130 - 5

/-- The first half of a key, with the bits cleared that must not be set. -/
def clamp (r : Nat) : Nat := r &&& 0x0ffffffc0ffffffc0ffffffc0fffffff

/-- Pieces of sixteen bytes, the last one shorter if need be. -/
def pieces : Bytes → List Bytes
  | [] => []
  | b :: r => (b :: r.take 15) :: pieces (r.drop 15)
termination_by b => b.length
decreasing_by simp only [List.length_cons, List.length_drop]; omega

/-- The polynomial of a message at `r`: each piece is a coefficient, with a one behind its last
byte. -/
def accumulate (r : Nat) (message : Bytes) : Nat :=
  (pieces message).foldl (fun acc p => (acc + Bytes.littleNat (p ++ [1])) * r % modulus) 0

/-- The tag of a message under a one-time key of 32 bytes. -/
def tag (key message : Bytes) : Bytes :=
  let r := clamp (Bytes.littleNat (key.take 16))
  let s := Bytes.littleNat (key.drop 16)
  Bytes.littleBytes 16 (accumulate r message + s)

end ObjectTiers.Poly1305
