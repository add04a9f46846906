/-
The written form of a JSON value: no blanks, members in the order they stand, and in texts only
the quote, the backslash and the control characters escaped.
-/
import ObjectTiers.Bytes
import ObjectTiers.Json.Value
import ObjectTiers.Json.Shortest

namespace ObjectTiers.Json

/-- The bytes of ASCII characters. -/
def ascii (cs : List Char) : Bytes := cs.map fun c => UInt8.ofNat c.toNat

/-- The lower-case hexadecimal digit of a number below sixteen. -/
def hexDigit (n : Nat) : UInt8 := UInt8.ofNat (if n < 10 then 48 + n else 87 + n)

/-- One character inside a written text. -/
def writeChar (c : Char) : Bytes :=
  let n := c.toNat
  if n = 0x22 then [0x5c, 0x22]
  else if n = 0x5c then [0x5c, 0x5c]
  else if n = 0x08 then [0x5c, 0x62]
  else if n = 0x09 then [0x5c, 0x74]
  else if n = 0x0a then [0x5c, 0x6e]
  else if n = 0x0c then [0x5c, 0x66]
  else if n = 0x0d then [0x5c, 0x72]
  else if n < 0x20 then [0x5c, 0x75, 0x30, 0x30, hexDigit (n / 16), hexDigit (n % 16)]
  else String.utf8EncodeChar c

/-- A written text, between quotes. -/
def writeText (s : String) : Bytes := 0x22 :: s.toList.flatMap writeChar ++ [0x22]

/-- The digits of a natural number. -/
def writeNat (n : Nat) : Bytes :=
  if n < 10 then [UInt8.ofNat (48 + n)] else writeNat (n / 10) ++ [UInt8.ofNat (48 + n % 10)]

/-- The digits of an integer, with its sign if it is negative. -/
def writeInt : Int → Bytes
  | .ofNat n => writeNat n
  | .negSucc n => 0x2d :: writeNat (n + 1)

/-- A number: an integer by its digits, any other as its shortest decimal. -/
def writeNumber : Number → Bytes
  | .integer i => writeInt i
  | .real x => ascii x.text

mutual
/-- The written form of a value. -/
def write : Json → Bytes
  | .null => ascii ['n', 'u', 'l', 'l']
  | .bool true => ascii ['t', 'r', 'u', 'e']
  | .bool false => ascii ['f', 'a', 'l', 's', 'e']
  | .number n => writeNumber n
  | .text s => writeText s
  | .array [] => [0x5b, 0x5d]
  | .array (x :: xs) => 0x5b :: write x ++ writeItems xs
  | .object [] => [0x7b, 0x7d]
  | .object ((k, v) :: ms) => 0x7b :: writeText k ++ 0x3a :: write v ++ writeMembers ms

/-- Further items of an array, and its end. -/
def writeItems : List Json → Bytes
  | [] => [0x5d]
  | x :: xs => 0x2c :: write x ++ writeItems xs

/-- Further members of an object, and its end. -/
def writeMembers : List (String × Json) → Bytes
  | [] => [0x7d]
  | (k, v) :: ms => 0x2c :: writeText k ++ 0x3a :: write v ++ writeMembers ms
end

end ObjectTiers.Json
