/-
The pieces of a JSON text: blanks, fixed words, numbers and quoted texts. Each reader takes the
input and gives back what it read and the rest. A reader that goes round takes a byte at least each
time, so it is bounded by the input itself: a round for each of its bytes.

A failure blames either the place reached (`failAt`) or the byte that stands there (`failOn`).
-/
import ObjectTiers.Json.Fault

namespace ObjectTiers.Json

/-- What was read and the rest of the input, or why nothing was. -/
abbrev Read (α : Type) := Except Failure (α × Bytes)

/-- Blames what was read up to here. -/
def failAt {α : Type} (fault : Fault) (rest : Bytes) : Except Failure α := .error ⟨fault, rest⟩

/-- Blames the next byte, or the end if there is none. -/
def failOn {α : Type} (fault : Fault) (rest : Bytes) : Except Failure α := .error ⟨fault, rest.tail⟩

/-- The four blanks of JSON; no other character counts as one. -/
def isSpace (b : UInt8) : Bool := b == 0x20 || b == 0x0a || b == 0x09 || b == 0x0d

/-- What follows the blanks, if there are any. -/
def skipSpace : Bytes → Bytes := List.dropWhile isSpace

/-- Whether a byte is an ASCII digit. -/
def isDigit (b : UInt8) : Bool := 0x30 ≤ b && b ≤ 0x39

/-- The number of a digit. -/
def digitValue (b : UInt8) : Nat := b.toNat - 0x30

/-- Whether a digit comes next. -/
def startsDigit : Bytes → Bool
  | b :: _ => isDigit b
  | [] => false

/-- The remaining letters of a fixed word. -/
def readWord : Bytes → Bytes → Except Failure Bytes
  | [], rest => .ok rest
  | _ :: _, [] => failAt .endInValue []
  | e :: es, b :: r => if b = e then readWord es r else failAt .expectedWord r

/-! ### Numbers -/

/-- Significant digits are kept below this bound. -/
def significandBound : Nat := UInt64.size

/-- Digits taken into the significand while it stays below the bound, with their count. -/
def significand : Nat → Nat → Bytes → Nat × Nat × Bytes
  | n, count, [] => (n, count, [])
  | n, count, b :: r =>
    if isDigit b && 10 * n + digitValue b < significandBound then
      significand (10 * n + digitValue b) (count + 1) r
    else (n, count, b :: r)

/-- The number of digits that come next, and what follows them. -/
def countDigits (input : Bytes) : Nat × Bytes :=
  ((input.takeWhile isDigit).length, input.dropWhile isDigit)

/-- The number of these parts; it is out of range if it would be infinite. -/
def realOfParts (negative : Bool) (sig : Nat) (exponent : Int) (rest : Bytes) : Read Number :=
  match Binary64.ofParts negative sig exponent with
  | some x => .ok (.real x, rest)
  | none => failAt .numberOutOfRange rest

/-- Exponents are read below this bound; beyond it the number is zero or out of range. -/
def exponentBound : Nat := 0x80000000

/-- Further digits of an exponent that is `n` so far, and the number with it. -/
def exponentDigits (negative : Bool) (sig : Nat) (start : Int) (negativeExponent : Bool) :
    Nat → Bytes → Read Number
  | n, [] => realOfParts negative sig (if negativeExponent then start - n else start + n) []
  | n, b :: r =>
    if isDigit b then
      if 10 * n + digitValue b < exponentBound then
        exponentDigits negative sig start negativeExponent (10 * n + digitValue b) r
      else if sig != 0 && !negativeExponent then failAt .numberOutOfRange r
      else .ok (.real (.zero negative), r.dropWhile isDigit)
    else realOfParts negative sig (if negativeExponent then start - n else start + n) (b :: r)

/-- What follows the letter of an exponent. -/
def exponent (negative : Bool) (sig : Nat) (start : Int) (input : Bytes) : Read Number :=
  let (negativeExponent, input) := match input with
    | 0x2b :: r => (false, r)
    | 0x2d :: r => (true, r)
    | r => (false, r)
  match input with
  | [] => failAt .endInValue []
  | b :: r =>
    if isDigit b then exponentDigits negative sig start negativeExponent (digitValue b) r
    else failAt .invalidNumber r

/-- A number whose digits are all read, unless an exponent follows. -/
def withExponent (negative : Bool) (sig : Nat) (power : Int) (input : Bytes) : Read Number :=
  match input with
  | 0x65 :: r => exponent negative sig power r
  | 0x45 :: r => exponent negative sig power r
  | r => realOfParts negative sig power r

/-- What follows the point. Digits that no longer fit are passed over. -/
def fraction (negative : Bool) (sig : Nat) (start : Int) (input : Bytes) : Read Number :=
  let (sig, count, rest) := significand sig 0 input
  if startsDigit rest then withExponent negative sig (start - count) (rest.dropWhile isDigit)
  else if count = 0 then
    match rest with
    | [] => failOn .endInValue []
    | _ => failOn .invalidNumber rest
  else withExponent negative sig (start - count) rest

/-- A number whose integer part has been read. -/
def afterInteger (negative : Bool) (sig : Nat) (input : Bytes) : Read Number :=
  match input with
  | 0x2e :: r => fraction negative sig 0 r
  | 0x65 :: r => exponent negative sig 0 r
  | 0x45 :: r => exponent negative sig 0 r
  | r =>
    if !negative then .ok (.integer sig, r)
    else if 0 < sig ∧ sig ≤ significandBound / 2 then .ok (.integer (-sig), r)
    else realOfParts true sig 0 r

/-- A number whose integer part has more digits than the significand holds. -/
def longInteger (negative : Bool) (sig : Nat) (input : Bytes) : Read Number :=
  let (count, rest) := countDigits input
  match rest with
  | 0x2e :: r => fraction negative sig count r
  | r => withExponent negative sig count r

/-- A number from its first digit on. -/
def readNumber (negative : Bool) (input : Bytes) : Read Number :=
  match input with
  | [] => failAt .endInValue []
  | b :: r =>
    if b = 0x30 then
      if startsDigit r then failOn .invalidNumber r else afterInteger negative 0 r
    else if isDigit b then
      let (sig, _, rest) := significand (digitValue b) 0 r
      if startsDigit rest then longInteger negative sig rest else afterInteger negative sig rest
    else failAt .invalidNumber r

/-! ### Texts -/

/-- The number of a hexadecimal digit, of either case. -/
def hexValue? (b : UInt8) : Option Nat :=
  if isDigit b then some (b.toNat - 0x30)
  else if 0x61 ≤ b && b ≤ 0x66 then some (b.toNat - 0x57)
  else if 0x41 ≤ b && b ≤ 0x46 then some (b.toNat - 0x37)
  else none

/-- Four hexadecimal digits. -/
def hexEscape (input : Bytes) : Read Nat :=
  match input with
  | a :: b :: c :: d :: r =>
    match hexValue? a, hexValue? b, hexValue? c, hexValue? d with
    | some a, some b, some c, some d => .ok (((a * 16 + b) * 16 + c) * 16 + d, r)
    | _, _, _, _ => failAt .invalidEscape r
  | _ => failAt .endInText []

/-- The escape of the second half of a surrogate pair. -/
def pairedEscape (high : Nat) (input : Bytes) : Except Failure (Bytes × Bytes) := do
  let rest ← match input with
    | [] => failAt .endInText []
    | 0x5c :: r =>
      match r with
      | [] => failAt .endInText []
      | 0x75 :: r => .ok r
      | _ :: r => failAt .unpairedEscape r
    | _ :: r => failAt .unpairedEscape r
  let (low, rest) ← hexEscape rest
  if 0xdc00 ≤ low ∧ low ≤ 0xdfff then
    .ok (String.utf8EncodeChar
      (Char.ofNat (0x10000 + (high - 0xd800) * 1024 + (low - 0xdc00))), rest)
  else failAt .loneSurrogate rest

/-- A code point in hexadecimal, or two that form a surrogate pair. -/
def codePointEscape (input : Bytes) : Except Failure (Bytes × Bytes) := do
  let (n, rest) ← hexEscape input
  if 0xdc00 ≤ n ∧ n ≤ 0xdfff then failAt .loneSurrogate rest
  else if 0xd800 ≤ n ∧ n ≤ 0xdbff then pairedEscape n rest
  else .ok (String.utf8EncodeChar (Char.ofNat n), rest)

/-- The byte an escape of one letter stands for. -/
def letterEscape? (b : UInt8) : Option UInt8 :=
  if b = 0x22 || b = 0x5c || b = 0x2f then some b
  else if b = 0x62 then some 0x08
  else if b = 0x66 then some 0x0c
  else if b = 0x6e then some 0x0a
  else if b = 0x72 then some 0x0d
  else if b = 0x74 then some 0x09
  else none

/-- What follows a backslash: the bytes it stands for. -/
def escape (input : Bytes) : Read Bytes :=
  match input with
  | [] => failAt .endInText []
  | b :: r =>
    if b = 0x75 then codePointEscape r
    else match letterEscape? b with
      | some e => .ok ([e], r)
      | none => failAt .invalidEscape r

/-- A byte that stands for itself inside a text. -/
def isPlain (b : UInt8) : Bool := 0x20 ≤ b && b != 0x22 && b != 0x5c

/-- The bytes of a text up to its closing quote, escapes resolved. Each round takes the plain
bytes up to the next quote, escape or control character. -/
def textBytes : Bytes → Bytes → Read Bytes
  | [], _ => failAt .endInText []
  | _ :: bound, input =>
    let plain := input.takeWhile isPlain
    match input.dropWhile isPlain with
    | [] => failAt .endInText []
    | b :: r =>
      if b = 0x22 then .ok (plain, r)
      else if b = 0x5c then
        match escape r with
        | .error e => .error e
        | .ok (escaped, r) =>
          match textBytes bound r with
          | .error e => .error e
          | .ok (more, r) => .ok (plain ++ escaped ++ more, r)
      else failAt .controlCharacter r

/-- A text after its opening quote. If what it stands for is not UTF-8, the place blamed is as far
before the closing quote as the first wrong byte is before the end of the bytes stood for; without
escapes it is right behind that byte. -/
def readText (input : Bytes) : Except Failure (String × Bytes) := do
  let (bytes, rest) ← textBytes input input
  match Bytes.toText? bytes with
  | some s => .ok (s, rest)
  | none =>
    let wrong := bytes.length - Bytes.textLength bytes
    failAt .invalidCodePoint (input.drop (input.length - (rest.length + wrong)))

end ObjectTiers.Json
