/-
Values that are passed over. Only their shape is checked: they may nest to any depth, their texts
may hold any bytes and any code point escapes, and their numbers may be of any size.
-/
import ObjectTiers.Json.Scan

namespace ObjectTiers.Json

/-- An array or an object that is still open. -/
inductive Bracket
  | array | object
  deriving DecidableEq, Repr

/-- What follows a backslash. -/
def skipEscape (input : Bytes) : Except Failure Bytes :=
  match input with
  | [] => failAt .endInText []
  | b :: r =>
    if b = 0x75 then
      match hexEscape r with
      | .error e => .error e
      | .ok (_, r) => .ok r
    else if (letterEscape? b).isSome then .ok r
    else failAt .invalidEscape r

/-- A text up to its closing quote. -/
def skipText : Bytes → Bytes → Except Failure Bytes
  | [], _ => failAt .endInText []
  | _ :: bound, input =>
    match input.dropWhile isPlain with
    | [] => failAt .endInText []
    | b :: r =>
      if b = 0x22 then .ok r
      else if b = 0x5c then
        match skipEscape r with
        | .error e => .error e
        | .ok r => skipText bound r
      else failAt .controlCharacter (b :: r)

/-- What follows the digits, if there are any. -/
def skipDigits : Bytes → Bytes := List.dropWhile isDigit

/-- What follows the letter of an exponent. -/
def skipExponent (input : Bytes) : Except Failure Bytes :=
  let unsigned := match input with
    | 0x2b :: r => r
    | 0x2d :: r => r
    | r => r
  if startsDigit unsigned then .ok (skipDigits unsigned) else failOn .invalidNumber unsigned

/-- What follows an exponent, or the place where there is none. -/
def skipOptionalExponent (input : Bytes) : Except Failure Bytes :=
  match input with
  | 0x65 :: r => skipExponent r
  | 0x45 :: r => skipExponent r
  | r => .ok r

/-- A number from its first digit on. -/
def skipNumber (input : Bytes) : Except Failure Bytes :=
  match input with
  | [] => failAt .invalidNumber []
  | b :: r =>
    if !isDigit b then failAt .invalidNumber r
    else if b = 0x30 && startsDigit r then failOn .invalidNumber r
    else match skipDigits r with
      | 0x2e :: r =>
        if startsDigit r then skipOptionalExponent (skipDigits r) else failOn .invalidNumber r
      | r => skipOptionalExponent r

/-- A value that opens no bracket, from its first byte `b` on. -/
def skipScalar (b : UInt8) (r : Bytes) : Except Failure Bytes :=
  if b = 0x6e then readWord [0x75, 0x6c, 0x6c] r
  else if b = 0x74 then readWord [0x72, 0x75, 0x65] r
  else if b = 0x66 then readWord [0x61, 0x6c, 0x73, 0x65] r
  else if b = 0x2d then skipNumber r
  else if isDigit b then skipNumber (b :: r)
  else if b = 0x22 then skipText r r
  else failOn .expectedValue (b :: r)

/-- The key of a member and its colon. -/
def skipKey (input : Bytes) : Except Failure Bytes :=
  match skipSpace input with
  | [] => failOn .endInObject []
  | b :: r =>
    if b = 0x22 then
      match skipText r r with
      | .error e => .error e
      | .ok r =>
        match skipSpace r with
        | [] => failOn .endInObject []
        | c :: r => if c = 0x3a then .ok r else failOn .expectedColon (c :: r)
    else failOn .keyNotText (b :: r)

/-- Where the passing over goes on: at a value, behind an opening bracket, or after a value. -/
inductive SkipState
  | value
  | afterOpening (inner : Bracket)
  | afterValue

/-- A place inside brackets that are open there, the innermost first. -/
structure SkipPlace where
  state : SkipState
  opened : List Bracket
  rest : Bytes

/-- Goes on over a value from its first byte `b` on, or over its opening bracket. -/
def skipStart (opened : List Bracket) (b : UInt8) (r : Bytes) : Except Failure SkipPlace :=
  if b = 0x5b then .ok ⟨.afterOpening .array, opened, r⟩
  else if b = 0x7b then .ok ⟨.afterOpening .object, opened, r⟩
  else match skipScalar b r with
    | .error e => .error e
    | .ok r => .ok ⟨.afterValue, opened, r⟩

/-- Goes on over the key of a member to its value. -/
def skipToMember (opened : List Bracket) (input : Bytes) : Except Failure SkipPlace :=
  match skipKey input with
  | .error e => .error e
  | .ok r => .ok ⟨.value, .object :: opened, r⟩

/-- Goes on by a byte at least. -/
def skipRound (p : SkipPlace) : Except Failure SkipPlace :=
  match p.state, p.opened, skipSpace p.rest with
  | .value, _, [] => failOn .endInValue []
  | .value, opened, b :: r => skipStart opened b r
  | .afterOpening .array, _, [] => failOn .endInList []
  | .afterOpening .array, opened, b :: r =>
    if b = 0x5d then .ok ⟨.afterValue, opened, r⟩ else skipStart (.array :: opened) b r
  | .afterOpening .object, _, [] => failOn .endInObject []
  | .afterOpening .object, opened, b :: r =>
    if b = 0x7d then .ok ⟨.afterValue, opened, r⟩ else skipToMember opened (b :: r)
  | .afterValue, [], _ => .ok p
  | .afterValue, .array :: _, [] => failOn .endInList []
  | .afterValue, .array :: opened, b :: r =>
    if b = 0x5d then .ok ⟨.afterValue, opened, r⟩
    else if b = 0x2c then .ok ⟨.value, .array :: opened, r⟩
    else failOn .expectedListEnd (b :: r)
  | .afterValue, .object :: _, [] => failOn .endInObject []
  | .afterValue, .object :: opened, b :: r =>
    if b = 0x7d then .ok ⟨.afterValue, opened, r⟩
    else if b = 0x2c then skipToMember opened r
    else failOn .expectedObjectEnd (b :: r)

/-- Goes on until no bracket is open after a value. -/
def skipFrom (bound : Bytes) (p : SkipPlace) : Except Failure Bytes :=
  match skipRound p with
  | .error e => .error e
  | .ok ⟨.afterValue, [], rest⟩ => .ok rest
  | .ok p =>
    match bound with
    | [] => failOn .endInValue p.rest
    | _ :: bound => skipFrom bound p

/-- Passes over one value. -/
def skipValue (input : Bytes) : Except Failure Bytes := skipFrom input ⟨.value, [], input⟩

end ObjectTiers.Json
