/-
Frames: a record with the tag and schema version it was written under, as one JSON text.

A frame is read as an object whose members `type`, `schema` and `body` stand once each, other
members being passed over, or as an array of the three. A wrong member is blamed where it stands;
a missing, repeated or surplus one where the frame ends or should end.
-/
import ObjectTiers.Json.Parser
import ObjectTiers.Json.Skip
import ObjectTiers.Json.Printer

namespace ObjectTiers

open Json

/-- A record with the tag and the schema version it was written under. -/
structure Frame where
  tag : String
  schema : UInt16
  body : Json

namespace Frame

/-- The object that a frame is written as, its members in this order. -/
def toJson (f : Frame) : Json :=
  .object [("type", .text f.tag), ("schema", .ofNat f.schema.toNat), ("body", f.body)]

/-- The written form of a frame. -/
def write (f : Frame) : Bytes := f.toJson.write

/-! ### Reading -/

/-- The failure of a value that is not what is expected. -/
def mismatch (expected : Expected) (b : UInt8) (r : Bytes) : Failure :=
  let found (x : Read Found) : Failure := match x with
    | .error e => e
    | .ok (f, rest) => ⟨.invalidType f expected, rest⟩
  let constant (letters : Bytes) (f : Found) : Read Found := (readWord letters r).map (f, ·)
  if b = 0x6e then found (constant [0x75, 0x6c, 0x6c] .null)
  else if b = 0x74 then found (constant [0x72, 0x75, 0x65] (.bool true))
  else if b = 0x66 then found (constant [0x61, 0x6c, 0x73, 0x65] (.bool false))
  else if b = 0x2d then found ((readNumber true r).map .number)
  else if isDigit b then found ((readNumber false (b :: r)).map .number)
  else if b = 0x22 then found (Read.map .text (readText r))
  else if b = 0x5b then found (.ok (.sequence, b :: r))
  else if b = 0x7b then found (.ok (.map, b :: r))
  else ⟨.expectedValue, r⟩

/-- A text. -/
def readTag (input : Bytes) : Read String :=
  match skipSpace input with
  | [] => failOn .endInValue []
  | b :: r => if b = 0x22 then readText r else .error (mismatch .text b r)

/-- A natural number of 16 bits. -/
def readSchema (input : Bytes) : Read UInt16 :=
  let check (x : Read Number) : Read UInt16 := match x with
    | .error e => .error e
    | .ok (.integer i, rest) =>
      if 0 ≤ i ∧ i < UInt16.size then .ok (.ofNat i.toNat, rest)
      else failAt (.invalidValue (.number (.integer i)) .word16) rest
    | .ok (.real x, rest) => failAt (.invalidType (.number (.real x)) .word16) rest
  match skipSpace input with
  | [] => failOn .endInValue []
  | b :: r =>
    if b = 0x2d then check (readNumber true r)
    else if isDigit b then check (readNumber false (b :: r))
    else .error (mismatch .word16 b r)

/-- The members met so far. -/
structure Parts where
  tag : Option String
  schema : Option UInt16
  body : Option Json

/-- The levels that the body of a frame may have: those of a text without the frame's own. -/
def bodyDepth : Nat := maxDepth - 1

/-- The place blamed when an object is given up: behind its closing brace if that comes next. -/
def objectEnd (rest : Bytes) : Bytes :=
  match skipSpace rest with
  | [] => []
  | b :: r => if b = 0x7d then r else b :: r

/-- The value of a member: the colon, then what `read` reads. -/
def memberValue {α : Type} (read : Bytes → Read α) (input : Bytes) : Read α :=
  match readColon input with
  | .error e => .error e
  | .ok r => read r

/-- One member after its key. -/
def readField (p : Parts) (key : String) (input : Bytes) : Read Parts :=
  let once {α : Type} (met : Option α) (read : Bytes → Read α) (add : α → Parts) :=
    if met.isSome then .error ⟨.duplicateField key, objectEnd input⟩
    else Read.map add (memberValue read input)
  if key = "type" then once p.tag readTag fun t => { p with tag := some t }
  else if key = "schema" then once p.schema readSchema fun n => { p with schema := some n }
  else if key = "body" then once p.body (readValue bodyDepth) fun j => { p with body := some j }
  else memberValue (fun r => (skipValue r).map (p, ·)) input

/-- One member after the opening quote of its key. -/
def readPart (p : Parts) (input : Bytes) : Read Parts :=
  match readText input with
  | .error e => .error e
  | .ok (key, r) => readField p key r

/-- The whole frame from its members. -/
def ofParts (p : Parts) (rest : Bytes) : Read Frame :=
  match p.tag, p.schema, p.body with
  | some tag, some schema, some body => .ok (⟨tag, schema, body⟩, rest)
  | none, _, _ => failAt (.missingField "type") rest
  | _, none, _ => failAt (.missingField "schema") rest
  | _, _, none => failAt (.missingField "body") rest

/-- Members after the first, up to the closing brace. -/
def readParts : Bytes → Parts → Bytes → Read Frame
  | [], _, rest => failOn .endInObject rest
  | _ :: bound, p, input =>
    match skipSpace input with
    | [] => failOn .endInObject []
    | b :: r =>
      if b = 0x7d then ofParts p r
      else if b = 0x2c then
        match skipSpace r with
        | [] => failOn .endInValue []
        | c :: r =>
          if c = 0x22 then
            match readPart p r with
            | .error e => .error e
            | .ok (p, r) => readParts bound p r
          else if c = 0x7d then failOn .trailingComma (c :: r)
          else failOn .keyNotText (c :: r)
      else failOn .expectedObjectEnd (b :: r)

/-- A frame after its opening brace. -/
def readObject (input : Bytes) : Read Frame :=
  let start : Parts := ⟨none, none, none⟩
  match skipSpace input with
  | [] => failOn .endInObject []
  | b :: r =>
    if b = 0x7d then ofParts start r
    else if b = 0x22 then
      match readPart start r with
      | .error e => .error e
      | .ok (p, r) => readParts r p r
    else failOn .keyNotText (b :: r)

/-- The next item of an array, where `count` have been read. -/
def readNext {α : Type} (count : Nat) (read : Bytes → Read α) (input : Bytes) : Read α :=
  match skipSpace input with
  | [] => failOn .endInList []
  | b :: r =>
    if b = 0x5d then failAt (.invalidLength count (.recordItems "FrameIn" 3)) r
    else if count = 0 then read (b :: r)
    else if b = 0x2c then
      match skipSpace r with
      | [] => failOn .endInValue []
      | c :: r => if c = 0x5d then failOn .trailingComma (c :: r) else read (c :: r)
    else failOn .expectedListEnd (b :: r)

/-- A frame after its opening bracket. -/
def readArray (input : Bytes) : Except Failure (Frame × Bytes) := do
  let (tag, r) ← readNext 0 readTag input
  let (schema, r) ← readNext 1 readSchema r
  let (body, r) ← readNext 2 (readValue bodyDepth) r
  match skipSpace r with
  | [] => failOn .endInList []
  | b :: r =>
    if b = 0x5d then .ok (⟨tag, schema, body⟩, r)
    else if b = 0x2c then
      match skipSpace r with
      | c :: r => failOn (if c = 0x5d then .trailingComma else .trailingCharacters) (c :: r)
      | [] => failOn .trailingCharacters []
    else failOn .trailingCharacters (b :: r)

/-- The frame a whole text holds. -/
def parse (input : Bytes) : Except Failure Frame := do
  let (f, rest) ← match skipSpace input with
    | [] => failOn .endInValue []
    | b :: r =>
      if b = 0x7b then readObject r
      else if b = 0x5b then readArray r
      else .error (mismatch (.record "FrameIn") b r)
  readEnd rest
  pure f

end Frame

end ObjectTiers
