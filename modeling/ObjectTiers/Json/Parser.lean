/-
JSON values read from a text. Arrays and objects nest to a limit: `readValue depth` allows `depth`
more levels, which is also what its recursion is on. Blanks may stand between any two pieces.
-/
import ObjectTiers.Json.Scan

namespace ObjectTiers.Json

/-- Items after the first, up to the closing bracket. -/
def readItems {α : Type} (item : Bytes → Read α) : Bytes → Bytes → List α → Read (List α)
  | [], rest, _ => failOn .endInList rest
  | _ :: bound, input, acc =>
    match skipSpace input with
    | [] => failOn .endInList []
    | b :: r =>
      if b = 0x5d then .ok (acc.reverse, r)
      else if b = 0x2c then
        match skipSpace r with
        | [] => failOn .endInValue []
        | c :: r =>
          if c = 0x5d then failOn .trailingComma (c :: r)
          else match item (c :: r) with
            | .error e => .error e
            | .ok (x, r) => readItems item bound r (x :: acc)
      else failOn .expectedListEnd (b :: r)

/-- The items of an array after its opening bracket. -/
def readArray {α : Type} (item : Bytes → Read α) (input : Bytes) : Read (List α) :=
  match skipSpace input with
  | [] => failOn .endInList []
  | b :: r =>
    if b = 0x5d then .ok ([], r)
    else match item (b :: r) with
      | .error e => .error e
      | .ok (x, r) => readItems item r r [x]

/-- The colon after a key. -/
def readColon (input : Bytes) : Except Failure Bytes :=
  match skipSpace input with
  | [] => failOn .endInObject []
  | b :: r => if b = 0x3a then .ok r else failOn .expectedColon (b :: r)

/-- A key and its value, after the opening quote of the key. -/
def readMember {α : Type} (value : Bytes → Read α) (input : Bytes) : Read (String × α) :=
  match readText input with
  | .error e => .error e
  | .ok (k, r) =>
    match readColon r with
    | .error e => .error e
    | .ok r =>
      match value r with
      | .error e => .error e
      | .ok (v, r) => .ok ((k, v), r)

/-- Members after the first, up to the closing brace; a repeated key takes the later value. -/
def readMembers {α : Type} (value : Bytes → Read α) :
    Bytes → Bytes → List (String × α) → Read (List (String × α))
  | [], rest, _ => failOn .endInObject rest
  | _ :: bound, input, acc =>
    match skipSpace input with
    | [] => failOn .endInObject []
    | b :: r =>
      if b = 0x7d then .ok (acc, r)
      else if b = 0x2c then
        match skipSpace r with
        | [] => failOn .endInValue []
        | c :: r =>
          if c = 0x22 then
            match readMember value r with
            | .error e => .error e
            | .ok ((k, v), r) => readMembers value bound r (insertMember k v acc)
          else if c = 0x7d then failOn .trailingComma (c :: r)
          else failOn .keyNotText (c :: r)
      else failOn .expectedObjectEnd (b :: r)

/-- The members of an object after its opening brace. -/
def readObject {α : Type} (value : Bytes → Read α) (input : Bytes) : Read (List (String × α)) :=
  match skipSpace input with
  | [] => failOn .endInObject []
  | b :: r =>
    if b = 0x7d then .ok ([], r)
    else if b = 0x22 then
      match readMember value r with
      | .error e => .error e
      | .ok ((k, v), r) => readMembers value r r [(k, v)]
    else failOn .keyNotText (b :: r)

/-- The outcome of a reader with its value changed. -/
def Read.map {α β : Type} (f : α → β) : Read α → Read β
  | .error e => .error e
  | .ok (x, r) => .ok (f x, r)

/-- The rest of a fixed word that stands for `value`. -/
def readConstant (letters : Bytes) (value : Json) (input : Bytes) : Read Json :=
  match readWord letters input with
  | .error e => .error e
  | .ok r => .ok (value, r)

/-- A value that is no array and no object, from its first byte `b` on. -/
def readScalar (b : UInt8) (r : Bytes) : Read Json :=
  if b = 0x6e then readConstant [0x75, 0x6c, 0x6c] .null r
  else if b = 0x74 then readConstant [0x72, 0x75, 0x65] (.bool true) r
  else if b = 0x66 then readConstant [0x61, 0x6c, 0x73, 0x65] (.bool false) r
  else if b = 0x2d then Read.map Json.number (readNumber true r)
  else if isDigit b then Read.map Json.number (readNumber false (b :: r))
  else if b = 0x22 then Read.map Json.text (readText r)
  else failOn .expectedValue (b :: r)

/-- A value in which arrays and objects nest at most `depth` levels. -/
def readValue : Nat → Bytes → Read Json
  | 0, input =>
    match skipSpace input with
    | [] => failOn .endInValue []
    | b :: r =>
      if b = 0x5b ∨ b = 0x7b then failOn .tooDeep (b :: r) else readScalar b r
  | depth + 1, input =>
    match skipSpace input with
    | [] => failOn .endInValue []
    | b :: r =>
      if b = 0x5b then Read.map Json.array (readArray (readValue depth) r)
      else if b = 0x7b then Read.map Json.object (readObject (readValue depth) r)
      else readScalar b r

/-- Only blanks may follow the last value. -/
def readEnd (input : Bytes) : Except Failure Unit :=
  match skipSpace input with
  | [] => .ok ()
  | b :: r => failOn .trailingCharacters (b :: r)

/-- The levels of arrays and objects a text may have. -/
def maxDepth : Nat := 127

/-- The value a whole text holds. -/
def parse (input : Bytes) : Except Failure Json := do
  let (v, rest) ← readValue maxDepth input
  readEnd rest
  pure v

end ObjectTiers.Json
