/-
Items: objects with their contents, written as JSON records and read back from JSON.

A record is read from an object by its field names or from an array by position. Of several wrong
fields the first in the source is reported, and a missing field only when no field is wrong.
-/
import ObjectTiers.Kind
import ObjectTiers.Json.Fault

namespace ObjectTiers

open Json (Fault Found Expected)

/-- The fields of an item beyond its reference and version. -/
inductive Content
  | smtp (host : String) (port : UInt16)
  | mailer (host : String) (port : UInt16)
  | creds (clientId clientSecret : String)
  | vault (clientId clientSecret : String) (rotation : Option UInt32)
  | signing (pem : String)
  | flags (enabled : List String)
  | document (data : Json)
  | refuses (data : String)

/-- The kind that has such contents. -/
def Content.kind : Content → Kind
  | smtp .. => .smtp
  | mailer .. => .mailer
  | creds .. => .creds
  | vault .. => .vault
  | signing .. => .signing
  | flags .. => .flags
  | document .. => .document
  | refuses .. => .refuses

/-- An object and the identity it is stored under. -/
structure Item where
  objectRef : String
  version : UInt16
  content : Content

namespace Item

/-- The kind of an item, by its contents. -/
def kind (x : Item) : Kind := x.content.kind

/-! ### Writing -/

/-- The fields of contents, in the order of their declaration. -/
def contentFields : Content → List (String × Json)
  | .smtp host port => [("host", .text host), ("port", Json.ofNat port.toNat)]
  | .mailer host port => [("host", .text host), ("port", Json.ofNat port.toNat)]
  | .creds id secret => [("client_id", .text id), ("client_secret", .text secret)]
  | .vault id secret rotation =>
    [("client_id", .text id), ("client_secret", .text secret),
      ("rotation", match rotation with
        | some n => Json.ofNat n.toNat
        | none => .null)]
  | .signing pem => [("pem", .text pem)]
  | .flags enabled => [("enabled", .array (enabled.map .text))]
  | .document data => [("data", data)]
  | .refuses data => [("data", .text data)]

/-- The record of an item, its fields in the order of their declaration. -/
def toJson (x : Item) : Json :=
  .object (("object_ref", .text x.objectRef) :: ("version", Json.ofNat x.version.toNat)
    :: contentFields x.content)

/-- Contents that refuse to be written. -/
def isRefused : Content → Bool
  | .refuses data => data == "refuse"
  | _ => false

/-- The record of an item that lets itself be written. -/
def toJson? (x : Item) : Except Fault Json :=
  if isRefused x.content then .error .refused else .ok x.toJson

/-! ### Reading -/

/-- What a field holds. -/
inductive Shape
  | text
  | word16
  | optionalWord32
  | texts
  | anything
  deriving DecidableEq, Repr

/-- The failure of a value that is none of those expected. -/
def mismatch {α : Type} (j : Json) (expected : Expected) : Except Fault α :=
  .error (.invalidType (.ofJson j) expected)

/-- A text. -/
def readText : Json → Except Fault String
  | .text s => .ok s
  | j => mismatch j .text

/-- A natural number below `bound`. -/
def readBelow (bound : Nat) (expected : Expected) : Json → Except Fault Nat
  | .number (.integer i) =>
    if 0 ≤ i ∧ i < bound then .ok i.toNat
    else .error (.invalidValue (.number (.integer i)) expected)
  | j => mismatch j expected

/-- A natural number of 16 bits. -/
def readWord16 (j : Json) : Except Fault UInt16 :=
  (readBelow UInt16.size .word16 j).map UInt16.ofNat

/-- A natural number of 32 bits, or null for none. -/
def readOptionalWord32 : Json → Except Fault (Option UInt32)
  | .null => .ok none
  | j => (readBelow UInt32.size .word32 j).map fun n => some (.ofNat n)

/-- A list of texts. -/
def readTexts : Json → Except Fault (List String)
  | .array xs => xs.mapM readText
  | j => mismatch j .sequence

/-- Whether a value can be read as a field of a shape. -/
def Shape.check (s : Shape) (j : Json) : Except Fault Unit :=
  match s with
  | .text => (readText j).map fun _ => ()
  | .word16 => (readWord16 j).map fun _ => ()
  | .optionalWord32 => (readOptionalWord32 j).map fun _ => ()
  | .texts => (readTexts j).map fun _ => ()
  | .anything => .ok ()

/-- The fields of a kind in the order of their declaration. -/
def fields (k : Kind) : List (String × Shape) :=
  ("object_ref", .text) :: ("version", .word16) :: match k with
  | .smtp | .mailer => [("host", .text), ("port", .word16)]
  | .creds => [("client_id", .text), ("client_secret", .text)]
  | .vault => [("client_id", .text), ("client_secret", .text), ("rotation", .optionalWord32)]
  | .signing => [("pem", .text)]
  | .flags => [("enabled", .texts)]
  | .document => [("data", .anything)]
  | .refuses => [("data", .text)]

/-- The members of an object, in their order, each checked if it is a field. -/
def checkMembers (schema : List (String × Shape)) : List (String × Json) → Except Fault Unit
  | [] => .ok ()
  | (k, j) :: r =>
    match schema.lookup k with
    | some s =>
      match s.check j with
      | .ok () => checkMembers schema r
      | .error e => .error e
    | none => checkMembers schema r

/-- Whether a field of the shape may be missing. -/
def Shape.isOptional : Shape → Bool
  | .optionalWord32 => true
  | _ => false

/-- The items of an array against the fields in order; `full` names the whole record. Fields behind
the last item must be ones that may be missing. -/
def checkItems (full : Expected) : Nat → List (String × Shape) → List Json → Except Fault Unit
  | _, [], _ => .ok ()
  | n, (_, s) :: fs, [] =>
    if s.isOptional then checkItems full (n + 1) fs [] else .error (.invalidLength n full)
  | n, (_, s) :: fs, j :: js =>
    match s.check j with
    | .ok () => checkItems full (n + 1) fs js
    | .error e => .error e

/-- The field `name` among the members, read by `read`. -/
def field {α : Type} (members : List (String × Json)) (name : String)
    (read : Json → Except Fault α) : Except Fault α :=
  match members.lookup name with
  | some j => read j
  | none => .error (.missingField name)

/-- A field that may be missing. -/
def optionalField {α : Type} (members : List (String × Json)) (name : String)
    (read : Json → Except Fault (Option α)) : Except Fault (Option α) :=
  match members.lookup name with
  | some j => read j
  | none => .ok none

/-- The contents of kind `k` whose fields are among the given members. -/
def readContent (k : Kind) (ms : List (String × Json)) : Except Fault Content :=
  match k with
  | .smtp => return .smtp (← field ms "host" readText) (← field ms "port" readWord16)
  | .mailer => return .mailer (← field ms "host" readText) (← field ms "port" readWord16)
  | .creds =>
    return .creds (← field ms "client_id" readText) (← field ms "client_secret" readText)
  | .vault =>
    return .vault (← field ms "client_id" readText) (← field ms "client_secret" readText)
      (← optionalField ms "rotation" readOptionalWord32)
  | .signing => return .signing (← field ms "pem" readText)
  | .flags => return .flags (← field ms "enabled" readTexts)
  | .document => return .document (← field ms "data" .ok)
  | .refuses => return .refuses (← field ms "data" readText)

/-- The item of kind `k` whose fields are the given members. -/
def ofMembers (k : Kind) (ms : List (String × Json)) : Except Fault Item := do
  let objectRef ← field ms "object_ref" readText
  let version ← field ms "version" readWord16
  let content ← readContent k ms
  pure ⟨objectRef, version, content⟩

/-- The item of kind `k` that a JSON value is the record of. -/
def ofJson (k : Kind) : Json → Except Fault Item
  | .object ms => do
    checkMembers (fields k) ms
    ofMembers k ms
  | .array xs => do
    checkItems (.recordItems k.recordName (fields k).length) 0 (fields k) xs
    let x ← ofMembers k ((fields k).map (·.1) |>.zip xs)
    if (fields k).length < xs.length then .error (.invalidLength xs.length .fewerItems)
    else pure x
  | j => mismatch j (.record k.recordName)

end Item

end ObjectTiers
