/-
Rows: what the table keeps for an identity, their record of bytes, and what a row must satisfy
before a table takes it.
-/
import ObjectTiers.Envelope
import ObjectTiers.Identity
import ObjectTiers.Record.Layout

namespace ObjectTiers

/-- An object as the table keeps it; a key id tells that the payload is sealed. -/
structure Row where
  objectRef : String
  version : UInt16
  payload : Bytes
  keyId : Option String
  updatedAt : Int64
  deriving DecidableEq, Repr

/-- Why a table refuses a row, or does not hand one out. -/
inductive RowFault
  | identity (cause : ValidationError)
  | emptyKeyId (objectRef : String) (version : UInt16)
  | envelope (objectRef : String) (version : UInt16) (keyId : String) (cause : EnvelopeError)
  | misplaced (path : String) (objectRef : String) (version : UInt16)
  deriving DecidableEq, Repr

/-- The text of a fault. -/
def RowFault.message : RowFault → String
  | .identity cause => cause.message
  | .emptyKeyId r v => s!"{r} v{v.toNat} has an empty key_id"
  | .envelope r v keyId cause => s!"{r} v{v.toNat} has key_id {keyId} but " ++ cause.message
  | .misplaced path r v => s!"row at {path} holds {r} v{v.toNat}"

namespace Row

/-- Whether the payload of a row is sealed. -/
def isEncrypted (r : Row) : Bool := r.keyId.isSome

/-- A valid identity; a key id only with text in it and an envelope as payload. -/
def check (r : Row) : Except RowFault Unit :=
  match Identity.validate r.objectRef r.version with
  | .error e => .error (.identity e)
  | .ok _ =>
    match r.keyId with
    | none => .ok ()
    | some keyId =>
      if keyId.isEmpty then .error (.emptyKeyId r.objectRef r.version)
      else match Envelope.parse r.payload with
        | .error e => .error (.envelope r.objectRef r.version keyId e)
        | .ok _ => .ok ()

open Layout

/-- The alignment of the root of a row. -/
def rootAlignment : Nat := 8

/-- The record of a row. -/
def toBytes (r : Row) : Bytes :=
  let ref := Bytes.ofText r.objectRef
  let key := (r.keyId.map Bytes.ofText).getD []
  let payloadAt := (outside ref).length
  let keyAt := payloadAt + r.payload.length
  let body := outside ref ++ r.payload ++ outside key
  let filled := body ++ alignment rootAlignment body.length
  let root := filled.length
  filled
    ++ textField root 0 ref
    ++ Bytes.littleBytes 2 r.version.toNat ++ [0, 0]
    ++ bytesField (root + 12) payloadAt r.payload.length
    ++ (match r.keyId with
      | none => List.replicate 12 0
      | some _ => [1, 0, 0, 0] ++ textField (root + 24) keyAt key)
    ++ Bytes.littleBytes 8 r.updatedAt.toUInt64.toNat

/-- The texts of a row beside its payload. -/
def texts (r : Row) : List String := r.objectRef :: r.keyId.toList

/-- The record of a row; none if it does not fit its fields. -/
def encode? (r : Row) : Option Bytes :=
  if fits (r.texts.map Bytes.ofText) r.toBytes.length then some r.toBytes else none

/-- The row whose record the bytes are. -/
def ofBytes? (b : Bytes) : Option Row := do
  let root ← rootAt? rootAlignment b
  let (ref, low) ← textAt? b 0 root root
  let (payload, low) ← bytesAt? b low root (root + 12)
  let keyId ← match natAt b (root + 20) 1 with
    | 0 => some none
    | 1 => (textAt? b low root (root + 24)).map fun p => some p.1
    | _ => none
  pure ⟨ref, .ofNat (natAt b (root + 8) 2), payload, keyId,
    (UInt64.ofNat (natAt b (root + 32) 8)).toInt64⟩

end Row

end ObjectTiers
