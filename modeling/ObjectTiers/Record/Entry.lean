/-
Cache entries: an object as the cache holds it, under its own identity and type tag. An entry is
a plain frame, or an envelope with the id of its key; its record starts with four bytes of its own.
-/
import ObjectTiers.Record.Layout

namespace ObjectTiers

/-- What an entry holds: a plain frame, or an envelope with the id of its key. -/
inductive EntryPayload
  | plain (frame : Bytes)
  | sealed (keyId : String) (envelope : Bytes)
  deriving DecidableEq, Repr

/-- An object as the cache holds it. -/
structure Entry where
  objectRef : String
  version : UInt16
  tag : String
  payload : EntryPayload
  deriving DecidableEq, Repr

namespace Entry

/-- Whether an entry holds an envelope. -/
def isEncrypted (e : Entry) : Bool :=
  match e.payload with
  | .plain _ => false
  | .sealed _ _ => true

open Layout

/-- The bytes every record of an entry starts with. -/
def magic : Bytes := [0x54, 0x53, 0x45, 0x31]

/-- The alignment of the root of an entry. -/
def rootAlignment : Nat := 4

/-- The record behind the magic bytes; positions count from there. -/
def body (e : Entry) : Bytes :=
  let ref := Bytes.ofText e.objectRef
  let tag := Bytes.ofText e.tag
  let (key, bytes) := match e.payload with
    | .plain frame => ([], frame)
    | .sealed keyId envelope => (Bytes.ofText keyId, envelope)
  let tagAt := (outside ref).length
  let keyAt := tagAt + (outside tag).length
  let bytesAt := keyAt + (outside key).length
  let content := outside ref ++ outside tag ++ outside key ++ bytes
  let filled := content ++ alignment rootAlignment content.length
  let root := filled.length
  filled
    ++ textField root 0 ref
    ++ Bytes.littleBytes 2 e.version.toNat ++ [0, 0]
    ++ textField (root + 12) tagAt tag
    ++ match e.payload with
      | .plain _ => [0, 0, 0, 0] ++ bytesField (root + 24) bytesAt bytes.length
        ++ List.replicate 8 0
      | .sealed _ _ => [1, 0, 0, 0] ++ textField (root + 24) keyAt key
        ++ bytesField (root + 32) bytesAt bytes.length

/-- The record of an entry. -/
def toBytes (e : Entry) : Bytes := magic ++ e.body

/-- The texts of an entry. -/
def texts (e : Entry) : List String :=
  e.objectRef :: e.tag :: match e.payload with
  | .plain _ => []
  | .sealed keyId _ => [keyId]

/-- The record of an entry; none if it does not fit its fields. -/
def encode? (e : Entry) : Option Bytes :=
  if fits (e.texts.map Bytes.ofText) e.body.length then some e.toBytes else none

/-- The complaint about an entry that has no record. -/
def oversizeMessage : String := "entry does not fit its record"

/-- The entry whose record stands behind the magic bytes. -/
def ofBody? (b : Bytes) : Option Entry := do
  let root ← rootAt? rootAlignment b
  let (ref, low) ← textAt? b 0 root root
  let (tag, low) ← textAt? b low root (root + 12)
  let payload ← match natAt b (root + 20) 1 with
    | 0 => (bytesAt? b low root (root + 24)).map fun p => EntryPayload.plain p.1
    | 1 => do
      let (keyId, low) ← textAt? b low root (root + 24)
      let (envelope, _) ← bytesAt? b low root (root + 32)
      pure (EntryPayload.sealed keyId envelope)
    | _ => none
  pure ⟨ref, .ofNat (natAt b (root + 8) 2), tag, payload⟩

/-- The entry whose record the bytes are; none for bytes with another start. -/
def ofBytes? (b : Bytes) : Option Entry :=
  if magic.isPrefixOf b then ofBody? (b.drop magic.length) else none

end Entry

end ObjectTiers
