/-
Envelopes: one byte for the length of the iv, one for the length of the tag, then iv, tag and
ciphertext. And the payloads of rows, plain frames or envelopes with a frame sealed inside.
-/
import ObjectTiers.Cipher
import ObjectTiers.Frame
import ObjectTiers.Item

namespace ObjectTiers

/-- Why bytes are no envelope. -/
inductive EnvelopeFault
  | header (length : Nat)
  | body (length ivLength tagLength : Nat)
  deriving DecidableEq, Repr

/-- The parts of an envelope whose length takes one byte. -/
inductive EnvelopeField
  | iv
  | tag
  deriving DecidableEq, Repr

/-- A frame that cannot be read: a fault in its text, or in the record it holds. -/
inductive FrameFault
  | text (located : Json.Located)
  | record (fault : Json.Fault)
  deriving DecidableEq, Repr

/-- Why an item is not read from its payload, or not written into one. -/
inductive EnvelopeError
  | corrupt (fault : EnvelopeFault)
  | tooLarge (field : EnvelopeField) (length : Nat)
  | decryptionFailed (objectRef : String) (version : UInt16) (cause : CipherError)
  | unexpectedType (expected found : String)
  | unsupportedSchema (tag : String) (found supported : UInt16)
  | serialization (fault : FrameFault)
  | encryption (cause : CipherError)
  deriving DecidableEq, Repr

/-- The text of a fault, with the lengths that do not fit. -/
def EnvelopeFault.message : EnvelopeFault → String
  | .header n => s!"envelope is {n} bytes, header needs 2"
  | .body n i t => s!"envelope body is {n} bytes, iv ({i}) and tag ({t}) need {i + t}"

/-- The name of a part in messages. -/
def EnvelopeField.message : EnvelopeField → String
  | .iv => "iv"
  | .tag => "tag"

/-- The text of the fault in the frame; only a fault in its text has a place. -/
def FrameFault.message : FrameFault → String
  | .text located => located.message
  | .record fault => fault.message

/-- The text of an error. -/
def EnvelopeError.message : EnvelopeError → String
  | .corrupt fault => "corrupt envelope: " ++ fault.message
  | .tooLarge field n => "envelope " ++ field.message ++ s!" is {n} bytes, maximum is 255"
  | .decryptionFailed r v cause => s!"failed to decrypt {r} v{v.toNat}: " ++ cause.message
  | .unexpectedType expected found => s!"unexpected stored type: expected {expected}, found {found}"
  | .unsupportedSchema tag found supported =>
    s!"{tag} schema {found.toNat} is newer than supported schema {supported.toNat}"
  | .serialization fault => "serialization error: " ++ fault.message
  | .encryption cause => "encryption failed: " ++ cause.message

namespace Envelope

/-- The parts of an envelope. -/
def parse : Bytes → Except EnvelopeError Sealed
  | iv :: tag :: body =>
    let i := iv.toNat
    let t := tag.toNat
    if body.length < i + t then .error (.corrupt (.body body.length i t))
    else .ok ⟨body.take i, (body.drop i).take t, body.drop (i + t)⟩
  | b => .error (.corrupt (.header b.length))

/-- The layout of an envelope; the iv and the tag may have at most 255 bytes each. -/
def build (s : Sealed) : Except EnvelopeError Bytes :=
  if 255 < s.iv.length then .error (.tooLarge .iv s.iv.length)
  else if 255 < s.tag.length then .error (.tooLarge .tag s.tag.length)
  else .ok (.ofNat s.iv.length :: .ofNat s.tag.length :: s.iv ++ s.tag ++ s.ciphertext)

end Envelope

/-- A payload and, when it is an envelope, the id of the key it is sealed with. -/
structure Payload where
  bytes : Bytes
  keyId : Option String
  deriving DecidableEq, Repr

namespace Payload

/-- The frame of an item. -/
def frame (x : Item) : Except EnvelopeError Bytes :=
  match x.toJson? with
  | .ok body => .ok (Frame.write ⟨x.kind.tag, x.kind.schema, body⟩)
  | .error fault => .error (.serialization (.record fault))

/-- The item of kind `k` in a frame: the tag is checked before the schema, and both before the
record is looked at. -/
def readFrame (k : Kind) (input : Bytes) : Except EnvelopeError Item :=
  match Frame.parse input with
  | .error failure => .error (.serialization (.text (failure.locate input)))
  | .ok f =>
    if !k.accepts f.tag then .error (.unexpectedType k.tag f.tag)
    else if k.schema < f.schema then .error (.unsupportedSchema f.tag f.schema k.schema)
    else match Item.ofJson k f.body with
      | .ok x => .ok x
      | .error fault => .error (.serialization (.record fault))

/-- The plain payload of an item. -/
def encodePlain (x : Item) : Except EnvelopeError Payload :=
  (frame x).map (⟨·, none⟩)

/-- The item of kind `k` in a plain payload. -/
def decodePlain (k : Kind) (b : Bytes) : Except EnvelopeError Item := readFrame k b

/-- The sealed payload of an item, bound to an identity. -/
def encodeSealed (c : Cipher) (s : Secret) (nonce : Bytes) (objectRef : String) (version : UInt16)
    (x : Item) : Except EnvelopeError Payload :=
  match frame x with
  | .error e => .error e
  | .ok plaintext =>
    match c.encrypt s nonce plaintext (associatedData objectRef version) with
    | .error e => .error (.encryption e)
    | .ok parts => (Envelope.build parts).map (⟨·, some s.reference⟩)

/-- The item of kind `k` in a sealed payload that is bound to the identity. Nothing that is not
authenticated is read. -/
def decodeSealed (c : Cipher) (k : Kind) (s : Secret) (objectRef : String) (version : UInt16)
    (b : Bytes) : Except EnvelopeError Item :=
  match Envelope.parse b with
  | .error e => .error e
  | .ok parts =>
    match c.decrypt s parts (associatedData objectRef version) with
    | .error e => .error (.decryptionFailed objectRef version e)
    | .ok plaintext => readFrame k plaintext

end Payload

end ObjectTiers
