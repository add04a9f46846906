/-
Secrets: a key of 32 bytes under the reference it is looked up by, and what can go wrong in
finding one. Messages never show a key.
-/
import ObjectTiers.Bytes
import ObjectTiers.Text.Base64
import ObjectTiers.Text.Quoted

namespace ObjectTiers

/-- The bytes of a key. -/
def keySize : Nat := 32

/-- A key and the reference it is looked up by. -/
structure Secret where
  reference : String
  key : Bytes
  key_length : key.length = keySize

/-- Why bytes or a text are no key. -/
inductive KeyFault
  | length (actual : Nat)
  | encoding (fault : Text.Base64.Fault)
  deriving DecidableEq, Repr

/-- Why there is no secret for a key id, or why a text lists none. -/
inductive SecretError
  | unknownKey (keyId : String)
  | invalidKeyMaterial (keyId : String) (fault : KeyFault)
  | malformed (entry : String)
  deriving DecidableEq, Repr

/-- The text of a fault. -/
def KeyFault.message : KeyFault → String
  | .length actual => s!"expected {keySize} bytes, got {actual}"
  | .encoding f => f.message

/-- The text of an error. -/
def SecretError.message : SecretError → String
  | .unknownKey keyId => s!"unknown secret key id: {keyId}"
  | .invalidKeyMaterial keyId f => s!"invalid key material for {keyId}: " ++ f.message
  | .malformed entry =>
    "malformed key ring entry " ++ Text.quoted entry ++ ": expected id=base64key"

namespace Secret

/-- The secret of a reference and the bytes of a key. -/
def ofBytes (reference : String) (key : Bytes) : Except SecretError Secret :=
  if h : key.length = keySize then .ok ⟨reference, key, h⟩
  else .error (.invalidKeyMaterial reference (.length key.length))

/-- How a secret shows itself. -/
def describe (s : Secret) : String :=
  "Secret \x7b reference: " ++ Text.quoted s.reference ++ ", key: \"<redacted>\" \x7d"

end Secret

/-- Finds the secret of a key id. -/
abbrev SecretProvider := String → Except SecretError Secret

end ObjectTiers
