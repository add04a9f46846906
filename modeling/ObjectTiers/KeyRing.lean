/-
Key rings: secrets by their references, and the text form `id=key,id=key` of a ring.

The text is cut at commas; blanks around a piece, an id or a key do not count, and empty pieces
are passed over. A later piece with the same id replaces an earlier one.
-/
import ObjectTiers.Secret
import ObjectTiers.Text.Blank

namespace ObjectTiers

/-- The secrets of a ring in ascending order of their references, each reference once. -/
structure KeyRing where
  secrets : List (String × Secret)

namespace KeyRing

/-- A ring without secrets. -/
def empty : KeyRing := ⟨[]⟩

/-- Secrets in ascending order with `s` in its place, in the stead of one with its reference. -/
def insertSecret (s : Secret) : List (String × Secret) → List (String × Secret)
  | [] => [(s.reference, s)]
  | (k, t) :: r =>
    if s.reference < k then (s.reference, s) :: (k, t) :: r
    else if s.reference = k then (k, s) :: r
    else (k, t) :: insertSecret s r

/-- The ring with a secret added, or put in the place of the one with its reference. -/
def insert (ring : KeyRing) (s : Secret) : KeyRing := ⟨insertSecret s ring.secrets⟩

/-- The ring of a list of secrets; of two with one reference the later counts. -/
def ofSecrets (secrets : List Secret) : KeyRing := secrets.foldl insert empty

/-- The secret of a key id, if it is in the ring. -/
def get? (ring : KeyRing) (keyId : String) : Option Secret := ring.secrets.lookup keyId

/-- Whether a key id has a secret. -/
def contains (ring : KeyRing) (keyId : String) : Bool := (ring.get? keyId).isSome

/-- The ring without the secret of a key id. -/
def erase (ring : KeyRing) (keyId : String) : KeyRing :=
  ⟨ring.secrets.filter fun p => p.1 != keyId⟩

/-- The number of secrets. -/
def size (ring : KeyRing) : Nat := ring.secrets.length

/-- The secret of a key id; the ring as a provider. -/
def resolve (ring : KeyRing) : SecretProvider := fun keyId =>
  match ring.get? keyId with
  | some s => .ok s
  | none => .error (.unknownKey keyId)

/-- How a ring shows itself: its key ids in ascending order. -/
def describe (ring : KeyRing) : String :=
  "KeyRing \x7b key_ids: [" ++ String.intercalate ", " (ring.secrets.map fun p => Text.quoted p.1)
    ++ "] \x7d"

/-! ### The text form -/

/-- The pieces of a text between commas. -/
def pieces (cs : List Char) : List (List Char) := cs.splitOn ','

/-- A piece as it is quoted in a message: the id alone. -/
def redact (piece : List Char) : String :=
  if piece.contains '=' then String.ofList (piece.takeWhile (· != '=')) ++ "=<redacted>"
  else "<redacted>"

/-- The secret of one trimmed piece. -/
def readPiece (piece : List Char) : Except SecretError Secret :=
  if !piece.contains '=' then .error (.malformed (redact piece))
  else
    let keyId := Text.trimChars (piece.takeWhile (· != '='))
    if keyId.isEmpty then .error (.malformed (redact piece))
    else
      let keyId := String.ofList keyId
      let encoded := Text.trimChars ((piece.dropWhile (· != '=')).drop 1)
      match Text.Base64.decode (Bytes.ofText (String.ofList encoded)) with
      | .error f => .error (.invalidKeyMaterial keyId (.encoding f))
      | .ok key => Secret.ofBytes keyId key

/-- The ring a text lists. -/
def parse (text : String) : Except SecretError KeyRing := do
  let listed := ((pieces text.toList).map Text.trimChars).filter fun p => !p.isEmpty
  let secrets ← listed.mapM readPiece
  pure (ofSecrets secrets)

end KeyRing

end ObjectTiers
