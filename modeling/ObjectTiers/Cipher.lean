/-
Authenticated encryption. A cipher is a pair of functions: `encrypt` under a secret and a nonce,
and `decrypt`, which refuses whatever was not encrypted under the same secret and associated data.

Beside ChaCha20-Poly1305 there are two ciphers for trying a store out: one that always fails and
one that leaves the plaintext as it is.
-/
import ObjectTiers.Cipher.ChaCha20
import ObjectTiers.Cipher.Poly1305
import ObjectTiers.Secret

namespace ObjectTiers

/-- Why a cipher does not do what it is asked. -/
inductive CipherError
  | nonceLength (actual : Nat)
  | tagLength (actual : Nat)
  | encryptionFailed
  | authenticationFailed
  deriving DecidableEq, Repr

/-- The bytes of a nonce of ChaCha20-Poly1305. -/
def nonceSize : Nat := 12

/-- The bytes of a tag of ChaCha20-Poly1305. -/
def tagSize : Nat := 16

/-- The text of an error. Nothing is said of which part of a message was not authentic. -/
def CipherError.message : CipherError → String
  | .nonceLength actual => s!"invalid nonce length: expected {nonceSize} bytes, got {actual}"
  | .tagLength actual => s!"invalid tag length: expected {tagSize} bytes, got {actual}"
  | .encryptionFailed => "encryption failed"
  | .authenticationFailed => "authentication failed"

/-- A ciphertext with what its decryption needs beside the secret. -/
structure Sealed where
  iv : Bytes
  tag : Bytes
  ciphertext : Bytes
  deriving DecidableEq, Repr

/-- Encryption of a plaintext that is bound to associated data, and its inverse, either of which may
refuse. -/
structure Cipher where
  /-- The nonce is drawn by the caller; the associated data come last. -/
  encrypt : Secret → Bytes → Bytes → Bytes → Except CipherError Sealed
  /-- The associated data come last. -/
  decrypt : Secret → Sealed → Bytes → Except CipherError Bytes

namespace Cipher

/-! ### ChaCha20-Poly1305 -/

/-- Zeros up to a multiple of sixteen bytes. -/
def padding (b : Bytes) : Bytes := List.replicate ((16 - b.length % 16) % 16) 0

/-- What the tag is taken over. -/
def authenticated (aad ciphertext : Bytes) : Bytes :=
  aad ++ padding aad ++ ciphertext ++ padding ciphertext
    ++ Bytes.littleBytes 8 aad.length ++ Bytes.littleBytes 8 ciphertext.length

/-- The tag of a ciphertext and its associated data. -/
def chaChaTag (key nonce aad ciphertext : Bytes) : Bytes :=
  Poly1305.tag ((ChaCha20.block key nonce 0).take 32) (authenticated aad ciphertext)

/-- ChaCha20-Poly1305. Decryption checks the lengths first, the nonce before the tag, and decrypts
nothing under a wrong tag. -/
def chaCha : Cipher where
  encrypt secret nonce plaintext aad :=
    let ciphertext := ChaCha20.apply secret.key nonce plaintext
    .ok ⟨nonce, chaChaTag secret.key nonce aad ciphertext, ciphertext⟩
  decrypt secret sealed aad :=
    if sealed.iv.length ≠ nonceSize then .error (.nonceLength sealed.iv.length)
    else if sealed.tag.length ≠ tagSize then .error (.tagLength sealed.tag.length)
    else if chaChaTag secret.key sealed.iv aad sealed.ciphertext ≠ sealed.tag then
      .error .authenticationFailed
    else .ok (ChaCha20.apply secret.key sealed.iv sealed.ciphertext)

/-! ### Ciphers for trials -/

/-- Always fails. -/
def failing : Cipher where
  encrypt _ _ _ _ := .error .encryptionFailed
  decrypt _ _ _ := .error .authenticationFailed

/-- Leaves the plaintext as it is, with an iv and a tag of given lengths. -/
def passThrough (ivLength tagLength : Nat) : Cipher where
  encrypt _ _ plaintext _ :=
    .ok ⟨List.replicate ivLength 0xa1, List.replicate tagLength 0xb2, plaintext⟩
  decrypt _ sealed _ :=
    if sealed.iv.length = ivLength ∧ sealed.tag.length = tagLength then .ok sealed.ciphertext
    else .error .authenticationFailed

end Cipher

/-- The associated data of an identity: the length of the reference in sixteen bits, the
reference, and the version. -/
def associatedData (objectRef : String) (version : UInt16) : Bytes :=
  let ref := Bytes.ofText objectRef
  Bytes.bigBytes 2 ref.length ++ ref ++ Bytes.bigBytes 2 version.toNat

end ObjectTiers
