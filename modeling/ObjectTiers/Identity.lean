/-
Identities of objects: a reference and a version, and the cache key of a valid pair.

A reference has 1 to 128 bytes, all of them letters, digits, `_`, `.` or `-`; it neither starts
with a point nor holds two in a row. Versions count from 1.
-/
import ObjectTiers.Bytes
import ObjectTiers.Text.Decimal
import ObjectTiers.Text.Quoted

namespace ObjectTiers

/-- Why an identity is not valid; positions count bytes. -/
inductive ValidationError
  | emptyRef
  | refTooLong (length : Nat)
  | invalidCharacter (char : Char) (position : Nat)
  | pathTraversal (objectRef : String)
  | zeroVersion
  | versionOutOfRange (value : Nat)
  deriving DecidableEq, Repr

namespace Identity

/-- The most bytes a reference may have. -/
def maxRefLength : Nat := 128

/-- The digits a version is written with at least. -/
def versionWidth : Nat := 5

/-- What every key starts with, before its first colon. -/
def keyHead : String := "objectStore"

end Identity

/-- The text of an error. A character and a reference are quoted, a number is not. -/
def ValidationError.message : ValidationError → String
  | .emptyRef => "object ref must not be empty"
  | .refTooLong n => s!"object ref is {n} bytes long, maximum is {Identity.maxRefLength}"
  | .invalidCharacter c position =>
    "object ref contains invalid character " ++ Text.quotedOne c ++ s!" at byte {position}"
  | .pathTraversal r => "object ref " ++ Text.quoted r ++ " contains a path traversal sequence"
  | .zeroVersion => "object version must be between 1 and 65535, got 0"
  | .versionOutOfRange value => s!"object version must be between 1 and 65535, got {value}"

/-- The key of a valid identity. -/
structure Key where
  objectRef : String
  version : UInt16
  deriving DecidableEq, Repr

namespace Key

/-- The text of a key, under which an object stands in the memory and the cache. -/
def text (k : Key) : String :=
  Identity.keyHead ++ ":" ++ k.objectRef ++ ":"
    ++ String.ofList (Text.paddedDigits Identity.versionWidth k.version.toNat)

/-- Keys are ordered by their texts, then by the length of the reference, then by version. -/
def compare (a b : Key) : Ordering :=
  (Ord.compare a.text b.text).then
    ((Ord.compare a.objectRef.utf8ByteSize b.objectRef.utf8ByteSize).then
      (Ord.compare a.version.toNat b.version.toNat))

/-- Keys in ascending order. -/
def sort (keys : List Key) : List Key := keys.mergeSort fun a b => (a.compare b).isLE

end Key

namespace Identity

/-- The characters of the pattern that references match: three ranges and three single ones. -/
def isPatternChar (c : Char) : Bool :=
  'A' ≤ c && c ≤ 'Z' || 'a' ≤ c && c ≤ 'z' || '0' ≤ c && c ≤ '9' || ['_', '.', '-'].contains c

/-- Whether a text is one character of the pattern or more, from its start to its very end. -/
def matchesPattern (cs : List Char) : Bool := !cs.isEmpty && cs.all isPatternChar

/-- Whether a character may stand in a reference, tested by itself and not by the pattern. -/
def isRefChar (c : Char) : Bool :=
  c.isAlphanum || c == '_' || c == '.' || c == '-'

/-- The first character that may not stand in a reference, with its offset in bytes. -/
def invalidChar? : Nat → List Char → Option (Char × Nat)
  | _, [] => none
  | offset, c :: r => if isRefChar c then invalidChar? (offset + c.utf8Size) r else some (c, offset)

/-- The character that is blamed where none can be found. -/
def noChar : Char × Nat := ('\x00', 0)

/-- Two points in a row. -/
def hasDoublePoint : List Char → Bool
  | '.' :: '.' :: _ => true
  | _ :: r => hasDoublePoint r
  | [] => false

/-- Checks a reference; of several faults the first in the order of these lines is reported. -/
def validateRef (r : String) : Except ValidationError Unit :=
  if r.isEmpty then .error .emptyRef
  else if maxRefLength < r.utf8ByteSize then .error (.refTooLong r.utf8ByteSize)
  else if !matchesPattern r.toList then
    let (c, offset) := (invalidChar? 0 r.toList).getD noChar
    .error (.invalidCharacter c offset)
  else if r.toList.head? = some '.' || hasDoublePoint r.toList then .error (.pathTraversal r)
  else .ok ()

/-- The key of an identity, if it is valid. -/
def validate (r : String) (version : UInt16) : Except ValidationError Key :=
  match validateRef r with
  | .error e => .error e
  | .ok () => if version = 0 then .error .zeroVersion else .ok ⟨r, version⟩

/-- A version from a number of any size. -/
def versionOfNat (n : Nat) : Except ValidationError UInt16 :=
  if n = 0 then .error .zeroVersion
  else if n < UInt16.size then .ok (.ofNat n)
  else .error (.versionOutOfRange n)

end Identity

end ObjectTiers
