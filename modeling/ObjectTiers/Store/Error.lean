/-
What an operation of a store may fail with. Damage to stored data is told apart from everything
else, and a missing object from both.
-/
import ObjectTiers.Tier.Cache
import ObjectTiers.Tier.Table

namespace ObjectTiers

/-- What an operation of a store may fail with: what its parts fail with, and that an object is
missing, that a secret is, or that an item must not be cached. -/
inductive StoreError
  | validation (cause : ValidationError)
  | notFound (objectRef : String) (version : UInt16)
  | envelope (cause : EnvelopeError)
  | table (cause : TableError)
  | cache (cause : CacheError)
  | secretRequired (objectRef : String) (version : UInt16) (keyId : Option String)
  | secret (cause : SecretError)
  | uncacheable (kind : Kind) (key : String)
  deriving DecidableEq, Repr

namespace StoreError

/-- The text of an error, as far as it has one of its own. -/
def message? : StoreError → Option String
  | validation cause => some cause.message
  | notFound r v => some s!"object not found: {r} v{v.toNat}"
  | envelope cause => some cause.message
  | table cause => cause.message?
  | cache cause => some cause.message
  | secretRequired r v _ => some s!"a secret is required for {r} v{v.toNat}"
  | secret cause => some cause.message
  | uncacheable k key =>
    some s!"logic error: cannot cache encrypted object of this class: {k.tag} ({key})"

/-- Whether an object is missing, rather than damaged or out of reach. -/
def isNotFound : StoreError → Bool
  | notFound _ _ => true
  | _ => false

/-- The errors of envelopes and frames that stand for damaged data. -/
def isIntegrityFailure : StoreError → Bool
  | envelope (.corrupt _) => true
  | envelope (.decryptionFailed _ _ _) => true
  | envelope (.unexpectedType _ _) => true
  | envelope (.unsupportedSchema _ _ _) => true
  | envelope (.serialization _) => true
  | _ => false

end StoreError

end ObjectTiers
