/-
The three tiers an object may come from, and what the store warns of on the way.
-/

namespace ObjectTiers

/-- Where an object was found, the nearest tier first. -/
inductive Tier
  | memory
  | cache
  | table
  deriving DecidableEq, Repr

namespace Tier

/-- The name of a tier as reads report it. -/
def label : Tier → String
  | memory => "HIT_RUNTIME"
  | cache => "HIT_CACHE"
  | table => "HIT_DATABASE"

/-- Nearer tiers have lower levels. -/
def level : Tier → Nat
  | memory => 0
  | cache => 1
  | table => 2

/-- Whether the tier is outside the process. -/
def isRemote : Tier → Bool
  | memory => false
  | _ => true

end Tier

/-- What the store goes on without, having met it. -/
inductive Warning
  | cacheFailure
  | otherType
  | unreadableEntry
  | otherObject
  | foreignType
  | plainEntry
  | undecodableEntry
  | sealedEntry
  | plainRow
  | misplacedRow
  deriving DecidableEq, Repr

/-- The text of a warning. -/
def Warning.message : Warning → String
  | .cacheFailure => "Cache backend error, continuing without cache"
  | .otherType => "Runtime entry holds a different type, evicting"
  | .unreadableEntry => "Discarding unreadable cache entry"
  | .otherObject => "Discarding cache entry for another object"
  | .foreignType => "Discarding cache entry of foreign type"
  | .plainEntry => "Discarding plaintext cache entry for an encrypted type"
  | .undecodableEntry => "Discarding undecodable cache entry"
  | .sealedEntry => "Discarding envelope cache entry for a type not cached as ciphertext"
  | .plainRow => "Plain row for an encrypted type, not caching"
  | .misplacedRow => "Row identity does not match its location"

end ObjectTiers
