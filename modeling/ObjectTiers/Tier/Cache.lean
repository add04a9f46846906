/-
Tier 1: byte strings under keys, each for a time to live. Durations are in milliseconds, and a
duration of zero means for ever.

`MemoryCache` keeps its own clock; a later `set` of a key decides alone when the key expires. An
entry that has expired is nowhere. Which entries a full cache keeps depends on their usage.
`TrialCache` never expires anything: it counts calls, shows the time to live of an entry, and
fails when told to.
-/
import ObjectTiers.Bytes
import ObjectTiers.Tier.Usage

namespace ObjectTiers

/-- The operations of a cache that can fail. -/
inductive CacheOperation
  | get | set | delete
  deriving DecidableEq, Repr

/-- The name of an operation in messages. -/
def CacheOperation.label : CacheOperation → String
  | .get => "get"
  | .set => "set"
  | .delete => "delete"

/-- Why a cache does not do what it is asked. -/
inductive CacheError
  | unavailable (reason : String)
  | operation (op : CacheOperation) (key reason : String)
  deriving DecidableEq, Repr

/-- The text of an error; an operation that failed names its key. -/
def CacheError.message : CacheError → String
  | .unavailable reason => s!"cache backend unavailable: {reason}"
  | .operation op key reason => s!"cache {op.label} failed for {key}: {reason}"

/-- A byte string and the time it expires at. -/
structure Timed where
  bytes : Bytes
  deadline : Option Nat
  deriving DecidableEq, Repr

/-- A cache in the process. `now` is its own clock, and expired entries may still be among
`entries`. -/
structure MemoryCache where
  capacity : Nat
  now : Nat
  entries : Dictionary String Timed
  usage : Usage

namespace MemoryCache

/-- The entries a cache has room for unless another number is given. -/
def defaultCapacity : Nat := 100000

/-- A new cache with room for `n` entries. -/
def ofCapacity (n : Nat) : MemoryCache := ⟨n, 0, .empty, .empty⟩

/-- Whether the time of an entry has not come yet. -/
def Timed.isAlive (now : Nat) (t : Timed) : Bool :=
  match t.deadline with
  | none => true
  | some d => now < d

/-- The cache when `ms` more milliseconds have gone by. -/
def wait (c : MemoryCache) (ms : Nat) : MemoryCache := { c with now := c.now + ms }

/-- What stands under a key, without asking for it. -/
def get? (c : MemoryCache) (key : String) : Option Bytes :=
  match c.entries.get? key with
  | some t => if Timed.isAlive c.now t then some t.bytes else none
  | none => none

/-- Whether a key has an entry that has not expired. Asking so counts for nothing. -/
def contains (c : MemoryCache) (key : String) : Bool := (c.get? key).isSome

/-- The number of entries that have not expired. -/
def size (c : MemoryCache) : Nat := (c.entries.pairs.filter fun p => Timed.isAlive c.now p.2).length

/-- What stands under a key, and the cache once it was asked for. -/
def get (c : MemoryCache) (key : String) : Option Bytes × MemoryCache :=
  (c.get? key, { c with usage := c.usage.read key })

/-- How long an entry lives that is the first under its key; none is for ever. -/
def lifeOfFirst (ttl : Option Nat) : Option Nat := ttl

/-- How long an entry lives that takes the place of another, which had so much time left. -/
def lifeOfNext (ttl _left : Option Nat) : Option Nat := ttl

/-- When an entry expires that is written now. -/
def deadline (c : MemoryCache) (key : String) (ttl : Nat) : Option Nat :=
  let ttl := if ttl = 0 then none else some ttl
  let life := match c.entries.get? key with
    | none => lifeOfFirst ttl
    | some t => lifeOfNext ttl (t.deadline.map (· - c.now))
  life.map (c.now + ·)

/-- What a key held before does not matter. -/
@[simp] theorem deadline_eq (c : MemoryCache) (key : String) (ttl : Nat) :
    c.deadline key ttl = if ttl = 0 then none else some (c.now + ttl) := by
  unfold deadline lifeOfFirst lifeOfNext
  cases c.entries.get? key <;> by_cases h : ttl = 0 <;> simp [h]

/-- Writes an entry where it has a place; `ttl` is its time to live. -/
def set (c : MemoryCache) (key : String) (bytes : Bytes) (ttl : Nat) : MemoryCache :=
  { c with
    entries := (c.usage.placement c.capacity c.size c.contains key).insert c.entries key
      ⟨bytes, c.deadline key ttl⟩
    usage := c.usage.write key }

/-- Removes the entry of a key, if there is one. -/
def delete (c : MemoryCache) (key : String) : MemoryCache :=
  { c with entries := c.entries.erase key }

/-- The cache as the next operation finds it. -/
def settle (c : MemoryCache) : MemoryCache := { c with usage := c.usage.settle c.capacity c.size }

/-- How a cache shows itself. -/
def describe (c : MemoryCache) : String :=
  "MemoryCache \x7b entries: " ++ toString c.size ++ " \x7d"

end MemoryCache

/-- What a trial cache is told to fail at. -/
structure CacheFailures where
  get : Bool
  set : Bool
  delete : Bool
  deriving DecidableEq, Repr

/-- How often each operation was called. -/
structure CacheCalls where
  get : Nat
  set : Nat
  delete : Nat
  deriving DecidableEq, Repr

/-- A cache to try things on. It counts calls, shows times to live, and fails when told to. -/
structure TrialCache where
  entries : Dictionary String (Bytes × Nat)
  calls : CacheCalls
  failures : CacheFailures

namespace TrialCache

/-- A cache that was never called and fails at nothing. -/
def empty : TrialCache := ⟨.empty, ⟨0, 0, 0⟩, ⟨false, false, false⟩⟩

/-- The failure that a trial cache was told of. -/
def injected (op : CacheOperation) (key : String) : CacheError :=
  .operation op key "injected failure"

/-- The bytes under a key, without counting a call. -/
def peek (c : TrialCache) (key : String) : Option Bytes := (c.entries.get? key).map (·.1)

/-- The time to live the entry of a key was written with. -/
def ttl? (c : TrialCache) (key : String) : Option Nat := (c.entries.get? key).map (·.2)

/-- Whether a key has an entry, without counting a call. -/
def contains (c : TrialCache) (key : String) : Bool := c.entries.contains key

/-- The number of entries. -/
def size (c : TrialCache) : Nat := c.entries.size

/-- Puts bytes under a key, without counting a call. -/
def place (c : TrialCache) (key : String) (bytes : Bytes) (ttl : Nat) : TrialCache :=
  { c with entries := c.entries.insert key (bytes, ttl) }

/-- Starts the counts of calls anew. -/
def resetCalls (c : TrialCache) : TrialCache := { c with calls := ⟨0, 0, 0⟩ }

/-- The bytes under a key, unless it is told to fail at that. -/
def get (c : TrialCache) (key : String) : Except CacheError (Option Bytes) × TrialCache :=
  let c := { c with calls := { c.calls with get := c.calls.get + 1 } }
  if c.failures.get then (.error (injected .get key), c) else (.ok (c.peek key), c)

/-- Puts bytes under a key, unless it is told to fail at that. -/
def set (c : TrialCache) (key : String) (bytes : Bytes) (ttl : Nat) :
    Except CacheError Unit × TrialCache :=
  let c := { c with calls := { c.calls with set := c.calls.set + 1 } }
  if c.failures.set then (.error (injected .set key), c) else (.ok (), c.place key bytes ttl)

/-- Removes a key, unless it is told to fail at that. -/
def delete (c : TrialCache) (key : String) : Except CacheError Unit × TrialCache :=
  let c := { c with calls := { c.calls with delete := c.calls.delete + 1 } }
  if c.failures.delete then (.error (injected .delete key), c)
  else (.ok (), { c with entries := c.entries.erase key })

end TrialCache

/-- The caches that a store may have. -/
inductive Cache
  | memory (c : MemoryCache)
  | trial (c : TrialCache)

namespace Cache

/-- What stands under a key, and the cache once it was asked for. -/
def get (c : Cache) (key : String) : Except CacheError (Option Bytes) × Cache :=
  match c with
  | .memory m => let (b, m) := m.get key; (.ok b, .memory m)
  | .trial t => let (r, t) := t.get key; (r, .trial t)

/-- Writes bytes under a key, for a time to live. -/
def set (c : Cache) (key : String) (bytes : Bytes) (ttl : Nat) : Except CacheError Unit × Cache :=
  match c with
  | .memory m => (.ok (), .memory (m.set key bytes ttl))
  | .trial t => let (r, t) := t.set key bytes ttl; (r, .trial t)

/-- Removes a key. -/
def delete (c : Cache) (key : String) : Except CacheError Unit × Cache :=
  match c with
  | .memory m => (.ok (), .memory (m.delete key))
  | .trial t => let (r, t) := t.delete key; (r, .trial t)

/-- What stands under a key, without asking for it: the view of a cache. -/
def peek (c : Cache) (key : String) : Option Bytes :=
  match c with
  | .memory m => m.get? key
  | .trial t => t.peek key

/-- Puts bytes under a key for ever, without counting a call. -/
def place (c : Cache) (key : String) (bytes : Bytes) : Cache :=
  match c with
  | .memory m => .memory (m.set key bytes 0)
  | .trial t => .trial (t.place key bytes 0)

/-- The number of entries that have not expired. -/
def size : Cache → Nat
  | .memory m => m.size
  | .trial t => t.size

/-- The cache as the next operation finds it. -/
def settle : Cache → Cache
  | .memory m => .memory m.settle
  | .trial t => .trial t

end Cache

end ObjectTiers
