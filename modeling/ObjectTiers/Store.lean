/-
The store: reads go through memory, cache and table and fill the nearer tiers on the way back;
writes go to the table alone.

Only plain frames of unencrypted kinds and sealed envelopes ever go into the cache. What stands
there is not trusted: an entry that is not the requested object in a form its kind is cached in is
passed over with a warning.
-/
import ObjectTiers.Config
import ObjectTiers.Record.Entry
import ObjectTiers.Store.Action

namespace ObjectTiers

/-- What a store works with beside its tiers. -/
structure Store where
  cipher : Cipher
  provider : Option SecretProvider
  config : Config

/-- How one read departs from the configuration: whether it uses the cache, and the secret that
goes before the provider's. -/
structure ReadOptions where
  useCache : Option Bool
  secret : Option Secret

/-- An item and the tier it came from. -/
structure Fetched where
  item : Item
  tier : Tier

namespace Store

/-- The secret for a key id: the one at hand, whatever its reference, or the provider's. -/
def resolveSecret (s : Store) (key : Key) (keyId : String) (explicit : Option Secret) :
    Except StoreError Secret :=
  match explicit with
  | some secret => .ok secret
  | none =>
    match s.provider with
    | none => .error (.secretRequired key.objectRef key.version (some keyId))
    | some find =>
      match find keyId with
      | .ok secret => .ok secret
      | .error e => .error (.secret e)

/-! ### The cache -/

/-- What becomes of the bytes found in the cache. -/
inductive Verdict
  | hit (x : Item)
  | discard (w : Warning)
  | fail (e : StoreError)

/-- An entry of the requested object and type, by the form it is in. -/
def judgePayload (s : Store) (k : Kind) (key : Key) (explicit : Option Secret) :
    EntryPayload → Verdict
  | .plain frame =>
    if k.isEncrypted then .discard .plainEntry
    else match Payload.decodePlain k frame with
      | .ok x => .hit x
      | .error _ => .discard .undecodableEntry
  | .sealed keyId envelope =>
    if k.encryption.admission ≠ .asCiphertext then .discard .sealedEntry
    else match s.resolveSecret key keyId explicit with
      | .error e => .fail e
      | .ok secret =>
        match Payload.decodeSealed s.cipher k secret key.objectRef key.version envelope with
        | .ok x => .hit x
        | .error e => .fail (.envelope e)

/-- The bytes found under a key, as the object of kind `k`. -/
def judge (s : Store) (k : Kind) (key : Key) (explicit : Option Secret) (bytes : Bytes) :
    Verdict :=
  match Entry.ofBytes? bytes with
  | none => .discard .unreadableEntry
  | some e =>
    if e.objectRef ≠ key.objectRef ∨ e.version ≠ key.version then .discard .otherObject
    else if !k.accepts e.tag then .discard .foreignType
    else s.judgePayload k key explicit e.payload

/-- The object in the cache; none if it is not there, or not to be used. -/
def lookUp (s : Store) (k : Kind) (key : Key) (explicit : Option Secret) :
    Action (Option Item) := do
  match ← Action.onCache (·.get key.text) with
  | .error e => do
    Action.tolerate s.config.policy e
    pure none
  | .ok none => pure none
  | .ok (some bytes) =>
    match s.judge k key explicit bytes with
    | .hit x => pure (some x)
    | .discard w => do
      Action.warn [w]
      pure none
    | .fail e => Action.fail e

/-- The form in which a row of kind `k` goes into the cache, if any, and the warning given. -/
def cacheForm (k : Kind) (key : Key) (row : Row) :
    Except StoreError (Option EntryPayload × List Warning) :=
  match row.keyId, k.encryption.admission with
  | none, .plaintext => .ok (some (.plain row.payload), [])
  | none, _ => .ok (none, [.plainRow])
  | some keyId, .asCiphertext => .ok (some (.sealed keyId row.payload), [])
  | some _, .never => .ok (none, [])
  | some _, .plaintext => .error (.uncacheable k key.text)

/-- Puts an entry into the cache. An entry that has no record counts as a failure of the cache. -/
def writeCache (s : Store) (key : Key) (e : Entry) : Action Unit := do
  match e.encode? with
  | none => Action.tolerate s.config.policy (.operation .set key.text Entry.oversizeMessage)
  | some bytes =>
    match ← Action.onCache (·.set key.text bytes s.config.ttlMilliseconds) with
    | .ok () => pure ()
    | .error e => Action.tolerate s.config.policy e

/-! ### Reading -/

/-- The item of kind `k` in a row. -/
def materialize (s : Store) (k : Kind) (key : Key) (row : Row) (explicit : Option Secret) :
    Except StoreError Item :=
  match row.keyId with
  | some keyId =>
    match s.resolveSecret key keyId explicit with
    | .error e => .error e
    | .ok secret =>
      match Payload.decodeSealed s.cipher k secret row.objectRef row.version row.payload with
      | .ok x => .ok x
      | .error e => .error (.envelope e)
  | none =>
    match Payload.decodePlain k row.payload with
    | .ok x => .ok x
    | .error e => .error (.envelope e)

/-- Reads an object from the table and fills the nearer tiers. -/
def load (s : Store) (k : Kind) (key : Key) (useCache : Bool) (explicit : Option Secret) :
    Action Fetched := do
  match ← Action.tableFind key.objectRef key.version with
  | none => Action.fail (.notFound key.objectRef key.version)
  | some row => do
    let x ← Action.lift id (s.materialize k key row explicit)
    let (cached, ws) ←
      if useCache then Action.lift id (cacheForm k key row) else pure (none, [])
    Action.warn ws
    Action.memoryInsert key.text x
    match cached with
    | some payload => s.writeCache key ⟨row.objectRef, row.version, k.tag, payload⟩
    | none => pure ()
    pure ⟨x, .table⟩

/-- The object of an identity, and the tier it came from. -/
def fetch (s : Store) (k : Kind) (r : String) (v : UInt16) (o : ReadOptions) :
    Action Fetched := do
  let key ← Action.lift .validation (Identity.validate r v)
  match ← Action.memoryGet k key.text with
  | some x => pure ⟨x, .memory⟩
  | none => do
    let useCache := o.useCache.getD s.config.useCache
    match ← if useCache then s.lookUp k key o.secret else pure none with
    | some x => do
      Action.memoryInsert key.text x
      pure ⟨x, .cache⟩
    | none => s.load k key useCache o.secret

/-- The object of an identity. -/
def get (s : Store) (k : Kind) (r : String) (v : UInt16) (o : ReadOptions) : Action Item := do
  let f ← s.fetch k r v o
  pure f.item

/-! ### Writing -/

/-- The payload of an item: sealed if its kind is encrypted, which takes a secret. -/
def encode (s : Store) (x : Item) (secret : Option Secret) (nonce : Bytes) :
    Except StoreError Payload :=
  if x.kind.isEncrypted then
    match secret with
    | none => .error (.secretRequired x.objectRef x.version none)
    | some secret =>
      match Payload.encodeSealed s.cipher secret nonce x.objectRef x.version x with
      | .ok p => .ok p
      | .error e => .error (.envelope e)
  else
    match Payload.encodePlain x with
    | .ok p => .ok p
    | .error e => .error (.envelope e)

/-- Writes an item into the table as of a time. The nearer tiers stay as they are. -/
def put (s : Store) (x : Item) (secret : Option Secret) (nonce : Bytes) (now : Int64) :
    Action Row := do
  let _ ← Action.lift .validation (Identity.validate x.objectRef x.version)
  let p ← Action.lift id (s.encode x secret nonce)
  let row : Row := ⟨x.objectRef, x.version, p.bytes, p.keyId, now⟩
  Action.tableInsert row
  pure row

/-- Removes an object from the memory and the cache. -/
def purge (s : Store) (r : String) (v : UInt16) : Action Unit := do
  let key ← Action.lift .validation (Identity.validate r v)
  Action.onMemory (·.erase key.text)
  match ← Action.onCache (·.delete key.text) with
  | .ok () => pure ()
  | .error e => Action.tolerate s.config.policy e

/-- Removes everything from the memory. -/
def clearMemory : Action Unit := Action.onMemory (·.clear)

/-- How a store shows itself beside its memory. -/
def describe (s : Store) (memory : Memory) : String :=
  "ObjectStore \x7b runtime: " ++ memory.describe ++ ", has_secret_provider: "
    ++ toString s.provider.isSome ++ ", config: " ++ s.config.describe ++ " \x7d"

end Store

end ObjectTiers
