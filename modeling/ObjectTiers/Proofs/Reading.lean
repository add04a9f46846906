/-
The ways a read and a write of a store can go, each with the result and the tiers it leaves behind.

A look-up in the cache `Probes` it, a read that came to the table `Loads` from it, and `Fetches`
puts the two behind the memory; `fetch_cases`, `put_cases` and `purge_cases` say that nothing else
happens. What is proved of a run opens these and never the operations themselves.
-/
import ObjectTiers.Cluster
import ObjectTiers.Proofs.Tier.Cache
import ObjectTiers.Proofs.Tier.Table

namespace ObjectTiers

/-! ### Actions -/

namespace Action

variable {α β : Type} {x : Action α} {f : α → Action β} {σ σ' : Session}

theorem bind_ok {a : α} (h : x σ = (.ok a, σ')) : (x >>= f) σ = f a σ' := by
  show Action.bind x f σ = _
  rw [Action.bind, h]

theorem bind_error {e : StoreError} (h : x σ = (.error e, σ')) : (x >>= f) σ = (.error e, σ') := by
  show Action.bind x f σ = _
  rw [Action.bind, h]

theorem ite_bind (b : Bool) (x y : Action α) (f : α → Action β) :
    (if b then x >>= f else y >>= f) = (if b then x else y) >>= f := by
  cases b <;> rfl

/-- The session after a look-up in the table. -/
def found (σ : Session) (r : String) (v : UInt16) : Session :=
  ⟨{ σ.tiers with table := (σ.tiers.table.find r v).2.1 },
    σ.warnings ++ (σ.tiers.table.find r v).2.2⟩

theorem tableFind_ok {r : String} {v : UInt16} {o : Option Row}
    (h : (σ.tiers.table.find r v).1 = .ok o) :
    Action.tableFind r v σ = (.ok o, found σ r v) := by
  simp only [tableFind, h, found]

theorem tableFind_error {r : String} {v : UInt16} {e : TableError}
    (h : (σ.tiers.table.find r v).1 = .error e) :
    Action.tableFind r v σ = (.error (.table e), found σ r v) := by
  simp only [tableFind, h, found]

end Action

/-- What becomes of an action that meets a failure of the cache. -/
def Policy.outcome (p : Policy) (e : CacheError) : Except StoreError Unit :=
  match p.handle e with
  | .ok _ => .ok ()
  | .error e => .error (.cache e)

theorem Action.tolerate_eq (p : Policy) (e : CacheError) (σ : Session) :
    ∃ ws, Action.tolerate p e σ = (p.outcome e, ⟨σ.tiers, ws⟩) := by
  cases p <;> exact ⟨_, rfl⟩

namespace Store

/-! ### Rows and entries -/

/-- A row as a payload. -/
def toPayload (row : Row) : Payload := ⟨row.payload, row.keyId⟩

/-- What stands in an entry, as a payload. -/
def entryPayload : EntryPayload → Payload
  | .plain frame => ⟨frame, none⟩
  | .sealed keyId envelope => ⟨envelope, some keyId⟩

/-- The item in an envelope that is bound to the identity of a key, opened with the secret of its
key id. -/
def opened (s : Store) (k : Kind) (key : Key) (keyId : String) (explicit : Option Secret)
    (envelope : Bytes) : Except StoreError Item :=
  (s.resolveSecret key keyId explicit).bind fun t =>
    (Payload.decodeSealed s.cipher k t key.objectRef key.version envelope).mapError .envelope

theorem materialize_plain {s : Store} {k : Kind} {key : Key} {row : Row} {secret : Option Secret}
    (hid : row.keyId = none) :
    s.materialize k key row secret = (Payload.decodePlain k row.payload).mapError .envelope := by
  simp only [materialize, hid]
  cases Payload.decodePlain k row.payload <;> rfl

/-- A sealed row of the identity that was asked for is opened under that identity. -/
theorem materialize_sealed {s : Store} {k : Kind} {key : Key} {row : Row} {keyId : String}
    {secret : Option Secret} (hid : row.keyId = some keyId)
    (hown : row.objectRef = key.objectRef ∧ row.version = key.version) :
    s.materialize k key row secret = s.opened k key keyId secret row.payload := by
  simp only [materialize, opened, hid, hown.1, hown.2]
  cases s.resolveSecret key keyId secret with
  | error e => rfl
  | ok t =>
    simp only [Except.bind]
    cases Payload.decodeSealed s.cipher k t key.objectRef key.version row.payload <;> rfl

theorem materialize_ok {s : Store} {k : Kind} {key : Key} {row : Row} {secret : Option Secret}
    {x : Item} (h : s.materialize k key row secret = .ok x) :
    (row.keyId = none ∧ Payload.decodePlain k row.payload = .ok x) ∨
    ∃ keyId t, row.keyId = some keyId ∧ s.resolveSecret key keyId secret = .ok t ∧
      Payload.decodeSealed s.cipher k t row.objectRef row.version row.payload = .ok x := by
  unfold materialize at h
  split at h
  · next keyId hid =>
    split at h
    · cases h
    · next t ht =>
      split at h
      · next y hy => cases h; exact .inr ⟨keyId, t, hid, ht, hy⟩
      · cases h
  · next hid =>
    split at h
    · next y hy => cases h; exact .inl ⟨hid, hy⟩
    · cases h

/-- A hit is an entry of the object that was asked for, of a type its kind is read from, and in the
form its kind is cached in. -/
theorem judge_hit {s : Store} {k : Kind} {key : Key} {secret : Option Secret} {b : Bytes} {x : Item}
    (h : s.judge k key secret b = .hit x) : ∃ e, Entry.ofBytes? b = some e ∧
      e.objectRef = key.objectRef ∧ e.version = key.version ∧ k.accepts e.tag = true ∧
      ((∃ frame, e.payload = .plain frame ∧ k.isEncrypted = false ∧
        Payload.decodePlain k frame = .ok x) ∨
      ∃ keyId envelope t, e.payload = .sealed keyId envelope ∧
        k.encryption.admission = .asCiphertext ∧ s.resolveSecret key keyId secret = .ok t ∧
        Payload.decodeSealed s.cipher k t key.objectRef key.version envelope = .ok x) := by
  unfold judge at h
  split at h
  · cases h
  next e he =>
  split at h
  · cases h
  next hid =>
  split at h
  · cases h
  next htag =>
  have hid : e.objectRef = key.objectRef ∧ e.version = key.version := by
    constructor
    · exact Classical.byContradiction fun hne => hid (.inl hne)
    · exact Classical.byContradiction fun hne => hid (.inr hne)
  refine ⟨e, he, hid.1, hid.2, by simpa using htag, ?_⟩
  unfold judgePayload at h
  split at h
  · next frame hp =>
    split at h
    · cases h
    · next hkind =>
      split at h
      · next y hy => cases h; exact .inl ⟨frame, hp, by simpa using hkind, hy⟩
      · cases h
  · next keyId envelope hp =>
    split at h
    · cases h
    · next hkind =>
      split at h
      · cases h
      · next t ht =>
        split at h
        · next y hy =>
          cases h
          exact .inr ⟨keyId, envelope, t, hp, Classical.byContradiction hkind, ht, hy⟩
        · cases h

/-! ### The cache -/

/-- What a look-up in the cache comes to with what was found there. -/
def Verdict.outcome : Verdict → Except StoreError (Option Item)
  | .hit x => .ok (some x)
  | .discard _ => .ok none
  | .fail e => .error e

/-- An envelope in the cache is opened like one in a row, if its kind is cached in that form. -/
theorem judgePayload_sealed {s : Store} {k : Kind} {key : Key} {keyId : String}
    {secret : Option Secret} {envelope : Bytes} (hkind : k.encryption = .cacheEncrypted) :
    (s.judgePayload k key secret (.sealed keyId envelope)).outcome =
      (s.opened k key keyId secret envelope).map some := by
  simp only [judgePayload, opened, hkind, Encryption.admission]
  cases s.resolveSecret key keyId secret with
  | error e => rfl
  | ok t =>
    simp only [Except.bind]
    cases Payload.decodeSealed s.cipher k t key.objectRef key.version envelope <;> rfl

/-- A look-up in the cache, if it is used: its result and the cache it leaves behind. -/
inductive Probes (s : Store) (k : Kind) (key : Key) (secret : Option Secret) :
    Bool → Cache → Except StoreError (Option Item) → Cache → Prop
  | unused (c : Cache) : Probes s k key secret false c (.ok none) c
  | failed {c c' : Cache} {e : CacheError} (h : c.get key.text = (.error e, c')) :
    Probes s k key secret true c ((s.config.policy.outcome e).map fun _ => none) c'
  | absent {c c' : Cache} (h : c.get key.text = (.ok none, c')) :
    Probes s k key secret true c (.ok none) c'
  | found {c c' : Cache} {b : Bytes} (h : c.get key.text = (.ok (some b), c')) :
    Probes s k key secret true c (s.judge k key secret b).outcome c'

/-- Writing an entry into the cache: the result and the cache it leaves behind. -/
inductive Writes (s : Store) (key : Key) (e : Entry) :
    Cache → Except StoreError Unit → Cache → Prop
  | oversize {c : Cache} (h : e.encode? = none) :
    Writes s key e c (s.config.policy.outcome (.operation .set key.text Entry.oversizeMessage)) c
  | failed {c c' : Cache} {b : Bytes} {err : CacheError} (hb : e.encode? = some b)
    (h : c.set key.text b s.config.ttlMilliseconds = (.error err, c')) :
    Writes s key e c (s.config.policy.outcome err) c'
  | written {c c' : Cache} {b : Bytes} (hb : e.encode? = some b)
    (h : c.set key.text b s.config.ttlMilliseconds = (.ok (), c')) :
    Writes s key e c (.ok ()) c'

namespace Probes

variable {s : Store} {k : Kind} {key : Key} {secret : Option Secret} {useCache : Bool}
  {c c' : Cache} {res : Except StoreError (Option Item)}

/-- A look-up does no more to the cache than asking for the key. -/
theorem cache_eq (h : Probes s k key secret useCache c res c') :
    c' = c ∨ c' = (c.get key.text).2 := by
  cases h with
  | unused c => exact .inl rfl
  | failed h | absent h | found h => exact .inr (by rw [h])

theorem peek_eq (h : Probes s k key secret useCache c res c') : c'.peek = c.peek := by
  rcases h.cache_eq with rfl | rfl
  · rfl
  · exact c.peek_get key.text

theorem fails_eq (h : Probes s k key secret useCache c res c') : c'.fails = c.fails := by
  rcases h.cache_eq with rfl | rfl
  · rfl
  · exact c.fails_get key.text

theorem setCalls_eq (h : Probes s k key secret useCache c res c') : c'.setCalls = c.setCalls := by
  rcases h.cache_eq with rfl | rfl
  · rfl
  · exact c.setCalls_get key.text

theorem judge_of_hit {x : Item} (h : Probes s k key secret useCache c (.ok (some x)) c') :
    useCache = true ∧ ∃ b, (c.get key.text).1 = .ok (some b) ∧ c.peek key.text = some b ∧
      s.judge k key secret b = .hit x := by
  generalize hres : (Except.ok (some x) : Except StoreError (Option Item)) = res at h
  cases h with
  | unused c => cases hres
  | absent h => cases hres
  | failed h =>
    rename_i e
    cases hout : s.config.policy.outcome e <;> rw [hout] at hres <;> cases hres
  | found h =>
    rename_i b
    refine ⟨rfl, b, by rw [h], (Cache.get_ok h).1.symm, ?_⟩
    cases hj : s.judge k key secret b <;> rw [hj] at hres <;> cases hres
    rfl

end Probes

/-- A write of an entry does no more to the cache than setting its record under the key. -/
theorem Writes.cache_eq {s : Store} {key : Key} {e : Entry} {c c' : Cache}
    {r : Except StoreError Unit} (h : Writes s key e c r c') :
    c' = c ∨ ∃ b, e.encode? = some b ∧ c' = (c.set key.text b s.config.ttlMilliseconds).2 := by
  cases h with
  | oversize h => exact .inl rfl
  | failed hb h => exact .inr ⟨_, hb, by rw [h]⟩
  | written hb h => exact .inr ⟨_, hb, by rw [h]⟩

/-- What stands in the cache after a write of an entry stood there before, or is its record, which
then was written. -/
theorem Writes.peek_cases {s : Store} {key : Key} {e : Entry} {c c' : Cache}
    {r : Except StoreError Unit} (h : Writes s key e c r c') {j : String} {b : Bytes}
    (hb : c'.peek j = some b) :
    c.peek j = some b ∨ (j = key.text ∧ e.encode? = some b ∧ r = .ok ()) := by
  cases h with
  | oversize h => exact .inl hb
  | failed he h => exact .inl (by rwa [Cache.set_error h] at hb)
  | written he h =>
    have hc := congrArg Prod.snd h
    simp only at hc
    rw [← hc] at hb
    rcases Cache.peek_set _ _ _ _ hb with ⟨hj, rfl⟩ | hb
    · exact .inr ⟨hj, he, rfl⟩
    · exact .inl hb

theorem lookUp_cases (s : Store) (k : Kind) (key : Key) (secret : Option Secret) (useCache : Bool)
    (σ : Session) : ∃ res c ws,
      (if useCache then s.lookUp k key secret else pure none) σ =
        (res, ⟨{ σ.tiers with cache := c }, ws⟩) ∧
      Probes s k key secret useCache σ.tiers.cache res c := by
  cases useCache with
  | false => exact ⟨_, σ.tiers.cache, _, rfl, .unused _⟩
  | true =>
    rw [if_pos rfl, lookUp]
    cases hget : σ.tiers.cache.get key.text with
    | mk r c =>
    have hon : Action.onCache (·.get key.text) σ =
        (.ok r, ⟨{ σ.tiers with cache := c }, σ.warnings⟩) := by
      simp only [Action.onCache, hget]
    rw [Action.bind_ok hon]
    match r with
    | .error e =>
      obtain ⟨ws, hws⟩ := Action.tolerate_eq s.config.policy e
        ⟨{ σ.tiers with cache := c }, σ.warnings⟩
      refine ⟨_, c, ws, ?_, .failed hget⟩
      cases hout : s.config.policy.outcome e with
      | ok u =>
        rw [hout] at hws
        exact Action.bind_ok hws
      | error e' =>
        rw [hout] at hws
        exact Action.bind_error hws
    | .ok none => exact ⟨_, c, _, rfl, .absent hget⟩
    | .ok (some b) =>
      refine ⟨_, c, ?_, ?_, .found hget⟩
      · exact match s.judge k key secret b with
          | .hit _ => σ.warnings
          | .discard w => σ.warnings ++ [w]
          | .fail _ => σ.warnings
      · cases hj : s.judge k key secret b with
        | hit x => simp only [hj]; rfl
        | discard w => simp only [hj]; rfl
        | fail e => simp only [hj]; rfl

theorem writeCache_cases (s : Store) (key : Key) (e : Entry) (σ : Session) : ∃ res c ws,
    s.writeCache key e σ = (res, ⟨{ σ.tiers with cache := c }, ws⟩) ∧
      Writes s key e σ.tiers.cache res c := by
  unfold writeCache
  cases hb : e.encode? with
  | none =>
    obtain ⟨ws, hws⟩ := Action.tolerate_eq s.config.policy
      (.operation .set key.text Entry.oversizeMessage) σ
    exact ⟨_, σ.tiers.cache, ws, hws, .oversize hb⟩
  | some b =>
    cases hset : σ.tiers.cache.set key.text b s.config.ttlMilliseconds with
    | mk r c =>
    have hon : Action.onCache (·.set key.text b s.config.ttlMilliseconds) σ =
        (.ok r, ⟨{ σ.tiers with cache := c }, σ.warnings⟩) := by
      simp only [Action.onCache, hset]
    simp only [Action.bind_ok hon]
    cases r with
    | ok u => exact ⟨_, c, _, rfl, .written hb hset⟩
    | error err =>
      obtain ⟨ws, hws⟩ := Action.tolerate_eq s.config.policy err
        ⟨{ σ.tiers with cache := c }, σ.warnings⟩
      exact ⟨_, c, ws, hws, .failed hb hset⟩

/-! ### Reading -/

/-- The result of a read that put an item into the memory and went on to the cache. -/
def loaded (x : Item) (r : Except StoreError Unit) : Except StoreError Fetched :=
  r.map fun _ => ⟨x, .table⟩

/-- A read that came to the table: its result and the tiers it leaves behind. -/
inductive Loads (s : Store) (k : Kind) (key : Key) (useCache : Bool) (secret : Option Secret)
    (t : Tiers) : Except StoreError Fetched → Tiers → Prop
  | failed {e : TableError} (h : (t.table.find key.objectRef key.version).1 = .error e) :
    Loads s k key useCache secret t (.error (.table e))
      { t with table := (t.table.find key.objectRef key.version).2.1 }
  | absent (h : (t.table.find key.objectRef key.version).1 = .ok none) :
    Loads s k key useCache secret t (.error (.notFound key.objectRef key.version))
      { t with table := (t.table.find key.objectRef key.version).2.1 }
  | unreadable {row : Row} {e : StoreError}
    (h : (t.table.find key.objectRef key.version).1 = .ok (some row))
    (hx : s.materialize k key row secret = .error e) :
    Loads s k key useCache secret t (.error e)
      { t with table := (t.table.find key.objectRef key.version).2.1 }
  | uncacheable {row : Row} {x : Item} {e : StoreError}
    (h : (t.table.find key.objectRef key.version).1 = .ok (some row))
    (hx : s.materialize k key row secret = .ok x) (huse : useCache = true)
    (hform : cacheForm k key row = .error e) :
    Loads s k key useCache secret t (.error e)
      { t with table := (t.table.find key.objectRef key.version).2.1 }
  | uncached {row : Row} {x : Item}
    (h : (t.table.find key.objectRef key.version).1 = .ok (some row))
    (hx : s.materialize k key row secret = .ok x)
    (hform : useCache = true → ∃ ws, cacheForm k key row = .ok (none, ws)) :
    Loads s k key useCache secret t (.ok ⟨x, .table⟩)
      ⟨t.memory.insert key.text (.item x), t.cache,
        (t.table.find key.objectRef key.version).2.1⟩
  | cached {row : Row} {x : Item} {p : EntryPayload} {r : Except StoreError Unit} {c : Cache}
    (h : (t.table.find key.objectRef key.version).1 = .ok (some row))
    (hx : s.materialize k key row secret = .ok x) (huse : useCache = true)
    (hform : ∃ ws, cacheForm k key row = .ok (some p, ws))
    (hwrite : Writes s key ⟨row.objectRef, row.version, k.tag, p⟩ t.cache r c) :
    Loads s k key useCache secret t (loaded x r)
      ⟨t.memory.insert key.text (.item x), c, (t.table.find key.objectRef key.version).2.1⟩

theorem load_cases (s : Store) (k : Kind) (key : Key) (useCache : Bool) (secret : Option Secret)
    (σ : Session) : ∃ res t ws, s.load k key useCache secret σ = (res, ⟨t, ws⟩) ∧
      Loads s k key useCache secret σ.tiers res t := by
  rw [load]
  cases hfind : (σ.tiers.table.find key.objectRef key.version).1 with
  | error e => exact ⟨_, _, _, Action.bind_error (Action.tableFind_error hfind), .failed hfind⟩
  | ok o =>
  rw [Action.bind_ok (Action.tableFind_ok hfind)]
  cases o with
  | none => exact ⟨_, _, _, rfl, .absent hfind⟩
  | some row =>
  dsimp only
  have hlift {α : Type} (r : Except StoreError α) (τ : Session) :
      Action.lift id r τ = (r, τ) := by
    cases r <;> rfl
  cases hx : s.materialize k key row secret with
  | error e => exact ⟨_, _, _, Action.bind_error (hlift _ _), .unreadable hfind hx⟩
  | ok x =>
  rw [Action.bind_ok (hlift _ _)]
  cases useCache with
  | false => exact ⟨_, _, _, rfl, .uncached hfind hx (fun h => nomatch h)⟩
  | true =>
  rw [if_pos rfl]
  cases hform : cacheForm k key row with
  | error e => exact ⟨_, _, _, Action.bind_error (hlift _ _), .uncacheable hfind hx rfl hform⟩
  | ok form =>
  obtain ⟨p, ws⟩ := form
  rw [Action.bind_ok (hlift _ _)]
  cases p with
  | none => exact ⟨_, _, _, rfl, .uncached hfind hx fun _ => ⟨ws, hform⟩⟩
  | some p =>
  dsimp only
  let τ := Action.found σ key.objectRef key.version
  let filled : Session := ⟨{ τ.tiers with memory := τ.tiers.memory.insert key.text (.item x) },
    τ.warnings ++ ws⟩
  obtain ⟨r, c, ws', hwrite, hwrites⟩ :=
    s.writeCache_cases key ⟨row.objectRef, row.version, k.tag, p⟩ filled
  refine ⟨loaded x r, _, ws', ?_, .cached hfind hx rfl ⟨ws, hform⟩ hwrites⟩
  have hwarn : Action.warn ws τ = (.ok (), ⟨τ.tiers, τ.warnings ++ ws⟩) := rfl
  have hinsert : Action.memoryInsert key.text x ⟨τ.tiers, τ.warnings ++ ws⟩ = (.ok (), filled) :=
    rfl
  rw [Action.bind_ok hwarn, Action.bind_ok hinsert]
  cases r with
  | ok u => exact Action.bind_ok hwrite
  | error e => exact Action.bind_error hwrite

/-- A read: its result and the tiers it leaves behind. -/
inductive Fetches (s : Store) (k : Kind) (r : String) (v : UInt16) (o : ReadOptions) (t : Tiers) :
    Except StoreError Fetched → Tiers → Prop
  | invalid {e : ValidationError} (hkey : Identity.validate r v = .error e) :
    Fetches s k r v o t (.error (.validation e)) t
  | memory {key : Key} {x : Item} {m : Memory} {ws : List Warning}
    (hkey : Identity.validate r v = .ok key)
    (hm : t.memory.getItem k key.text = (some x, m, ws)) :
    Fetches s k r v o t (.ok ⟨x, .memory⟩) { t with memory := m }
  | refused {key : Key} {m : Memory} {ws : List Warning} {e : StoreError} {c : Cache}
    (hkey : Identity.validate r v = .ok key)
    (hm : t.memory.getItem k key.text = (none, m, ws))
    (hc : Probes s k key o.secret (o.useCache.getD s.config.useCache) t.cache (.error e) c) :
    Fetches s k r v o t (.error e) ⟨m, c, t.table⟩
  | cache {key : Key} {m : Memory} {ws : List Warning} {x : Item} {c : Cache}
    (hkey : Identity.validate r v = .ok key)
    (hm : t.memory.getItem k key.text = (none, m, ws))
    (hc : Probes s k key o.secret (o.useCache.getD s.config.useCache) t.cache (.ok (some x)) c) :
    Fetches s k r v o t (.ok ⟨x, .cache⟩) ⟨m.insert key.text (.item x), c, t.table⟩
  | table {key : Key} {m : Memory} {ws : List Warning} {c : Cache}
    {res : Except StoreError Fetched} {t' : Tiers}
    (hkey : Identity.validate r v = .ok key)
    (hm : t.memory.getItem k key.text = (none, m, ws))
    (hc : Probes s k key o.secret (o.useCache.getD s.config.useCache) t.cache (.ok none) c)
    (hload : Loads s k key (o.useCache.getD s.config.useCache) o.secret ⟨m, c, t.table⟩ res t') :
    Fetches s k r v o t res t'

theorem fetch_cases (s : Store) (k : Kind) (r : String) (v : UInt16) (o : ReadOptions)
    (σ : Session) :
    Fetches s k r v o σ.tiers (s.fetch k r v o σ).1 (s.fetch k r v o σ).2.tiers := by
  suffices h : ∃ res t ws, s.fetch k r v o σ = (res, ⟨t, ws⟩) ∧ Fetches s k r v o σ.tiers res t by
    obtain ⟨res, t, ws, heq, h⟩ := h
    rw [heq]
    exact h
  rw [fetch]
  cases hkey : Identity.validate r v with
  | error e => exact ⟨_, _, _, rfl, .invalid hkey⟩
  | ok key =>
  rw [Action.bind_ok (rfl : Action.lift .validation (Except.ok key) σ = (.ok key, σ))]
  cases hm : σ.tiers.memory.getItem k key.text with
  | mk found rest =>
  obtain ⟨m, ws⟩ := rest
  have hget : Action.memoryGet k key.text σ =
      (.ok found, ⟨{ σ.tiers with memory := m }, σ.warnings ++ ws⟩) := by
    simp only [Action.memoryGet, hm]
  rw [Action.bind_ok hget]
  cases found with
  | some x => exact ⟨_, _, _, rfl, .memory hkey hm⟩
  | none =>
  dsimp only
  rw [Action.ite_bind]
  obtain ⟨res, c, ws', hlook, hprobe⟩ := s.lookUp_cases k key o.secret
    (o.useCache.getD s.config.useCache) ⟨{ σ.tiers with memory := m }, σ.warnings ++ ws⟩
  cases res with
  | error e => exact ⟨_, _, _, Action.bind_error hlook, .refused hkey hm hprobe⟩
  | ok found =>
  rw [Action.bind_ok hlook]
  cases found with
  | some x => exact ⟨_, _, _, rfl, .cache hkey hm hprobe⟩
  | none =>
    obtain ⟨res, t, ws'', hload, hloads⟩ := s.load_cases k key (o.useCache.getD s.config.useCache)
      o.secret ⟨⟨m, c, σ.tiers.table⟩, ws'⟩
    exact ⟨res, t, ws'', hload, .table hkey hm hprobe hloads⟩

/-! ### Writing and removing -/

/-- A write: its result and the tiers it leaves behind. -/
inductive Puts (s : Store) (x : Item) (secret : Option Secret) (nonce : Bytes) (now : Int64)
    (t : Tiers) : Except StoreError Row → Tiers → Prop
  | invalid {e : ValidationError} (hkey : Identity.validate x.objectRef x.version = .error e) :
    Puts s x secret nonce now t (.error (.validation e)) t
  | unencodable {key : Key} {e : StoreError}
    (hkey : Identity.validate x.objectRef x.version = .ok key)
    (hp : s.encode x secret nonce = .error e) :
    Puts s x secret nonce now t (.error e) t
  | refused {key : Key} {p : Payload} {e : TableError} {table : Table}
    (hkey : Identity.validate x.objectRef x.version = .ok key)
    (hp : s.encode x secret nonce = .ok p)
    (h : t.table.insert ⟨x.objectRef, x.version, p.bytes, p.keyId, now⟩ = (.error e, table)) :
    Puts s x secret nonce now t (.error (.table e)) { t with table := table }
  | stored {key : Key} {p : Payload} {table : Table}
    (hkey : Identity.validate x.objectRef x.version = .ok key)
    (hp : s.encode x secret nonce = .ok p)
    (h : t.table.insert ⟨x.objectRef, x.version, p.bytes, p.keyId, now⟩ = (.ok (), table)) :
    Puts s x secret nonce now t (.ok ⟨x.objectRef, x.version, p.bytes, p.keyId, now⟩)
      { t with table := table }

theorem put_cases (s : Store) (x : Item) (secret : Option Secret) (nonce : Bytes) (now : Int64)
    (σ : Session) : Puts s x secret nonce now σ.tiers (s.put x secret nonce now σ).1
      (s.put x secret nonce now σ).2.tiers := by
  suffices h : ∃ res t ws, s.put x secret nonce now σ = (res, ⟨t, ws⟩) ∧
      Puts s x secret nonce now σ.tiers res t by
    obtain ⟨res, t, ws, heq, h⟩ := h
    rw [heq]
    exact h
  rw [put]
  cases hkey : Identity.validate x.objectRef x.version with
  | error e => exact ⟨_, _, _, rfl, .invalid hkey⟩
  | ok key =>
  rw [Action.bind_ok (rfl : Action.lift .validation (Except.ok key) σ = (.ok key, σ))]
  cases hp : s.encode x secret nonce with
  | error e => exact ⟨_, _, _, rfl, .unencodable hkey hp⟩
  | ok p =>
  rw [Action.bind_ok (rfl : Action.lift id (Except.ok p) σ = (.ok p, σ))]
  cases hins : σ.tiers.table.insert ⟨x.objectRef, x.version, p.bytes, p.keyId, now⟩ with
  | mk res table =>
  have hinsert : Action.tableInsert ⟨x.objectRef, x.version, p.bytes, p.keyId, now⟩ σ =
      (res.mapError .table, ⟨{ σ.tiers with table := table }, σ.warnings⟩) := by
    simp only [Action.tableInsert, hins]
    cases res <;> rfl
  cases res with
  | error e => exact ⟨_, _, _, Action.bind_error hinsert, .refused hkey hp hins⟩
  | ok u => exact ⟨_, _, _, Action.bind_ok hinsert, .stored hkey hp hins⟩

/-- A removal: its result and the tiers it leaves behind. -/
inductive Purges (s : Store) (r : String) (v : UInt16) (t : Tiers) :
    Except StoreError Unit → Tiers → Prop
  | invalid {e : ValidationError} (hkey : Identity.validate r v = .error e) :
    Purges s r v t (.error (.validation e)) t
  | failed {key : Key} {e : CacheError} {c : Cache} (hkey : Identity.validate r v = .ok key)
    (h : t.cache.delete key.text = (.error e, c)) :
    Purges s r v t (s.config.policy.outcome e) ⟨t.memory.erase key.text, c, t.table⟩
  | purged {key : Key} {c : Cache} (hkey : Identity.validate r v = .ok key)
    (h : t.cache.delete key.text = (.ok (), c)) :
    Purges s r v t (.ok ()) ⟨t.memory.erase key.text, c, t.table⟩

theorem purge_cases (s : Store) (r : String) (v : UInt16) (σ : Session) :
    Purges s r v σ.tiers (s.purge r v σ).1 (s.purge r v σ).2.tiers := by
  suffices h : ∃ res t ws, s.purge r v σ = (res, ⟨t, ws⟩) ∧ Purges s r v σ.tiers res t by
    obtain ⟨res, t, ws, heq, h⟩ := h
    rw [heq]
    exact h
  rw [purge]
  cases hkey : Identity.validate r v with
  | error e => exact ⟨_, _, _, rfl, .invalid hkey⟩
  | ok key =>
  rw [Action.bind_ok (rfl : Action.lift .validation (Except.ok key) σ = (.ok key, σ))]
  let erased : Session := ⟨{ σ.tiers with memory := σ.tiers.memory.erase key.text }, σ.warnings⟩
  rw [Action.bind_ok (rfl : Action.onMemory (·.erase key.text) σ = (.ok (), erased))]
  cases hdel : σ.tiers.cache.delete key.text with
  | mk res c =>
  have hon : Action.onCache (·.delete key.text) erased =
      (.ok res, ⟨{ erased.tiers with cache := c }, σ.warnings⟩) := by
    simp only [Action.onCache, erased, hdel]
  rw [Action.bind_ok hon]
  cases res with
  | ok u => exact ⟨_, _, _, rfl, .purged hkey hdel⟩
  | error e =>
    obtain ⟨ws, hws⟩ := Action.tolerate_eq s.config.policy e
      ⟨{ erased.tiers with cache := c }, σ.warnings⟩
    exact ⟨_, _, ws, hws, .failed hkey hdel⟩

/-! ### Commands -/

/-- A command: its result and the tiers it leaves behind. -/
inductive Performs (s : Store) (t : Tiers) : Command → Except StoreError Reply → Tiers → Prop
  | put {x : Item} {secret : Option Secret} {nonce : Bytes} {now : Int64}
    {res : Except StoreError Row} {t' : Tiers} (h : Puts s x secret nonce now t res t') :
    Performs s t (.put x secret nonce now) (res.map .row) t'
  | fetch {k : Kind} {r : String} {v : UInt16} {o : ReadOptions}
    {res : Except StoreError Fetched} {t' : Tiers} (h : Fetches s k r v o t res t') :
    Performs s t (.fetch k r v o) (res.map .fetched) t'
  | get {k : Kind} {r : String} {v : UInt16} {o : ReadOptions}
    {res : Except StoreError Fetched} {t' : Tiers} (h : Fetches s k r v o t res t') :
    Performs s t (.get k r v o) (res.map fun f => .item f.item) t'
  | purge {r : String} {v : UInt16} {res : Except StoreError Unit} {t' : Tiers}
    (h : Purges s r v t res t') : Performs s t (.purge r v) (res.map fun _ => .done) t'
  | clearMemory : Performs s t .clearMemory (.ok .done) { t with memory := t.memory.clear }

/-- A command leaves the table as it is, asks it for a row, or gives it one. -/
theorem Performs.table_cases {s : Store} {t t' : Tiers} {cmd : Command}
    {res : Except StoreError Reply} (h : Performs s t cmd res t') :
    t'.table = t.table ∨ (∃ r v, t'.table = (t.table.find r v).2.1) ∨
      ∃ row, t'.table = (t.table.insert row).2 := by
  have hfetch {k : Kind} {r : String} {v : UInt16} {o : ReadOptions}
      {res : Except StoreError Fetched} (h : Fetches s k r v o t res t') :
      t'.table = t.table ∨ ∃ r v, t'.table = (t.table.find r v).2.1 := by
    cases h with
    | invalid hkey | memory hkey hm | refused hkey hm hc | cache hkey hm hc => exact .inl rfl
    | table hkey hm hc hload => cases hload <;> exact .inr ⟨_, _, rfl⟩
  cases h with
  | put h =>
    cases h with
    | invalid hkey | unencodable hkey hp => exact .inl rfl
    | refused hkey hp h | stored hkey hp h => exact .inr (.inr ⟨_, by rw [h]⟩)
  | fetch h => exact (hfetch h).imp_right .inl
  | get h => exact (hfetch h).imp_right .inl
  | purge h => cases h <;> exact .inl rfl
  | clearMemory => exact .inl rfl

theorem map_action {α β : Type} (x : Action α) (f : α → β) (σ : Session) :
    (x >>= fun a => pure (f a)) σ = ((x σ).1.map f, (x σ).2) := by
  cases hx : x σ with
  | mk res τ =>
  cases res with
  | ok a => exact Action.bind_ok hx
  | error e => exact Action.bind_error hx

theorem perform_cases (s : Store) (cmd : Command) (σ : Session) :
    Performs s σ.tiers cmd (s.perform cmd σ).1 (s.perform cmd σ).2.tiers := by
  cases cmd with
  | put x secret nonce now =>
    rw [perform, map_action]
    exact .put (s.put_cases x secret nonce now σ)
  | fetch k r v o =>
    rw [perform, map_action]
    exact .fetch (s.fetch_cases k r v o σ)
  | get k r v o =>
    rw [perform, map_action, get, map_action]
    have h := Performs.get (s.fetch_cases k r v o σ)
    cases hf : (s.fetch k r v o σ).1 <;> rw [hf] at h <;> exact h
  | purge r v =>
    rw [perform, map_action]
    exact .purge (s.purge_cases r v σ)
  | clearMemory => exact .clearMemory

end Store

theorem Cluster.perform_cases (c : Cluster) (site : Site) (cmd : Command) : ∃ t,
    site.store.Performs (c.tiers site) cmd (c.perform site cmd).1 t ∧
      (c.perform site cmd).2.2 = c.withTiers site t.settle :=
  ⟨_, site.store.perform_cases cmd ⟨c.tiers site, []⟩, rfl⟩

end ObjectTiers
