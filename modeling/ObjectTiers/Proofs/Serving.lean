/-
What a row serves once it is written. Under ChaCha20-Poly1305 the row of an item that is no
document is read as that item by every read that can open it, and what such a read puts into the
cache is read as the item again (`Store.serves_of_encode`).

Where tiers that work hold an item, a read answers with it and fills the nearer tiers. There is one
lemma for each tier the answer may come from (`Fetches.of_memory`, `Fetches.of_cache`,
`Fetches.of_table`), and one for an item that is nowhere (`Fetches.of_nothing`).
-/
import ObjectTiers.Proofs.Envelope
import ObjectTiers.Proofs.History

namespace ObjectTiers

/-- The key of an item. -/
def Item.key (x : Item) : Key := ⟨x.objectRef, x.version⟩

theorem Kind.length_tag_le (k : Kind) : (Bytes.ofText k.tag).length ≤ 64 := by
  cases k <;> decide

theorem Kind.encryption_of_plain {k : Kind} (h : k.isEncrypted = false) :
    k.encryption = .disabled := by
  cases k <;> first | rfl | cases h

namespace Store

/-! ### Secrets -/

/-- A read that resolves a secret with the same key for what was sealed with a secret: the one it
is given, whatever its reference, or what the provider has under the reference. -/
def Unlocks (s : Store) (secret : Secret) : Option Secret → Prop
  | some t => t.key = secret.key
  | none => ∃ find t, s.provider = some find ∧ find secret.reference = .ok t ∧ t.key = secret.key

theorem Unlocks.resolveSecret {s : Store} {secret : Secret} {given : Option Secret}
    (h : s.Unlocks secret given) (key : Key) :
    ∃ t, s.resolveSecret key secret.reference given = .ok t ∧ t.key = secret.key := by
  cases given with
  | some t => exact ⟨t, rfl, h⟩
  | none =>
    obtain ⟨find, t, hprovider, hfind, hkey⟩ := h
    refine ⟨t, ?_, hkey⟩
    simp only [Store.resolveSecret, hprovider, hfind]

/-- A read that can open what was written of an item: any read, unless the kind is encrypted. -/
def Opens (s : Store) (x : Item) (secret given : Option Secret) : Prop :=
  x.kind.isEncrypted = true → ∀ t ∈ secret, s.Unlocks t given

/-! ### Rows -/

/-- Bytes in the cache that are the item for every read that can open it. -/
def Backs (s : Store) (x : Item) (secret : Option Secret) (b : Bytes) : Prop :=
  ∀ given, s.Opens x secret given → s.judge x.kind x.key given b = .hit x

/-- A row that is the item for every read that can open it, and of which nothing else goes into the
cache. -/
structure Serves (s : Store) (x : Item) (secret : Option Secret) (row : Row) : Prop where
  reads : ∀ given, s.Opens x secret given → s.materialize x.kind x.key row given = .ok x
  form : (x.kind.encryption = .cacheDecrypted ∧ ∃ ws, cacheForm x.kind x.key row = .ok (none, ws)) ∨
    (x.kind.encryption ≠ .cacheDecrypted ∧ ∃ p b ws, cacheForm x.kind x.key row = .ok (some p, ws) ∧
      (Entry.mk row.objectRef row.version x.kind.tag p).encode? = some b ∧ s.Backs x secret b)

variable {s : Store} {x : Item} {secret : Option Secret} {nonce : Bytes} {p : Payload} {now : Int64}

theorem serves_of_encodePlain (hkind : x.kind ≠ .document) (hplain : x.kind.isEncrypted = false)
    (hp : Payload.encodePlain x = .ok p)
    (hsize : (Row.mk x.objectRef x.version p.bytes p.keyId now).toBytes.length < Layout.textLimit) :
    s.Serves x secret ⟨x.objectRef, x.version, p.bytes, p.keyId, now⟩ := by
  obtain ⟨b, hb, rfl⟩ := Payload.encodePlain_ok hp
  have hread : Payload.decodePlain x.kind b = .ok x := Payload.readFrame_frame hkind hb
  have hdisabled := Kind.encryption_of_plain hplain
  have hform : cacheForm x.kind x.key ⟨x.objectRef, x.version, b, none, now⟩ =
      .ok (some (.plain b), []) := by
    simp only [cacheForm, hdisabled, Encryption.admission]
  have hentry : (Entry.mk x.objectRef x.version x.kind.tag (.plain b)).encode? = some _ :=
    Entry.encode?_eq_some hsize x.kind.length_tag_le rfl
  refine ⟨?_, .inr ⟨?_, _, _, _, hform, hentry, ?_⟩⟩
  · intro given _
    simp only [materialize, hread]
  · rw [hdisabled]
    decide
  · intro given _
    simp [judge, Entry.ofBytes?_of_encode? hentry, Item.key, Kind.accepts_tag, judgePayload, hplain,
      hread]

theorem serves_of_encodeSealed {t : Secret} (hcipher : s.cipher = .chaCha)
    (hkind : x.kind ≠ .document) (hsealed : x.kind.isEncrypted = true)
    (hnonce : nonce.length = nonceSize)
    (hp : Payload.encodeSealed .chaCha t nonce x.objectRef x.version x = .ok p)
    (hsize : (Row.mk x.objectRef x.version p.bytes p.keyId now).toBytes.length < Layout.textLimit) :
    s.Serves x (some t) ⟨x.objectRef, x.version, p.bytes, p.keyId, now⟩ := by
  obtain ⟨-, -, -, -, -, hid⟩ := Payload.encodeSealed_ok hp
  -- whichever secret a read comes with, it resolves one with the key of `t`
  have hread (given : Option Secret) (h : s.Opens x (some t) given) :
      ∃ t', s.resolveSecret x.key t.reference given = .ok t' ∧
        Payload.decodeSealed .chaCha x.kind t' x.objectRef x.version p.bytes = .ok x := by
    obtain ⟨t', hresolve, hkey⟩ := (h hsealed t rfl).resolveSecret x.key
    obtain ⟨b, hb, hopen⟩ := Payload.decodeSealed_encodeSealed hkey hp
    refine ⟨t', hresolve, ?_⟩
    rw [hopen, if_pos hnonce, Payload.readFrame_frame hkind hb]
  constructor
  · intro given hopens
    obtain ⟨t', hresolve, hx⟩ := hread given hopens
    simp only [materialize, hid, hresolve, hcipher, hx]
  cases hencryption : x.kind.encryption with
  | disabled =>
    rw [Kind.isEncrypted, hencryption] at hsealed
    cases hsealed
  | cacheDecrypted =>
    refine .inl ⟨rfl, [], ?_⟩
    simp only [cacheForm, hid, hencryption, Encryption.admission]
  | cacheEncrypted =>
    have hform : cacheForm x.kind x.key ⟨x.objectRef, x.version, p.bytes, p.keyId, now⟩ =
        .ok (some (.sealed t.reference p.bytes), []) := by
      simp only [cacheForm, hid, hencryption, Encryption.admission]
    have hentry : (Entry.mk x.objectRef x.version x.kind.tag
        (.sealed t.reference p.bytes)).encode? = some _ :=
      Entry.encode?_eq_some hsize x.kind.length_tag_le (by rw [hid]; rfl)
    refine .inr ⟨by decide, _, _, _, hform, hentry, ?_⟩
    intro given hopens
    obtain ⟨t', hresolve, hx⟩ := hread given hopens
    simp only [judge, Entry.ofBytes?_of_encode? hentry, judgePayload, hencryption]
    simp only [Item.key] at hresolve ⊢
    simp [Kind.accepts_tag, Encryption.admission, hresolve, hcipher, hx]

/-- The row of whatever payload an item is encoded to serves the item. -/
theorem serves_of_encode (hcipher : s.cipher = .chaCha) (hkind : x.kind ≠ .document)
    (hnonce : nonce.length = nonceSize) (hp : s.encode x secret nonce = .ok p)
    (hsize : (Row.mk x.objectRef x.version p.bytes p.keyId now).toBytes.length < Layout.textLimit) :
    s.Serves x secret ⟨x.objectRef, x.version, p.bytes, p.keyId, now⟩ := by
  rcases encode_ok hp with ⟨hplain, hframe⟩ | ⟨t, hsealed, rfl, hbox⟩
  · exact serves_of_encodePlain hkind hplain hframe hsize
  · rw [hcipher] at hbox
    exact serves_of_encodeSealed hcipher hkind hsealed hnonce hbox hsize

end Store

/-! ### Working tiers -/

/-- No tier fails. -/
structure Tiers.Works (t : Tiers) : Prop where
  cache : ∀ op, t.cache.fails op = false
  table : t.table.fails = false

theorem Tiers.Works.congr {t t' : Tiers} (h : t.Works) (hcache : t'.cache.fails = t.cache.fails)
    (htable : t'.table.fails = t.table.fails) : t'.Works :=
  ⟨fun op => by rw [hcache]; exact h.cache op, by rw [htable]; exact h.table⟩

namespace Store

theorem Writes.fails_eq {s : Store} {key : Key} {e : Entry} {c c' : Cache}
    {res : Except StoreError Unit} (h : Writes s key e c res c') : c'.fails = c.fails := by
  rcases h.cache_eq with rfl | ⟨b, -, rfl⟩
  · rfl
  · exact c.fails_set key.text b s.config.ttlMilliseconds

theorem Fetches.works {s : Store} {k : Kind} {r : String} {v : UInt16} {o : ReadOptions}
    {t t' : Tiers} {res : Except StoreError Fetched} (h : Fetches s k r v o t res t')
    (ht : t.Works) : t'.Works := by
  cases h with
  | invalid hkey => exact ht
  | memory hkey hm => exact ht.congr rfl rfl
  | refused hkey hm hc => exact ht.congr hc.fails_eq rfl
  | cache hkey hm hc => exact ht.congr hc.fails_eq rfl
  | table hkey hm hc hload =>
    cases hload with
    | failed h | absent h | unreadable h | uncacheable h | uncached h =>
      exact ht.congr hc.fails_eq (Table.fails_find _ _ _)
    | cached h hx huse hform hwrite =>
      exact ht.congr (hwrite.fails_eq.trans hc.fails_eq) (Table.fails_find _ _ _)

theorem Performs.works {s : Store} {t t' : Tiers} {cmd : Command} {res : Except StoreError Reply}
    (h : Performs s t cmd res t') (ht : t.Works) : t'.Works := by
  cases h with
  | @put x _ _ now _ _ h =>
    cases h with
    | invalid hkey => exact ht
    | unencodable hkey hp => exact ht
    | @refused key p e table hkey hp h =>
      have hfails := t.table.fails_insert ⟨x.objectRef, x.version, p.bytes, p.keyId, now⟩
      rw [h] at hfails
      exact ht.congr rfl hfails
    | @stored key p table hkey hp h =>
      have hfails := t.table.fails_insert ⟨x.objectRef, x.version, p.bytes, p.keyId, now⟩
      rw [h] at hfails
      exact ht.congr rfl hfails
  | fetch h => exact h.works ht
  | get h => exact h.works ht
  | purge h =>
    cases h with
    | invalid hkey => exact ht
    | @failed key e c hkey h =>
      have hfails := t.cache.fails_delete key.text
      rw [h] at hfails
      exact ht.congr hfails rfl
    | @purged key c hkey h =>
      have hfails := t.cache.fails_delete key.text
      rw [h] at hfails
      exact ht.congr hfails rfl
  | clearMemory => exact ht.congr rfl rfl

end Store

theorem Step.works_next {st : Step} (h : st.tiers.Works) : (st.next.tiers st.site).Works := by
  obtain ⟨t, ht, hnext⟩ := st.tiers_next
  rw [hnext]
  exact (ht.works h).congr (Cache.fails_settle _) rfl

namespace Store

/-! ### Reads of what is held -/

section

variable {s : Store} {k : Kind} {key : Key} {given : Option Secret} {useCache : Bool}
  {c c' : Cache} {found : Except StoreError (Option Item)} {b : Bytes} {x : Item}

/-- What comes of a look-up in a cache that works, by what stands under the key. -/
def looked (s : Store) (k : Kind) (key : Key) (secret : Option Secret) :
    Option Bytes → Except StoreError (Option Item)
  | none => .ok none
  | some b => (s.judge k key secret b).outcome

theorem Probes.eq_looked (h : Probes s k key given true c found c')
    (hfails : c.fails .get = false) :
    found = s.looked k key given (c.peek key.text) ∧ c' = (c.get key.text).2 := by
  have hget := Cache.get_eq hfails key.text
  cases h with
  | failed h => rw [hget] at h; cases h
  | absent h =>
    refine ⟨?_, by rw [h]⟩
    rw [hget] at h
    rw [(Except.ok.inj (Prod.mk.inj h).1)]
    rfl
  | found h =>
    refine ⟨?_, by rw [h]⟩
    rw [hget] at h
    rw [(Except.ok.inj (Prod.mk.inj h).1)]
    rfl

theorem Probes.of_absent (h : Probes s k key given useCache c found c')
    (hfails : c.fails .get = false) (hpeek : useCache = true → c.peek key.text = none) :
    found = .ok none := by
  cases useCache with
  | false => cases h; rfl
  | true => rw [(h.eq_looked hfails).1, hpeek rfl, looked]

theorem Probes.of_entry (h : Probes s k key given true c found c') (hfails : c.fails .get = false)
    (hpeek : c.peek key.text = some b) (hjudge : s.judge k key given b = .hit x) :
    found = .ok (some x) := by
  rw [(h.eq_looked hfails).1, hpeek, looked, hjudge]
  rfl

theorem Probes.hasRoom (h : Probes s k key given useCache c found c') {j : String}
    (hroom : c.HasRoom j) : c'.HasRoom j := by
  rcases h.cache_eq with rfl | rfl
  · exact hroom
  · exact Cache.hasRoom_get hroom key.text

theorem Writes.of_works {e : Entry} {res : Except StoreError Unit} (h : Writes s key e c res c')
    (hfails : c.fails .set = false) (hb : e.encode? = some b) :
    res = .ok () ∧ c' = (c.set key.text b s.config.ttlMilliseconds).2 := by
  have hset := Cache.set_ok hfails key.text b s.config.ttlMilliseconds
  cases h with
  | oversize h => rw [h] at hb; cases hb
  | failed he h =>
    rw [he] at hb
    cases hb
    rw [h] at hset
    cases hset
  | written he h =>
    rw [he] at hb
    cases hb
    rw [h]
    exact ⟨rfl, rfl⟩

end

variable {s : Store} {x : Item} {secret : Option Secret} {row : Row} {o : ReadOptions}
  {t t' : Tiers} {res : Except StoreError Fetched}

/-- What a read from the table does to the cache. With room for it the item stands under its key
afterwards, if the read uses the cache and the item may stand there; without room, what stands there
may still be the item. Otherwise the cache holds what it held. -/
structure Fills (s : Store) (x : Item) (secret : Option Secret) (useCache : Bool) (c c' : Cache) :
    Prop where
  goes : useCache = true → x.kind.encryption ≠ .cacheDecrypted → c.HasRoom x.key.text →
    ∃ b, s.Backs x secret b ∧ ∀ j, c'.peek j = if j = x.key.text then some b else c.peek j
  stays : useCache = false ∨ x.kind.encryption = .cacheDecrypted → c'.peek = c.peek
  backs : ∀ b, c'.peek x.key.text = some b → c.peek x.key.text = some b ∨
    x.kind.encryption ≠ .cacheDecrypted ∧ s.Backs x secret b

/-- An entry that backs an item and has a record fills the cache, if that works. -/
theorem Writes.fills {e : Entry} {c c' : Cache} {b : Bytes} {r : Except StoreError Unit}
    (h : Writes s x.key e c r c') (hfails : c.fails .set = false) (hb : e.encode? = some b)
    (hkind : x.kind.encryption ≠ .cacheDecrypted) (hbacks : s.Backs x secret b) :
    r = .ok () ∧ s.Fills x secret true c c' := by
  obtain ⟨hr, hc⟩ := h.of_works hfails hb
  refine ⟨hr, ?_, ?_, ?_⟩
  · intro _ _ hroom
    refine ⟨b, hbacks, ?_⟩
    intro j
    rw [hc]
    split
    · next hj => rw [hj, Cache.peek_set_self hroom hfails]
    · next hj => rw [Cache.peek_set_of_ne hroom hj]
  · intro hstays
    rcases hstays with hunused | hnever
    · cases hunused
    · exact absurd hnever hkind
  · intro b' hpeek
    rcases h.peek_cases hpeek with hold | ⟨-, hb', -⟩
    · exact .inl hold
    · rw [hb] at hb'
      cases hb'
      exact .inr ⟨hkind, hbacks⟩

theorem Loads.of_row {useCache : Bool} (h : Loads s x.kind x.key useCache o.secret t res t')
    (hworks : t.Works) (hpeek : t.table.peek x.objectRef x.version = .ok (some row))
    (hrow : s.Serves x secret row) (hopens : s.Opens x secret o.secret) :
    res = .ok ⟨x, .table⟩ ∧ t'.memory = t.memory.insert x.key.text (.item x) ∧
      s.Fills x secret useCache t.cache t'.cache ∧ t'.table.peek = t.table.peek := by
  have hfind : (t.table.find x.key.objectRef x.key.version).1 = .ok (some row) := by
    rw [Table.find_eq, hworks.table]
    exact hpeek
  have hread := hrow.reads _ hopens
  have htable := Table.peek_find t.table x.key.objectRef x.key.version
  cases h with
  | failed h => rw [hfind] at h; cases h
  | absent h => rw [hfind] at h; cases h
  | unreadable h hx => rw [hfind] at h; cases h; rw [hread] at hx; cases hx
  | uncacheable h hx huse hform =>
    rw [hfind] at h
    cases h
    rcases hrow.form with ⟨-, ws, hnone⟩ | ⟨-, p, b, ws, hsome, -⟩
    · rw [hnone] at hform
      cases hform
    · rw [hsome] at hform
      cases hform
  | uncached h hx hform =>
    rw [hfind] at h
    cases h
    rw [hread] at hx
    cases hx
    refine ⟨rfl, rfl, ⟨?_, fun _ => rfl, fun b hb => .inl hb⟩, htable⟩
    intro huse hkind
    obtain ⟨ws, hform⟩ := hform huse
    rcases hrow.form with ⟨hnever, -⟩ | ⟨-, p, b, ws', hsome, -⟩
    · exact absurd hnever hkind
    · rw [hsome] at hform
      cases hform
  | cached h hx huse hform hwrite =>
    rw [hfind] at h
    cases h
    rw [hread] at hx
    cases hx
    obtain ⟨ws, hform⟩ := hform
    rcases hrow.form with ⟨-, ws', hnone⟩ | ⟨hkind, p, b, ws', hsome, hb, hbacks⟩
    · rw [hnone] at hform
      cases hform
    · rw [hsome] at hform
      cases hform
      obtain ⟨rfl, hfills⟩ := hwrite.fills (hworks.cache .set) hb hkind hbacks
      subst huse
      exact ⟨rfl, rfl, hfills, htable⟩

theorem Loads.of_nothing {k : Kind} {key : Key} {useCache : Bool} {given : Option Secret}
    (h : Loads s k key useCache given t res t') (hworks : t.Works)
    (hpeek : t.table.peek key.objectRef key.version = .ok none) :
    res = .error (.notFound key.objectRef key.version) ∧
      t' = { t with table := (t.table.find key.objectRef key.version).2.1 } := by
  have hfind : (t.table.find key.objectRef key.version).1 = .ok none := by
    rw [Table.find_eq, hworks.table]
    exact hpeek
  cases h with
  | failed h => rw [hfind] at h; cases h
  | absent h => exact ⟨rfl, rfl⟩
  | unreadable h => rw [hfind] at h; cases h
  | uncacheable h => rw [hfind] at h; cases h
  | uncached h => rw [hfind] at h; cases h
  | cached h => rw [hfind] at h; cases h

/-- What a read does when nothing stands under its key in the memory: it looks into the cache, and
goes on by what it finds. -/
theorem Fetches.of_miss {k : Kind} {r : String} {v : UInt16} (h : Fetches s k r v o t res t')
    (hkey : Identity.validate r v = .ok ⟨r, v⟩)
    (hnone : t.memory.cells.get? (Key.mk r v).text = none) :
    ∃ m c found, m = (t.memory.getItem k (Key.mk r v).text).2.1 ∧ m.cells = t.memory.cells ∧
      m.capacity = t.memory.capacity ∧
      Probes s k ⟨r, v⟩ o.secret (o.useCache.getD s.config.useCache) t.cache found c ∧
      (∀ e, found = .error e → res = .error e ∧ t' = ⟨m, c, t.table⟩) ∧
      (∀ x, found = .ok (some x) → res = .ok ⟨x, .cache⟩ ∧
        t' = ⟨m.insert (Key.mk r v).text (.item x), c, t.table⟩) ∧
      (found = .ok none → Loads s k ⟨r, v⟩ (o.useCache.getD s.config.useCache) o.secret
        ⟨m, c, t.table⟩ res t') := by
  obtain ⟨m, hget, hcells, hcapacity⟩ := Memory.getItem_of_none hnone k
  have hm' : m = (t.memory.getItem k (Key.mk r v).text).2.1 := by rw [hget]
  cases h with
  | invalid hkey' => rw [hkey] at hkey'; cases hkey'
  | memory hkey' hm => rw [hkey] at hkey'; cases hkey'; rw [hget] at hm; cases hm
  | refused hkey' hm hc =>
    rw [hkey] at hkey'
    cases hkey'
    rw [hget] at hm
    cases hm
    refine ⟨m, _, _, hm', hcells, hcapacity, hc, ?_, ?_, ?_⟩
    · intro e he
      cases he
      exact ⟨rfl, rfl⟩
    · intro x hx
      cases hx
    · intro hnone
      cases hnone
  | cache hkey' hm hc =>
    rw [hkey] at hkey'
    cases hkey'
    rw [hget] at hm
    cases hm
    refine ⟨m, _, _, hm', hcells, hcapacity, hc, ?_, ?_, ?_⟩
    · intro e he
      cases he
    · intro x hx
      cases hx
      exact ⟨rfl, rfl⟩
    · intro hnone
      cases hnone
  | table hkey' hm hc hload =>
    rw [hkey] at hkey'
    cases hkey'
    rw [hget] at hm
    cases hm
    refine ⟨m, _, _, hm', hcells, hcapacity, hc, ?_, ?_, ?_⟩
    · intro e he
      cases he
    · intro x hx
      cases hx
    · intro _
      exact hload

/-- An item in the memory is what a read answers with, and the tiers hold what they held. -/
theorem Fetches.of_memory (h : Fetches s x.kind x.objectRef x.version o t res t')
    (hkey : Identity.validate x.objectRef x.version = .ok x.key)
    (hcell : t.memory.cells.get? x.key.text = some (.item x)) :
    res = .ok ⟨x, .memory⟩ ∧ t'.memory.cells = t.memory.cells ∧
      t'.memory.capacity = t.memory.capacity ∧ t'.cache = t.cache ∧ t'.table = t.table := by
  obtain ⟨m, hget, hcells, hcapacity⟩ := Memory.getItem_of_get? hcell rfl
  cases h with
  | invalid hkey' => rw [hkey] at hkey'; cases hkey'
  | memory hkey' hm =>
    rw [hkey] at hkey'
    cases hkey'
    rw [hget] at hm
    cases hm
    exact ⟨rfl, hcells, hcapacity, rfl, rfl⟩
  | refused hkey' hm hc => rw [hkey] at hkey'; cases hkey'; rw [hget] at hm; cases hm
  | cache hkey' hm hc => rw [hkey] at hkey'; cases hkey'; rw [hget] at hm; cases hm
  | table hkey' hm hc hload => rw [hkey] at hkey'; cases hkey'; rw [hget] at hm; cases hm

/-- An item that is in the cache and not in the memory is what a read answers with that uses the
cache. It is in the memory afterwards. -/
theorem Fetches.of_cache {b : Bytes} (h : Fetches s x.kind x.objectRef x.version o t res t')
    (hkey : Identity.validate x.objectRef x.version = .ok x.key) (hworks : t.Works)
    (hroom : t.memory.HasRoom x.key.text) (hnone : t.memory.cells.get? x.key.text = none)
    (huse : o.useCache.getD s.config.useCache = true) (hpeek : t.cache.peek x.key.text = some b)
    (hbacks : s.Backs x secret b) (hopens : s.Opens x secret o.secret) :
    res = .ok ⟨x, .cache⟩ ∧ t'.memory.cells = t.memory.cells.insert x.key.text (.item x) ∧
      t'.memory.capacity = t.memory.capacity ∧ t'.cache.peek = t.cache.peek ∧
      t'.table = t.table := by
  obtain ⟨m, c, found, -, hcells, hcapacity, hc, -, hhit, -⟩ := h.of_miss hkey hnone
  rw [huse] at hc
  obtain ⟨rfl, rfl⟩ := hhit x (hc.of_entry (hworks.cache .get) hpeek (hbacks _ hopens))
  refine ⟨rfl, ?_, hcapacity, hc.peek_eq, rfl⟩
  rw [← hcells]
  exact Memory.cells_insert (hroom.congr hcells hcapacity) _

/-- An item that neither the memory nor the cache has is read from its row. It is in the memory
afterwards, and in the cache if it may stand there and the read uses the cache. -/
theorem Fetches.of_table (h : Fetches s x.kind x.objectRef x.version o t res t')
    (hkey : Identity.validate x.objectRef x.version = .ok x.key) (hworks : t.Works)
    (hroom : t.memory.HasRoom x.key.text) (hnone : t.memory.cells.get? x.key.text = none)
    (habsent : o.useCache.getD s.config.useCache = true → t.cache.peek x.key.text = none)
    (hpeek : t.table.peek x.objectRef x.version = .ok (some row)) (hrow : s.Serves x secret row)
    (hopens : s.Opens x secret o.secret) :
    res = .ok ⟨x, .table⟩ ∧ t'.memory.cells = t.memory.cells.insert x.key.text (.item x) ∧
      t'.memory.capacity = t.memory.capacity ∧
      s.Fills x secret (o.useCache.getD s.config.useCache) t.cache t'.cache ∧
      t'.table.peek = t.table.peek := by
  obtain ⟨m, c, found, -, hcells, hcapacity, hc, -, -, hmiss⟩ := h.of_miss hkey hnone
  have hload := hmiss (hc.of_absent (hworks.cache .get) habsent)
  obtain ⟨rfl, hm, hfills, htable⟩ := hload.of_row (hworks.congr hc.fails_eq rfl) hpeek hrow hopens
  have hfills' : s.Fills x secret (o.useCache.getD s.config.useCache) t.cache t'.cache := by
    obtain ⟨hgoes, hstays, hbacks⟩ := hfills
    rw [hc.peek_eq] at hgoes hstays hbacks
    exact ⟨fun huse hkind hcroom => hgoes huse hkind (hc.hasRoom hcroom), hstays, hbacks⟩
  refine ⟨rfl, ?_, ?_, hfills', htable⟩
  · rw [hm, ← hcells]
    exact Memory.cells_insert (hroom.congr hcells hcapacity) _
  · rw [hm]
    exact hcapacity

/-- Nothing is found that no tier has, and the tiers hold what they held. -/
theorem Fetches.of_nothing {k : Kind} {r : String} {v : UInt16} (h : Fetches s k r v o t res t')
    (hkey : Identity.validate r v = .ok ⟨r, v⟩) (hworks : t.Works)
    (hnone : t.memory.cells.get? (Key.mk r v).text = none)
    (habsent : t.cache.peek (Key.mk r v).text = none) (hpeek : t.table.peek r v = .ok none) :
    res = .error (.notFound r v) ∧ t'.memory.cells = t.memory.cells ∧
      t'.cache.peek = t.cache.peek ∧ t'.table.peek = t.table.peek := by
  obtain ⟨m, c, found, -, hcells, -, hc, -, -, hmiss⟩ := h.of_miss hkey hnone
  obtain ⟨rfl, rfl⟩ := (hmiss (hc.of_absent (hworks.cache .get) fun _ => habsent)).of_nothing
    (hworks.congr hc.fails_eq rfl) hpeek
  exact ⟨rfl, hcells, hc.peek_eq, Table.peek_find _ _ _⟩

/-! ### Writes and removals -/

/-- A row that is taken is what the table answers for its identity, and nothing else changes. -/
theorem Puts.of_ok {nonce : Bytes} {now : Int64} {res : Except StoreError Row}
    (h : Puts s x secret nonce now t res t') (hres : res = .ok row) :
    Identity.validate x.objectRef x.version = .ok x.key ∧ (∃ p, s.encode x secret nonce = .ok p ∧
      row = ⟨x.objectRef, x.version, p.bytes, p.keyId, now⟩) ∧
    t'.memory = t.memory ∧ t'.cache = t.cache ∧ ∀ r v, t'.table.peek r v =
      if r = x.objectRef ∧ v = x.version then .ok (some row) else t.table.peek r v := by
  cases h with
  | invalid hkey => cases hres
  | unencodable hkey hp => cases hres
  | refused hkey hp h => cases hres
  | stored hkey hp h =>
    cases hres
    cases Identity.eq_of_validate hkey
    exact ⟨hkey, ⟨_, hp, rfl⟩, rfl, rfl, Table.peek_insert_ok h⟩

theorem Puts.of_error {nonce : Bytes} {now : Int64} {res : Except StoreError Row} {e : StoreError}
    (h : Puts s x secret nonce now t res t') (hres : res = .error e) :
    t'.memory = t.memory ∧ t'.cache = t.cache ∧ t'.table.peek = t.table.peek := by
  cases h with
  | invalid hkey => exact ⟨rfl, rfl, rfl⟩
  | unencodable hkey hp => exact ⟨rfl, rfl, rfl⟩
  | refused hkey hp h => exact ⟨rfl, rfl, Table.peek_insert_error h⟩
  | stored hkey hp h => cases hres

/-- Nothing happens to what has no valid identity. -/
theorem Fetches.of_invalid {k : Kind} {r : String} {v : UInt16} {e : ValidationError}
    (h : Fetches s k r v o t res t') (hkey : Identity.validate r v = .error e) :
    res = .error (.validation e) ∧ t' = t := by
  cases h with
  | invalid hkey' => rw [hkey] at hkey'; cases hkey'; exact ⟨rfl, rfl⟩
  | memory hkey' => rw [hkey] at hkey'; cases hkey'
  | refused hkey' => rw [hkey] at hkey'; cases hkey'
  | cache hkey' => rw [hkey] at hkey'; cases hkey'
  | table hkey' => rw [hkey] at hkey'; cases hkey'

theorem Purges.of_invalid {r : String} {v : UInt16} {e : ValidationError}
    {res : Except StoreError Unit} (h : Purges s r v t res t')
    (hkey : Identity.validate r v = .error e) : res = .error (.validation e) ∧ t' = t := by
  cases h with
  | invalid hkey' => rw [hkey] at hkey'; cases hkey'; exact ⟨rfl, rfl⟩
  | failed hkey' => rw [hkey] at hkey'; cases hkey'
  | purged hkey' => rw [hkey] at hkey'; cases hkey'

/-- What is removed is in neither of the nearer tiers afterwards, and nothing else changes. -/
theorem Purges.of_works {r : String} {v : UInt16} {res : Except StoreError Unit}
    (h : Purges s r v t res t') (hkey : Identity.validate r v = .ok ⟨r, v⟩) (hworks : t.Works) :
    t'.memory = t.memory.erase (Key.mk r v).text ∧ t'.table = t.table ∧
      ∀ j, t'.cache.peek j = if j = (Key.mk r v).text then none else t.cache.peek j := by
  cases h with
  | invalid hkey' => rw [hkey] at hkey'; cases hkey'
  | failed hkey' h =>
    rw [hkey] at hkey'
    cases hkey'
    have hdelete := Cache.delete_ok (hworks.cache .delete) (Key.mk r v).text
    rw [h] at hdelete
    cases hdelete
  | purged hkey' h =>
    rw [hkey] at hkey'
    cases hkey'
    refine ⟨rfl, rfl, ?_⟩
    intro j
    have hc := congrArg Prod.snd h
    simp only at hc
    rw [← hc]
    split
    · next hj => rw [hj, Cache.peek_delete_self (hworks.cache .delete)]
    · next hj => rw [Cache.peek_delete_of_ne _ hj]

end Store

/-- A row that a write answered with is in the table afterwards and serves the item. -/
theorem Step.serves_of_put {st : Step} {x : Item} {secret : Option Secret} {nonce : Bytes}
    {now : Int64} {row : Row} (hcmd : st.command = .put x secret nonce now)
    (hkind : x.kind ≠ .document) (hcipher : st.site.store.cipher = .chaCha)
    (hnonce : nonce.length = nonceSize) (hres : st.result = .ok (.row row))
    (hsize : row.toBytes.length < Layout.textLimit) :
    Identity.validate x.objectRef x.version = .ok x.key ∧ st.site.store.Serves x secret row ∧
      (st.next.tiers st.site).table.peek x.objectRef x.version = .ok (some row) := by
  obtain ⟨t, ht, hnext⟩ := st.tiers_next
  rw [hcmd] at ht
  generalize st.result = res at ht hres
  cases ht with
  | @put _ _ _ _ stored _ ht =>
  have hrow : stored = .ok row := by
    cases stored with
    | error e => cases hres
    | ok y => cases hres; rfl
  obtain ⟨hkey, ⟨p, hp, rfl⟩, -, -, htable⟩ := ht.of_ok hrow
  refine ⟨hkey, Store.serves_of_encode hcipher hkind hnonce hp hsize, ?_⟩
  rw [hnext]
  show t.table.peek x.objectRef x.version = _
  rw [htable, if_pos ⟨rfl, rfl⟩]

end ObjectTiers
