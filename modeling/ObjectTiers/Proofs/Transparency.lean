/-
What the cache does to reads that find nothing in the memory, over tiers that work.

Whatever bytes stand under the key, a read either decodes them as an entry of its identity and type
in the form its kind is cached in, or goes on as if they were not there
(`Store.fetch_of_planted`). Where the bytes are what the row in the table has in the cache, a read
with the cache comes to the same as one without, but for a sealed row that is read as a kind that is
not encrypted: that one may not be cached, so it is an error to read it with the cache
(`Store.fetch_of_mirrored`).
-/
import ObjectTiers.Proofs.Binding
import ObjectTiers.Proofs.Serving

namespace ObjectTiers

namespace Store

variable {s : Store} {k : Kind} {key : Key} {useCache : Bool} {secret : Option Secret}
  {t t' : Tiers} {c c' : Cache} {res : Except StoreError Fetched} {row : Row} {x : Item} {b : Bytes}
  {r : String} {v : UInt16} {o u : ReadOptions} {σ : Session}

/-! ### The cache -/

/-- What comes of writing an entry, if there is one, into a cache that works. -/
def writeResult (s : Store) (key : Key) : Option Entry → Except StoreError Unit
  | none => .ok ()
  | some e =>
    match e.encode? with
    | none => s.config.policy.outcome (.operation .set key.text Entry.oversizeMessage)
    | some _ => .ok ()

/-- What comes of writing an entry, if there is one, into any cache. -/
def written (s : Store) (key : Key) (c : Cache) (entry : Option Entry) : Except StoreError Unit :=
  if c.fails .set = true ∧ (entry.bind Entry.encode?).isSome = true then
    s.config.policy.outcome (TrialCache.injected .set key.text)
  else s.writeResult key entry

theorem written_of_works (h : c.fails .set = false) (key : Key) (entry : Option Entry) :
    s.written key c entry = s.writeResult key entry := by
  rw [written, if_neg (by simp [h])]

theorem Writes.eq_written {e : Entry} {r : Except StoreError Unit} (h : Writes s key e c r c') :
    r = s.written key c (some e) ∧ c' = c.fill key.text s.config.ttlMilliseconds e.encode? := by
  cases hfails : c.fails .set with
  | false =>
    rw [written_of_works hfails]
    cases hb : e.encode? with
    | some b =>
      obtain ⟨rfl, rfl⟩ := h.of_works hfails hb
      exact ⟨by simp only [writeResult, hb], rfl⟩
    | none =>
      cases h with
      | oversize => exact ⟨by simp only [writeResult, hb], rfl⟩
      | failed he => rw [hb] at he; cases he
      | written he => rw [hb] at he; cases he
  | true =>
    cases h with
    | oversize hb => simp [Store.written, writeResult, hb, Cache.fill]
    | failed hb h =>
      cases h.symm.trans (Cache.set_fails hfails _ _ _)
      simp [Store.written, hfails, hb, Cache.fill]
    | written hb h => cases h.symm.trans (Cache.set_fails hfails _ _ _)

/-! ### The table -/

/-- The entry of a row that a read puts into the cache. -/
def entryOf (k : Kind) (key : Key) (useCache : Bool) (row : Row) :
    Except StoreError (Option Entry) :=
  if useCache then
    (cacheForm k key row).map fun form =>
      form.1.map fun p => ⟨row.objectRef, row.version, k.tag, p⟩
  else .ok none

/-- The item that a table has for a read, and the entry that the read puts into the cache. -/
def reading (s : Store) (k : Kind) (key : Key) (useCache : Bool) (secret : Option Secret)
    (table : Table) : Except StoreError (Item × Option Entry) :=
  match (table.find key.objectRef key.version).1 with
  | .error e => .error (.table e)
  | .ok none => .error (.notFound key.objectRef key.version)
  | .ok (some row) =>
    (s.materialize k key row secret).bind fun x =>
      (entryOf k key useCache row).map fun e => (x, e)

theorem reading_of_row (h : (t.table.find key.objectRef key.version).1 = .ok (some row)) :
    s.reading k key useCache secret t.table = (s.materialize k key row secret).bind fun x =>
      (entryOf k key useCache row).map fun e => (x, e) := by
  simp only [reading, h]

/-- How a read ends that came to the table: it fails, or fills the nearer tiers. -/
def ending (s : Store) (key : Key) (t : Tiers) :
    Except StoreError (Item × Option Entry) → Except StoreError Fetched × Tiers
  | .error e => (.error e, { t with table := (t.table.find key.objectRef key.version).2.1 })
  | .ok (x, entry) =>
    (loaded x (s.writeResult key entry),
      ⟨t.memory.insert key.text (.item x),
        t.cache.fill key.text s.config.ttlMilliseconds (entry.bind Entry.encode?),
        (t.table.find key.objectRef key.version).2.1⟩)

/-- All that happens to the cache is that it is filled, and with what does not depend on it. -/
theorem ending_fill (s : Store) (key : Key) (t : Tiers)
    (a : Except StoreError (Item × Option Entry)) : ∃ added, ∀ c,
      s.ending key { t with cache := c } a = ((s.ending key t a).1, { (s.ending key t a).2 with
        cache := c.fill key.text s.config.ttlMilliseconds added }) := by
  cases a with
  | error e => exact ⟨none, fun c => rfl⟩
  | ok found => exact ⟨found.2.bind Entry.encode?, fun c => rfl⟩

/-- How a read ends depends on what the table has for it, and on whether it can be written into the
cache. -/
theorem Loads.eq_written (h : Loads s k key useCache secret t res t') :
    res = (s.reading k key useCache secret t.table).bind
      (fun found => loaded found.1 (s.written key t.cache found.2)) ∧
    t' = (s.ending key t (s.reading k key useCache secret t.table)).2 := by
  have hnone : s.written key t.cache none = .ok () := by simp [written, writeResult]
  cases h with
  | failed h => simp only [reading, h, ending, Except.bind, and_self]
  | absent h => simp only [reading, h, ending, Except.bind, and_self]
  | unreadable h hx =>
    rw [reading_of_row h, hx]
    exact ⟨rfl, rfl⟩
  | uncacheable h hx huse hform =>
    rw [reading_of_row h, hx, entryOf, if_pos huse, hform]
    exact ⟨rfl, rfl⟩
  | @uncached row x h hx hform =>
    have hentry : entryOf k key useCache row = .ok none := by
      cases useCache with
      | false => rfl
      | true =>
        obtain ⟨ws, hform⟩ := hform rfl
        rw [entryOf, if_pos rfl, hform]
        rfl
    rw [reading_of_row h, hx, hentry]
    simp only [Except.bind, Except.map, hnone]
    exact ⟨rfl, rfl⟩
  | cached h hx huse hform hwrite =>
    obtain ⟨ws, hform⟩ := hform
    obtain ⟨rfl, rfl⟩ := hwrite.eq_written
    rw [reading_of_row h, hx, entryOf, if_pos huse, hform]
    exact ⟨rfl, rfl⟩

/-- If the cache works, it depends on nothing in the cache. -/
theorem Loads.eq_ending (h : Loads s k key useCache secret t res t')
    (hfails : t.cache.fails .set = false) :
    (res, t') = s.ending key t (s.reading k key useCache secret t.table) := by
  obtain ⟨rfl, rfl⟩ := h.eq_written
  cases s.reading k key useCache secret t.table with
  | error e => rfl
  | ok found => simp only [Except.bind, written_of_works hfails, ending]

theorem ending_uncached {table : Table} : (s.ending key t (s.reading k key false secret table)).1 =
    (s.reading k key false secret table).map fun found => ⟨found.1, .table⟩ := by
  unfold reading
  split
  · rfl
  · rfl
  · next row _ =>
    cases s.materialize k key row secret <;> rfl

/-! ### Reads that find nothing in the memory -/

/-- The tiers as a read finds them that found nothing in the memory, and looked into the cache. -/
def missed (k : Kind) (key : Key) (t : Tiers) : Tiers :=
  ⟨(t.memory.getItem k key.text).2.1, (t.cache.get key.text).2, t.table⟩

/-- What stands under the key in the cache is all that a read needs to know of it. -/
theorem fetch_of_looked (hkey : Identity.validate r v = .ok ⟨r, v⟩) (hworks : σ.tiers.Works)
    (hnone : σ.tiers.memory.cells.get? (Key.mk r v).text = none)
    (huse : o.useCache.getD s.config.useCache = true) :
    ((s.fetch k r v o σ).1, (s.fetch k r v o σ).2.tiers) =
      match s.looked k ⟨r, v⟩ o.secret (σ.tiers.cache.peek (Key.mk r v).text) with
      | .error e => (.error e, missed k ⟨r, v⟩ σ.tiers)
      | .ok (some x) => (.ok ⟨x, .cache⟩, { missed k ⟨r, v⟩ σ.tiers with
          memory := (missed k ⟨r, v⟩ σ.tiers).memory.insert (Key.mk r v).text (.item x) })
      | .ok none => s.ending ⟨r, v⟩ (missed k ⟨r, v⟩ σ.tiers)
          (s.reading k ⟨r, v⟩ true o.secret σ.tiers.table) := by
  obtain ⟨m, c, found, rfl, -, -, hprobe, herror, hhit, hload⟩ :=
    (s.fetch_cases k r v o σ).of_miss hkey hnone
  rw [huse] at hprobe hload
  obtain ⟨rfl, rfl⟩ := hprobe.eq_looked (hworks.cache .get)
  cases hlooked : s.looked k ⟨r, v⟩ o.secret (σ.tiers.cache.peek (Key.mk r v).text) with
  | error e =>
    obtain ⟨hres, ht⟩ := herror e hlooked
    rw [hres, ht]
    rfl
  | ok found =>
    cases found with
    | some x =>
      obtain ⟨hres, ht⟩ := hhit x hlooked
      rw [hres, ht]
      rfl
    | none => exact (hload hlooked).eq_ending ((Cache.fails_get _ _).symm ▸ hworks.cache .set)

theorem fetch_of_unused (hkey : Identity.validate r v = .ok ⟨r, v⟩) (hworks : σ.tiers.Works)
    (hnone : σ.tiers.memory.cells.get? (Key.mk r v).text = none)
    (hunused : o.useCache.getD s.config.useCache = false) :
    (s.fetch k r v o σ).1 =
      (s.reading k ⟨r, v⟩ false o.secret σ.tiers.table).map fun found => ⟨found.1, .table⟩ := by
  obtain ⟨m, c, found, -, -, -, hprobe, -, -, hload⟩ :=
    (s.fetch_cases k r v o σ).of_miss hkey hnone
  rw [hunused] at hprobe hload
  cases hprobe with
  | unused c =>
    rw [← ending_uncached]
    exact congrArg Prod.fst ((hload rfl).eq_ending (hworks.cache .set))

/-! ### Planted bytes -/

/-- Bytes that a read of an identity as a kind makes use of, by the payload of their entry: plain
frames that can be read, of kinds that are not encrypted, and envelopes of kinds that are cached in
that form. -/
inductive Usable (k : Kind) (key : Key) (b : Bytes) : EntryPayload → Prop
  | plain {tag : String} {frame : Bytes} {x : Item}
    (he : Entry.ofBytes? b = some ⟨key.objectRef, key.version, tag, .plain frame⟩)
    (htag : k.accepts tag = true) (hkind : k.encryption = .disabled)
    (hx : Payload.decodePlain k frame = .ok x) : Usable k key b (.plain frame)
  | «sealed» {tag keyId : String} {envelope : Bytes}
    (he : Entry.ofBytes? b = some ⟨key.objectRef, key.version, tag, .sealed keyId envelope⟩)
    (htag : k.accepts tag = true) (hkind : k.encryption = .cacheEncrypted) :
    Usable k key b (.sealed keyId envelope)

theorem Usable.judge_plain {frame : Bytes} (h : Usable k key b (.plain frame)) :
    ∃ x, Payload.decodePlain k frame = .ok x ∧ s.judge k key secret b = .hit x := by
  cases h with
  | @plain tag _ x he htag hkind hx =>
    refine ⟨x, hx, ?_⟩
    simp [judge, he, htag, judgePayload, Kind.isEncrypted, hkind, Encryption.isEnabled, hx]

theorem Usable.judge_sealed {keyId : String} {envelope : Bytes}
    (h : Usable k key b (.sealed keyId envelope)) : (s.judge k key secret b).outcome =
      (s.opened k key keyId secret envelope).map some := by
  cases h with
  | @«sealed» tag _ _ he htag hkind =>
    rw [← judgePayload_sealed hkind]
    simp [judge, he, htag]

theorem judge_of_unusable (h : ∀ p, ¬ Usable k key b p) :
    (s.judge k key secret b).outcome = .ok none := by
  unfold judge
  split
  · rfl
  next e he =>
  obtain ⟨ref, version, tag, payload⟩ := e
  split
  · rfl
  next hid =>
  obtain ⟨rfl, rfl⟩ : ref = key.objectRef ∧ version = key.version := by simpa using hid
  split
  · rfl
  next hforeign =>
  have htag : k.accepts tag = true := by simpa using hforeign
  unfold judgePayload
  cases payload with
  | plain frame =>
    simp only
    split
    · rfl
    next hkind =>
    split
    · next x hx =>
      have hdisabled := Kind.encryption_of_plain (by simpa using hkind)
      exact absurd (.plain he htag hdisabled hx) (h _)
    · rfl
  | «sealed» keyId envelope =>
    simp only
    split
    · rfl
    next hkind =>
    refine absurd (.sealed he htag ?_) (h _)
    cases hencryption : k.encryption <;> simp [hencryption, Encryption.admission] at hkind ⊢

/-- A read ends over the cache of a session as it does over the cache of another: with the same
result, memory and table, and each cache asked for the key and then given the same bytes, if any. -/
structure EndsAsOver (s : Store) (k : Kind) (r : String) (v : UInt16) (o : ReadOptions)
    (σ bare : Session) (added : Option Bytes) : Prop where
  result : (s.fetch k r v o σ).1 = (s.fetch k r v o bare).1
  memory : (s.fetch k r v o σ).2.tiers.memory = (s.fetch k r v o bare).2.tiers.memory
  table : (s.fetch k r v o σ).2.tiers.table = (s.fetch k r v o bare).2.tiers.table
  cache : (s.fetch k r v o σ).2.tiers.cache = (σ.tiers.cache.get (Key.mk r v).text).2.fill
    (Key.mk r v).text s.config.ttlMilliseconds added
  bare : (s.fetch k r v o bare).2.tiers.cache = (bare.tiers.cache.get (Key.mk r v).text).2.fill
    (Key.mk r v).text s.config.ttlMilliseconds added

/-- A read that makes no use of the cache ends as over any cache with nothing under its key. -/
theorem exists_endsAsOver (hkey : Identity.validate r v = .ok ⟨r, v⟩) (hworks : σ.tiers.Works)
    (hnone : σ.tiers.memory.cells.get? (Key.mk r v).text = none)
    (huse : o.useCache.getD s.config.useCache = true)
    (hpeek : σ.tiers.cache.peek (Key.mk r v).text = some b)
    (hpassed : s.looked k ⟨r, v⟩ o.secret (some b) = .ok none) : ∃ added : Option Bytes,
      (s.fetch k r v o σ).2.tiers.cache.peek (Key.mk r v).text = some (added.getD b) ∧
      ∀ c ws, (∀ op, c.fails op = false) → c.peek (Key.mk r v).text = none →
        s.EndsAsOver k r v o σ ⟨{ σ.tiers with cache := c }, ws⟩ added := by
  obtain ⟨added, hadded⟩ := s.ending_fill ⟨r, v⟩ (missed k ⟨r, v⟩ σ.tiers)
    (s.reading k ⟨r, v⟩ true o.secret σ.tiers.table)
  have hfull := fetch_of_looked (k := k) hkey hworks hnone huse
  rw [hpeek, hpassed] at hfull
  obtain ⟨hres, ht⟩ := Prod.mk.inj (hfull.trans (hadded (σ.tiers.cache.get (Key.mk r v).text).2))
  refine ⟨added, ?_, ?_⟩
  · have hheld : (σ.tiers.cache.get (Key.mk r v).text).2.peek (Key.mk r v).text = some b := by
      rw [Cache.peek_get, hpeek]
    have hset : (σ.tiers.cache.get (Key.mk r v).text).2.fails .set = false := by
      rw [Cache.fails_get]
      exact hworks.cache .set
    rw [ht]
    exact Cache.peek_fill_self hheld hset s.config.ttlMilliseconds added
  · intro c ws hc habsent
    have hbare := fetch_of_looked (s := s) (k := k) (σ := ⟨{ σ.tiers with cache := c }, ws⟩) hkey
      ⟨hc, hworks.table⟩ hnone huse
    simp only [habsent, looked] at hbare
    obtain ⟨hres', ht'⟩ := Prod.mk.inj (hbare.trans (hadded (c.get (Key.mk r v).text).2))
    exact ⟨by rw [hres, hres'], by rw [ht, ht'], by rw [ht, ht'], by rw [ht], by rw [ht']⟩

/-- Whatever bytes stand under the key of an object that is not in the memory, a read that uses the
cache decodes a plain frame it can use and answers with it, or opens an envelope it can use and
answers with what comes of that, in neither case asking the table. Of any other bytes it makes no
use: it ends as over a cache with nothing under the key, and what is written there, if anything, is
written in the place of the bytes. -/
theorem fetch_of_planted (hkey : Identity.validate r v = .ok ⟨r, v⟩) (hworks : σ.tiers.Works)
    (hnone : σ.tiers.memory.cells.get? (Key.mk r v).text = none)
    (huse : o.useCache.getD s.config.useCache = true)
    (hpeek : σ.tiers.cache.peek (Key.mk r v).text = some b) :
    (∀ frame, Usable k ⟨r, v⟩ b (.plain frame) → ∃ x, Payload.decodePlain k frame = .ok x ∧
      (s.fetch k r v o σ).1 = .ok ⟨x, .cache⟩ ∧
      (s.fetch k r v o σ).2.tiers.table = σ.tiers.table) ∧
    (∀ keyId envelope, Usable k ⟨r, v⟩ b (.sealed keyId envelope) →
      (s.fetch k r v o σ).1 =
        (s.opened k ⟨r, v⟩ keyId o.secret envelope).map (fun x => ⟨x, .cache⟩) ∧
      (s.fetch k r v o σ).2.tiers.table = σ.tiers.table) ∧
    ((∀ p, ¬ Usable k ⟨r, v⟩ b p) → ∃ added : Option Bytes,
      (s.fetch k r v o σ).2.tiers.cache.peek (Key.mk r v).text = some (added.getD b) ∧
      ∀ c ws, (∀ op, c.fails op = false) → c.peek (Key.mk r v).text = none →
        s.EndsAsOver k r v o σ ⟨{ σ.tiers with cache := c }, ws⟩ added) := by
  have hfetch := fetch_of_looked (k := k) hkey hworks hnone huse
  rw [hpeek] at hfetch
  refine ⟨?_, ?_, ?_⟩
  · intro frame h
    obtain ⟨x, hx, hjudge⟩ : ∃ x, Payload.decodePlain k frame = .ok x ∧
        s.judge k ⟨r, v⟩ o.secret b = .hit x := h.judge_plain
    rw [looked, hjudge, Verdict.outcome] at hfetch
    obtain ⟨hres, ht⟩ := Prod.mk.inj hfetch
    exact ⟨x, hx, hres, by rw [ht]; rfl⟩
  · intro keyId envelope h
    rw [looked, h.judge_sealed] at hfetch
    cases hopened : s.opened k ⟨r, v⟩ keyId o.secret envelope with
    | error e =>
      rw [hopened] at hfetch
      obtain ⟨hres, ht⟩ := Prod.mk.inj hfetch
      exact ⟨hres, by rw [ht]; rfl⟩
    | ok x =>
      rw [hopened] at hfetch
      obtain ⟨hres, ht⟩ := Prod.mk.inj hfetch
      exact ⟨hres, by rw [ht]; rfl⟩
  · intro h
    exact exists_endsAsOver hkey hworks hnone huse hpeek (judge_of_unusable h)

open Cluster (trialSite trialSecret trialItem)

/-- A sealed row of an item. -/
def sealedRow (x : Item) : Row :=
  let p := Payload.encodeSealed .chaCha trialSecret (List.replicate 12 1) x.objectRef x.version x
  ⟨x.objectRef, x.version, (p.toOption.map Payload.bytes).getD [], some trialSecret.reference, 0⟩

/-- The trial site with the row of an item in the table, and an entry of it in the cache. -/
def planted (x : Item) (p : EntryPayload) : Session :=
  ⟨⟨.ofCapacity 4,
    (Cache.trial .empty).place x.key.text (Entry.mk x.objectRef x.version x.kind.tag p).toBytes,
    (Table.memory .empty).place (sealedRow x)⟩, []⟩

/-- A broken envelope in the cache is an error, whatever the table holds; a plain frame of an
encrypted kind is passed over. -/
theorem fetch_of_planted_trial :
    (trialSite.store.fetch .creds "a" 1 ⟨none, some trialSecret⟩
      (planted trialItem (.sealed "k" [0, 0]))).1 =
        .error (.envelope (.decryptionFailed "a" 1 (.nonceLength 0))) ∧
    ∃ added, trialSite.store.EndsAsOver .creds "a" 1 ⟨none, some trialSecret⟩
      (planted trialItem (.plain []))
      ⟨{ (planted trialItem (.plain [])).tiers with cache := .trial .empty }, []⟩ added := by
  have hworks (p : EntryPayload) : (planted trialItem p).tiers.Works :=
    ⟨fun op => by cases op <;> rfl, rfl⟩
  have hsealed : Entry.ofBytes? (Entry.mk "a" 1 Kind.creds.tag (.sealed "k" [0, 0])).toBytes =
      some ⟨"a", 1, Kind.creds.tag, .sealed "k" [0, 0]⟩ := by
    decide +kernel
  have hplain : Entry.ofBytes? (Entry.mk "a" 1 Kind.creds.tag (.plain [])).toBytes =
      some ⟨"a", 1, Kind.creds.tag, .plain []⟩ := by
    decide +kernel
  have hplanted (p : EntryPayload) :=
    fetch_of_planted (s := trialSite.store) (k := .creds) (r := "a") (v := 1)
      (o := ⟨none, some trialSecret⟩) (σ := planted trialItem p) rfl (hworks p) rfl rfl rfl
  obtain ⟨-, hopened, -⟩ := hplanted (.sealed "k" [0, 0])
  obtain ⟨-, -, hpassed⟩ := hplanted (.plain [])
  constructor
  · rw [(hopened "k" [0, 0] (.sealed hsealed (by decide) rfl)).1]
    rfl
  · obtain ⟨added, -, hends⟩ := hpassed fun p hp => by
      cases hp with
      | plain _ _ hkind => cases hkind
      | «sealed» he => cases hplain.symm.trans he
    exact ⟨added, hends _ _ (fun op => by cases op <;> rfl) rfl⟩

/-! ### Mirrored rows -/

/-- A row in the form it has in an entry. -/
def mirror (row : Row) : EntryPayload :=
  match row.keyId with
  | none => .plain row.payload
  | some keyId => .sealed keyId row.payload

/-- A sealed row that is read as an item of a kind that is not encrypted. -/
def Declassifies (s : Store) (k : Kind) (key : Key) (secret : Option Secret) (row : Row)
    (x : Item) : Prop :=
  row.isEncrypted = true ∧ k.encryption = .disabled ∧ s.materialize k key row secret = .ok x

/-- What is made of the entry of a row is what is made of the row, if anything is made of it. -/
theorem judge_mirror {tag : String}
    (hown : row.objectRef = key.objectRef ∧ row.version = key.version)
    (hb : (Entry.mk key.objectRef key.version tag (mirror row)).encode? = some b) :
    (s.judge k key secret b).outcome = .ok none ∨
    (¬ (row.isEncrypted = true ∧ k.encryption = .disabled) ∧
      (s.judge k key secret b).outcome = (s.materialize k key row secret).map some) := by
  have he := Entry.ofBytes?_of_encode? hb
  by_cases hused : ∃ p, Usable k key b p
  · obtain ⟨p, hp⟩ := hused
    have hform : mirror row = p := by
      cases hp with
      | plain he' => exact congrArg Entry.payload (Option.some.inj (he.symm.trans he'))
      | «sealed» he' => exact congrArg Entry.payload (Option.some.inj (he.symm.trans he'))
    subst hform
    refine .inr ?_
    cases hid : row.keyId with
    | none =>
      simp only [mirror, hid] at hp
      obtain ⟨x, hx, hjudge⟩ : ∃ x, Payload.decodePlain k row.payload = .ok x ∧
          s.judge k key secret b = .hit x := hp.judge_plain
      refine ⟨by simp [Row.isEncrypted, hid], ?_⟩
      rw [hjudge, materialize_plain hid, hx]
      rfl
    | some keyId =>
      simp only [mirror, hid] at hp
      rw [materialize_sealed hid hown, hp.judge_sealed]
      refine ⟨?_, rfl⟩
      cases hp with
      | «sealed» _ _ hkind => simp [hkind]
  · exact .inl (judge_of_unusable (not_exists.mp hused))

/-- So a look-up over a cache that mirrors the table finds nothing, or what is made of the row. -/
theorem looked_of_mirrored (s : Store) (k : Kind) (key : Key) (secret : Option Secret)
    (hfiled : t.table.Filed)
    (hcache : ∀ b, t.cache.peek key.text = some b →
      ∃ row tag, (t.table.find key.objectRef key.version).1 = .ok (some row) ∧
        (Entry.mk key.objectRef key.version tag (mirror row)).encode? = some b) :
    s.looked k key secret (t.cache.peek key.text) = .ok none ∨
    ∃ row, (t.table.find key.objectRef key.version).1 = .ok (some row) ∧
      ¬ (row.isEncrypted = true ∧ k.encryption = .disabled) ∧
      s.looked k key secret (t.cache.peek key.text) =
        (s.materialize k key row secret).map some := by
  cases hpeek : t.cache.peek key.text with
  | none => exact .inl rfl
  | some b =>
    obtain ⟨row, tag, hrow, hb⟩ := hcache b hpeek
    rcases judge_mirror (hfiled _ _ _ (Table.peek_of_find hrow)) hb with h | ⟨hkept, h⟩
    · exact .inl h
    · exact .inr ⟨row, hrow, hkept, h⟩

/-- A row that is not declassified goes into the cache as it is, or not at all. -/
theorem cacheForm_ok (h : ¬ (row.isEncrypted = true ∧ k.encryption = .disabled)) :
    ∃ p ws, cacheForm k key row = .ok (p, ws) ∧ (p = none ∨ p = some (mirror row)) := by
  cases hid : row.keyId with
  | none =>
    cases hkind : k.encryption <;>
      simp [cacheForm, mirror, hid, hkind, Encryption.admission]
  | some keyId =>
    cases hkind : k.encryption with
    | disabled => exact absurd ⟨by simp [Row.isEncrypted, hid], hkind⟩ h
    | cacheEncrypted => simp [cacheForm, mirror, hid, hkind, Encryption.admission]
    | cacheDecrypted => simp [cacheForm, hid, hkind, Encryption.admission]

theorem payloadParts_mirror (row : Row) : Entry.payloadParts (mirror row) =
    ((row.keyId.map Bytes.ofText).getD [], row.payload) := by
  cases hid : row.keyId <;> simp only [mirror, hid] <;> rfl

/-- If it goes into the cache, it can be written. -/
theorem entryOf_ok (hsize : row.toBytes.length < Layout.textLimit)
    (h : ¬ (row.isEncrypted = true ∧ k.encryption = .disabled)) :
    ∃ entry, entryOf k key true row = .ok entry ∧ s.writeResult key entry = .ok () := by
  obtain ⟨p, ws, hform, hp⟩ : ∃ p ws, cacheForm k key row = .ok (p, ws) ∧
      (p = none ∨ p = some (mirror row)) := cacheForm_ok h
  refine ⟨_, by rw [entryOf, if_pos rfl, hform]; rfl, ?_⟩
  rcases hp with rfl | rfl
  · rfl
  · simp only [Option.map_some, writeResult,
      Entry.encode?_eq_some hsize k.length_tag_le (payloadParts_mirror row)]

section

variable {table : Table}

/-- A read that fills the cache comes to the item that the table has, if that is no row which is
declassified. -/
theorem ending_cached
    (hsize : ∀ row, (table.find key.objectRef key.version).1 = .ok (some row) →
      row.toBytes.length < Layout.textLimit)
    (h : ∀ row x, (table.find key.objectRef key.version).1 = .ok (some row) →
      ¬ s.Declassifies k key secret row x) :
    (s.ending key t (s.reading k key true secret table)).1 =
      (s.reading k key false secret table).map fun found => ⟨found.1, .table⟩ := by
  unfold reading
  split
  · rfl
  · rfl
  · next row hfind =>
    cases hx : s.materialize k key row secret with
    | error e => rfl
    | ok x =>
      have hkept : ¬ (row.isEncrypted = true ∧ k.encryption = .disabled) :=
        fun hrow => h row x hfind ⟨hrow.1, hrow.2, hx⟩
      obtain ⟨entry, hentry, hwrite⟩ : ∃ entry, entryOf k key true row = .ok entry ∧
          s.writeResult key entry = .ok () := entryOf_ok (hsize row hfind) hkept
      simp only [Except.bind, hentry, Except.map, ending, hwrite]
      rfl

/-- A row that is declassified is an error. -/
theorem reading_of_declassified (hfind : (table.find key.objectRef key.version).1 = .ok (some row))
    (h : s.Declassifies k key secret row x) :
    s.reading k key true secret table = .error (.uncacheable k key.text) := by
  obtain ⟨hrow, hkind, hx⟩ := h
  obtain ⟨keyId, hid⟩ := Option.isSome_iff_exists.mp hrow
  simp only [reading, hfind, hx, Except.bind, entryOf, if_true, cacheForm, hid, hkind,
    Encryption.admission]
  rfl

end

/-- A read of it with the cache fails, and leaves memory and cache as they are. -/
theorem fetch_of_declassified (hkey : Identity.validate r v = .ok ⟨r, v⟩)
    (hworks : σ.tiers.Works) (hnone : σ.tiers.memory.cells.get? (Key.mk r v).text = none)
    (huse : o.useCache.getD s.config.useCache = true)
    (hpassed : s.looked k ⟨r, v⟩ o.secret (σ.tiers.cache.peek (Key.mk r v).text) = .ok none)
    (hfind : (σ.tiers.table.find r v).1 = .ok (some row))
    (hrow : s.Declassifies k ⟨r, v⟩ o.secret row x) :
    (s.fetch k r v o σ).1 = .error (.uncacheable k (Key.mk r v).text) ∧
      (s.fetch k r v o σ).2.tiers.memory.cells = σ.tiers.memory.cells ∧
      (s.fetch k r v o σ).2.tiers.cache.peek = σ.tiers.cache.peek := by
  have hfetch := fetch_of_looked (k := k) hkey hworks hnone huse
  rw [hpassed, reading_of_declassified hfind hrow] at hfetch
  obtain ⟨hres, ht⟩ := Prod.mk.inj hfetch
  refine ⟨hres, ?_, ?_⟩
  · obtain ⟨m, hm, hcells, -⟩ := Memory.getItem_of_none hnone k
    rw [ht]
    simp only [missed, hm, hcells]
  · rw [ht]
    exact Cache.peek_get _ _

/-- Over a cache that has at most the entry of the row, a read that uses the cache and one that does
not come to the same, the tier apart, unless the row is declassified. Then the read that uses the
cache fails and leaves memory and cache as they are. -/
theorem fetch_of_mirrored
    (hkey : Identity.validate r v = .ok ⟨r, v⟩) (hworks : σ.tiers.Works)
    (htable : σ.tiers.table.Arises)
    (hnone : σ.tiers.memory.cells.get? (Key.mk r v).text = none)
    (huse : o.useCache.getD s.config.useCache = true)
    (hunused : u.useCache.getD s.config.useCache = false) (hsecret : u.secret = o.secret)
    (hsize : ∀ row, σ.tiers.table.peek r v = .ok (some row) →
      row.toBytes.length < Layout.textLimit)
    (hcache : ∀ b, σ.tiers.cache.peek (Key.mk r v).text = some b →
      ∃ row tag, σ.tiers.table.peek r v = .ok (some row) ∧
        (Entry.mk r v tag (mirror row)).encode? = some b) :
    (∀ row x, σ.tiers.table.peek r v = .ok (some row) →
      s.Declassifies k ⟨r, v⟩ o.secret row x →
      (s.fetch k r v o σ).1 = .error (.uncacheable k (Key.mk r v).text) ∧
      (s.fetch k r v o σ).2.tiers.memory.cells = σ.tiers.memory.cells ∧
      (s.fetch k r v o σ).2.tiers.cache.peek = σ.tiers.cache.peek ∧
      (s.fetch k r v u σ).1 = .ok ⟨x, .table⟩) ∧
    ((∀ row x, σ.tiers.table.peek r v = .ok (some row) →
      ¬ s.Declassifies k ⟨r, v⟩ o.secret row x) →
      (s.fetch k r v o σ).1.map Fetched.item = (s.fetch k r v u σ).1.map Fetched.item) := by
  have hfind : (σ.tiers.table.find r v).1 = σ.tiers.table.peek r v := by
    rw [Table.find_eq, hworks.table]
    rfl
  rw [← hfind] at hsize hcache ⊢
  have hoff := fetch_of_unused (k := k) hkey hworks hnone hunused
  rw [hsecret] at hoff
  have hlooked := s.looked_of_mirrored k ⟨r, v⟩ o.secret htable.filed hcache
  refine ⟨?_, ?_⟩
  · intro row x hrow hdecl
    have hpassed : s.looked k ⟨r, v⟩ o.secret (σ.tiers.cache.peek (Key.mk r v).text) =
        .ok none := by
      rcases hlooked with h | ⟨row', hrow', hkept, -⟩
      · exact h
      · cases hrow.symm.trans hrow'
        exact absurd ⟨hdecl.1, hdecl.2.1⟩ hkept
    obtain ⟨hon, hmemory, hheld⟩ := fetch_of_declassified hkey hworks hnone huse hpassed hrow hdecl
    refine ⟨hon, hmemory, hheld, ?_⟩
    rw [hoff, reading_of_row hrow, hdecl.2.2]
    rfl
  · intro hkept
    have hon := congrArg Prod.fst (fetch_of_looked (k := k) hkey hworks hnone huse)
    rcases hlooked with h | ⟨row, hrow, -, h⟩
    · -- nothing was made of the bytes in the cache, if there were any
      rw [h] at hon
      rw [hoff]
      exact congrArg _ (hon.trans (ending_cached hsize hkept))
    · rw [h] at hon
      rw [reading_of_row hrow] at hoff
      cases hx : s.materialize k ⟨r, v⟩ row o.secret with
      | error e =>
        rw [hx] at hon hoff
        rw [hoff, hon]
        rfl
      | ok x =>
        rw [hx] at hon hoff
        rw [hoff, hon]
        rfl

/-- A sealed item comes to the same from the cache and from the table; one of a kind that is not
encrypted is read from the table alone. -/
theorem fetch_of_mirrored_trial : ∃ x y, x = trialItem ∧ y = ⟨"b", 1, .smtp "h" 25⟩ ∧
    (trialSite.store.fetch .creds "a" 1 ⟨some true, some trialSecret⟩
      (planted x (mirror (sealedRow x)))).1.map Fetched.item =
    (trialSite.store.fetch .creds "a" 1 ⟨some false, some trialSecret⟩
      (planted x (mirror (sealedRow x)))).1.map Fetched.item ∧
    (trialSite.store.fetch .smtp "b" 1 ⟨some true, some trialSecret⟩
      (planted y (mirror (sealedRow y)))).1 = .error (.uncacheable .smtp (Key.mk "b" 1).text) ∧
    ∃ z, (trialSite.store.fetch .smtp "b" 1 ⟨some false, some trialSecret⟩
      (planted y (mirror (sealedRow y)))).1 = .ok ⟨z, .table⟩ := by
  obtain ⟨x, hx⟩ : ∃ x, x = trialItem := ⟨_, rfl⟩
  obtain ⟨y, hy⟩ : ∃ y : Item, y = ⟨"b", 1, .smtp "h" 25⟩ := ⟨_, rfl⟩
  have hpeek (w : Item) (p : EntryPayload) :
      (planted w p).tiers.table.peek w.objectRef w.version = .ok (some (sealedRow w)) := by
    show Except.ok _ = _
    rw [MemoryTable.get?_place, if_pos ⟨rfl, rfl⟩]
  have hmirrored (w : Item) (hkey : Identity.validate w.objectRef w.version = .ok w.key)
      (hsize : (sealedRow w).toBytes.length < Layout.textLimit) :=
    fetch_of_mirrored (s := trialSite.store) (k := w.kind) (r := w.objectRef) (v := w.version)
      (o := ⟨some true, some trialSecret⟩) (u := ⟨some false, some trialSecret⟩)
      (σ := planted w (mirror (sealedRow w))) hkey ⟨fun op => by cases op <;> rfl, rfl⟩
      (Table.Arises.memory.place _) rfl rfl rfl rfl
      (by
        intro row hrow
        rw [hpeek] at hrow
        cases hrow
        exact hsize)
      (by
        intro b hb
        refine ⟨_, w.kind.tag, hpeek w _, ?_⟩
        have hentry : (Entry.mk w.objectRef w.version w.kind.tag (mirror (sealedRow w))).encode? =
            some _ :=
          Entry.encode?_eq_some (r := sealedRow w) hsize w.kind.length_tag_le rfl
        rw [hentry, ← hb]
        simp only [planted, Cache.place, Cache.peek, TrialCache.peek, TrialCache.place, Item.key,
          Dictionary.get?_insert_self]
        rfl)
  have hencrypted := (hmirrored x (by rw [hx]; rfl) (by rw [hx]; decide +kernel)).2
  have hdisabled := (hmirrored y (by rw [hy]; rfl) (by rw [hy]; decide +kernel)).1
  have hitem : (trialSite.store.materialize y.kind y.key (sealedRow y) (some trialSecret)).isOk =
      true := by
    rw [hy]
    decide +kernel
  refine ⟨x, y, hx, hy, ?_, ?_⟩
  · subst hx
    refine hencrypted fun row z _ hdecl => ?_
    cases hdecl.2.1
  · cases hz : trialSite.store.materialize y.kind y.key (sealedRow y) (some trialSecret) with
    | error e =>
      rw [hz] at hitem
      cases hitem
    | ok z =>
      obtain ⟨hon, -, -, hoff⟩ := hdisabled _ z (hpeek y _) ⟨rfl, by rw [hy]; rfl, hz⟩
      subst hy
      exact ⟨hon, z, hoff⟩

end Store

end ObjectTiers
