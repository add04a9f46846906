/-
Reads over a cache that fails, under a policy that goes on.

Such a cache is as good as one with nothing under the key, and a cache that only cannot be written
is as good as one that works; without failures the policy makes no difference
(`Store.fetch_of_degraded`). It is enough to look at two things, what a look-up in the cache comes
to (`Store.probed`) and what a write into it comes to (`Store.written`): a read is a function of
these, the memory and the table (`Store.fetch_eq_outcome`).
-/
import ObjectTiers.Proofs.Transparency

namespace ObjectTiers

theorem Policy.outcome_of_ne_throw {p : Policy} (h : p ≠ .throw) (e : CacheError) :
    p.outcome e = .ok () := by
  cases p with
  | throw => exact absurd rfl h
  | log | ignore => rfl

namespace Store

variable {s s' : Store} {k : Kind} {key : Key} {useCache : Bool} {secret : Option Secret}
  {t t' : Tiers} {c c' : Cache} {r : String} {v : UInt16} {o : ReadOptions} {σ τ : Session}

/-! ### Reads as functions -/

/-- What comes of a look-up in the cache, if it is used. -/
def probed (s : Store) (k : Kind) (key : Key) (secret : Option Secret) (useCache : Bool)
    (c : Cache) : Except StoreError (Option Item) :=
  if !useCache then .ok none
  else if c.fails .get then
    (s.config.policy.outcome (TrialCache.injected .get key.text)).map fun _ => none
  else s.looked k key secret (c.peek key.text)

theorem Probes.eq_probed {found : Except StoreError (Option Item)}
    (h : Probes s k key secret useCache c found c') :
    found = s.probed k key secret useCache c := by
  cases useCache with
  | false => cases h; rfl
  | true =>
    cases hfails : c.fails .get with
    | false =>
      rw [(h.eq_looked hfails).1]
      simp [probed, hfails]
    | true =>
      have hget := Cache.get_fails hfails key.text
      cases h with
      | failed h =>
        cases h.symm.trans hget
        simp [probed, hfails]
      | absent h | found h => cases h.symm.trans hget

theorem written_congr (h : c'.fails = c.fails) (key : Key) (entry : Option Entry) :
    s.written key c' entry = s.written key c entry := by
  rw [written, written, h]

/-- A read of a key: its result, and the memory and the table it leaves behind. -/
def outcome (s : Store) (k : Kind) (key : Key) (o : ReadOptions) (t : Tiers) :
    Except StoreError Fetched × Memory × Table :=
  let useCache := o.useCache.getD s.config.useCache
  match t.memory.getItem k key.text with
  | (some x, m, _) => (.ok ⟨x, .memory⟩, m, t.table)
  | (none, m, _) =>
    match s.probed k key o.secret useCache t.cache with
    | .error e => (.error e, m, t.table)
    | .ok (some x) => (.ok ⟨x, .cache⟩, m.insert key.text (.item x), t.table)
    | .ok none =>
      let table := (t.table.find key.objectRef key.version).2.1
      match s.reading k key useCache o.secret t.table with
      | .error e => (.error e, m, table)
      | .ok (x, entry) =>
        (loaded x (s.written key t.cache entry), m.insert key.text (.item x), table)

theorem Fetches.eq_outcome {res : Except StoreError Fetched} (h : Fetches s k r v o t res t')
    (hkey : Identity.validate r v = .ok key) :
    (res, t'.memory, t'.table) = s.outcome k key o t := by
  cases h with
  | invalid hkey' => cases hkey.symm.trans hkey'
  | memory hkey' hm =>
    cases hkey.symm.trans hkey'
    simp only [outcome, hm]
  | refused hkey' hm hc | cache hkey' hm hc =>
    cases hkey.symm.trans hkey'
    simp only [outcome, hm, ← hc.eq_probed]
  | table hkey' hm hc hload =>
    cases hkey.symm.trans hkey'
    obtain ⟨rfl, rfl⟩ := hload.eq_written
    simp only [outcome, hm, ← hc.eq_probed, written_congr hc.fails_eq]
    split <;> simp only [*, Except.bind, ending]

theorem fetch_eq_outcome (hkey : Identity.validate r v = .ok key) :
    ((s.fetch k r v o σ).1, (s.fetch k r v o σ).2.tiers.memory,
      (s.fetch k r v o σ).2.tiers.table) = s.outcome k key o σ.tiers :=
  (s.fetch_cases k r v o σ).eq_outcome hkey

/-! ### Runs alike -/

/-- Two runs of a read give the same result and leave the same memory and the same table. -/
structure EndsAlike (x y : Except StoreError Fetched × Session) : Prop where
  result : x.1 = y.1
  memory : x.2.tiers.memory = y.2.tiers.memory
  table : x.2.tiers.table = y.2.tiers.table

/-- Runs from sessions with the same memory and the same table are alike if they come to the same
for the key. -/
theorem endsAlike_of_outcome (hmemory : τ.tiers.memory = σ.tiers.memory)
    (htable : τ.tiers.table = σ.tiers.table)
    (h : s'.outcome k ⟨r, v⟩ o τ.tiers = s.outcome k ⟨r, v⟩ o σ.tiers) :
    EndsAlike (s'.fetch k r v o τ) (s.fetch k r v o σ) := by
  cases hkey : Identity.validate r v with
  | error e =>
    obtain ⟨hres', ht'⟩ := (s'.fetch_cases k r v o τ).of_invalid hkey
    obtain ⟨hres, ht⟩ := (s.fetch_cases k r v o σ).of_invalid hkey
    exact ⟨hres'.trans hres.symm, by rw [ht', ht, hmemory], by rw [ht', ht, htable]⟩
  | ok key =>
    cases Identity.eq_of_validate hkey
    rw [← fetch_eq_outcome hkey, ← fetch_eq_outcome hkey] at h
    obtain ⟨hres, hrest⟩ := Prod.mk.inj h
    obtain ⟨hmemory', htable'⟩ := Prod.mk.inj hrest
    exact ⟨hres, hmemory', htable'⟩

theorem outcome_congr
    (hprobed : s.probed k key o.secret (o.useCache.getD s.config.useCache) c =
      s.probed k key o.secret (o.useCache.getD s.config.useCache) t.cache)
    (hwritten : ∀ entry, s.written key c entry = s.written key t.cache entry) :
    s.outcome k key o { t with cache := c } = s.outcome k key o t := by
  simp only [outcome, hprobed, hwritten]

/-! ### Policies that go on -/

theorem written_of_ne_throw (h : s.config.policy ≠ .throw) (key : Key) (c : Cache)
    (entry : Option Entry) : s.written key c entry = .ok () := by
  rw [written]
  split
  · exact Policy.outcome_of_ne_throw h _
  · cases entry with
    | none => rfl
    | some e =>
      rw [writeResult]
      split
      · exact Policy.outcome_of_ne_throw h _
      · rfl

theorem probed_of_failing (h : s.config.policy ≠ .throw) (hfails : c.fails .get = true) :
    s.probed k key secret useCache c = .ok none := by
  cases useCache with
  | false => rfl
  | true =>
    simp only [probed, hfails, Policy.outcome_of_ne_throw h]
    rfl

theorem probed_of_absent (hfails : c.fails .get = false) (hpeek : c.peek key.text = none) :
    s.probed k key secret useCache c = .ok none := by
  cases useCache with
  | false => rfl
  | true =>
    simp only [probed, hfails, hpeek]
    rfl

/-! ### Policies in a cache that works -/

/-- The store under another policy. -/
def withPolicy (s : Store) (p : Policy) : Store :=
  { s with config := { s.config with policy := p } }

theorem probed_withPolicy (hfails : c.fails .get = false) (p : Policy) :
    (s.withPolicy p).probed k key secret useCache c = s.probed k key secret useCache c := by
  have hlooked (o : Option Bytes) :
      (s.withPolicy p).looked k key secret o = s.looked k key secret o := by
    cases o <;> rfl
  simp only [probed, hfails, hlooked]
  rfl

theorem reading_ok {table : Table} {x : Item} {entry : Option Entry}
    (h : s.reading k key useCache secret table = .ok (x, entry)) :
    ∃ row, (table.find key.objectRef key.version).1 = .ok (some row) ∧
      s.materialize k key row secret = .ok x ∧ entryOf k key useCache row = .ok entry := by
  unfold reading at h
  split at h
  · cases h
  · cases h
  · next row hfind =>
    obtain ⟨y, hx, h⟩ := Item.ok_of_bind h
    cases hentry : entryOf k key useCache row with
    | error e => rw [hentry] at h; cases h
    | ok e =>
      rw [hentry] at h
      cases h
      exact ⟨row, hfind, hx, hentry⟩

/-- An entry that a read puts into the cache can be written, if the cache works. -/
theorem written_of_reading {table : Table} {x : Item} {entry : Option Entry}
    (hset : c.fails .set = false)
    (hsize : ∀ row, table.peek key.objectRef key.version = .ok (some row) →
      row.toBytes.length < Layout.textLimit)
    (h : s.reading k key useCache secret table = .ok (x, entry)) :
    s.written key c entry = .ok () := by
  obtain ⟨row, hfind, -, hentry⟩ := reading_ok h
  rw [written_of_works hset]
  cases useCache with
  | false => cases hentry; rfl
  | true =>
    have hkept : ¬ (row.isEncrypted = true ∧ k.encryption = .disabled) := by
      rintro ⟨hrow, hkind⟩
      obtain ⟨keyId, hid⟩ := Option.isSome_iff_exists.mp hrow
      simp [entryOf, cacheForm, hid, hkind, Encryption.admission, Except.map] at hentry
    obtain ⟨e, he, hwrite⟩ : ∃ e, entryOf k key true row = .ok e ∧ s.writeResult key e = .ok () :=
      entryOf_ok (hsize row (Table.peek_of_find hfind)) hkept
    cases hentry.symm.trans he
    exact hwrite

theorem outcome_withPolicy (hget : t.cache.fails .get = false) (hset : t.cache.fails .set = false)
    (hsize : ∀ row, t.table.peek key.objectRef key.version = .ok (some row) →
      row.toBytes.length < Layout.textLimit) (p : Policy) :
    (s.withPolicy p).outcome k key o t = s.outcome k key o t := by
  have hreading (useCache : Bool) : (s.withPolicy p).reading k key useCache o.secret t.table =
      s.reading k key useCache o.secret t.table := rfl
  have hconfig : (s.withPolicy p).config.useCache = s.config.useCache := rfl
  have hwritten {useCache : Bool} {x : Item} {entry : Option Entry}
      (h : s.reading k key useCache o.secret t.table = .ok (x, entry)) :
      (s.withPolicy p).written key t.cache entry = s.written key t.cache entry := by
    rw [written_of_reading hset hsize h, written_of_reading hset hsize ((hreading _).trans h)]
  simp only [outcome, hconfig, probed_withPolicy hget, hreading]
  split
  · rfl
  split
  · rfl
  · rfl
  split
  · rfl
  · next h => rw [hwritten h]

/-! ### Reads over a cache that fails -/

/-- Under a policy that goes on, a read over a cache that cannot be asked ends as over any working
cache with nothing under the key, whether it can be written or not; and one over a cache that can
be asked, but maybe not written, ends as over any working cache that holds the same. Over a cache
that can be asked and written, a read ends the same under every policy, whatever it fails with. -/
theorem fetch_of_degraded (s : Store) (k : Kind) (r : String) (v : UInt16) (o : ReadOptions)
    (σ : Session) :
    (s.config.policy ≠ .throw → ∀ c ws, (∀ op, c.fails op = false) →
      (σ.tiers.cache.fails .get = true → c.peek (Key.mk r v).text = none →
        EndsAlike (s.fetch k r v o σ) (s.fetch k r v o ⟨{ σ.tiers with cache := c }, ws⟩)) ∧
      (σ.tiers.cache.fails .get = false → c.peek = σ.tiers.cache.peek →
        EndsAlike (s.fetch k r v o σ) (s.fetch k r v o ⟨{ σ.tiers with cache := c }, ws⟩))) ∧
    (σ.tiers.cache.fails .get = false → σ.tiers.cache.fails .set = false →
      (∀ row, σ.tiers.table.peek r v = .ok (some row) →
        row.toBytes.length < Layout.textLimit) →
      ∀ p, EndsAlike ((s.withPolicy p).fetch k r v o σ) (s.fetch k r v o σ)) := by
  refine ⟨fun hpolicy c ws hworks => ⟨fun hfails habsent => ?_, fun hasked hheld => ?_⟩,
    fun hget hset hsize p => ?_⟩
  · refine endsAlike_of_outcome rfl rfl (outcome_congr ?_ fun entry => ?_).symm
    · rw [probed_of_absent (hworks .get) habsent, probed_of_failing hpolicy hfails]
    · rw [written_of_ne_throw hpolicy, written_of_ne_throw hpolicy]
  · refine endsAlike_of_outcome rfl rfl (outcome_congr ?_ fun entry => ?_).symm
    · simp only [probed, hworks, hasked, hheld]
    · rw [written_of_ne_throw hpolicy, written_of_ne_throw hpolicy]
  · exact endsAlike_of_outcome rfl rfl (outcome_withPolicy hget hset hsize p)

open Cluster (trialSite trialSecret trialItem)

/-- The trial site with the row of an item in the table and a cache that fails as it is told to. -/
def degraded (x : Item) (f : CacheFailures) : Session :=
  ⟨⟨.ofCapacity 4, .trial { TrialCache.empty with failures := f },
    (Table.memory .empty).place (sealedRow x)⟩, []⟩

theorem fetch_of_degraded_trial : ∃ s o, s = trialSite.store.withPolicy .log ∧
    o = ⟨none, some trialSecret⟩ ∧
    (s.fetch .creds "a" 1 o (degraded trialItem ⟨true, true, true⟩)).1.isOk = true ∧
    EndsAlike (s.fetch .creds "a" 1 o (degraded trialItem ⟨true, true, true⟩))
      (s.fetch .creds "a" 1 o (degraded trialItem ⟨false, false, false⟩)) ∧
    EndsAlike (s.fetch .creds "a" 1 o (degraded trialItem ⟨false, true, false⟩))
      (s.fetch .creds "a" 1 o (degraded trialItem ⟨false, false, false⟩)) ∧
    ∀ p, EndsAlike ((s.withPolicy p).fetch .creds "a" 1 o
        (degraded trialItem ⟨false, false, false⟩))
      (s.fetch .creds "a" 1 o (degraded trialItem ⟨false, false, false⟩)) := by
  obtain ⟨s, hs⟩ : ∃ s, s = trialSite.store.withPolicy .log := ⟨_, rfl⟩
  obtain ⟨o, ho⟩ : ∃ o : ReadOptions, o = ⟨none, some trialSecret⟩ := ⟨_, rfl⟩
  have hpolicy : s.config.policy ≠ .throw := by
    rw [hs]
    decide
  have hworks (op : CacheOperation) :
      (degraded trialItem ⟨false, false, false⟩).tiers.cache.fails op = false := by
    cases op <;> rfl
  refine ⟨s, o, hs, ho, ?_, ?_, ?_, ?_⟩
  · rw [hs, ho]
    decide +kernel
  · exact ((fetch_of_degraded s .creds "a" 1 o (degraded trialItem ⟨true, true, true⟩)).1 hpolicy
      _ _ hworks).1 rfl rfl
  · exact ((fetch_of_degraded s .creds "a" 1 o (degraded trialItem ⟨false, true, false⟩)).1 hpolicy
      _ _ hworks).2 rfl rfl
  · refine (fetch_of_degraded s .creds "a" 1 o (degraded trialItem ⟨false, false, false⟩)).2
      rfl rfl fun row hrow => ?_
    have hpeek : (degraded trialItem ⟨false, false, false⟩).tiers.table.peek "a" 1 =
        .ok (some (sealedRow trialItem)) := by
      show Except.ok _ = _
      rw [MemoryTable.get?_place, if_pos ⟨rfl, rfl⟩]
    rw [hpeek] at hrow
    cases hrow
    decide +kernel

end Store

end ObjectTiers
