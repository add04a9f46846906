/-
What a read asks of the cache and the table.

How often a read calls them is settled by how it ends (`Store.fetch_effort`). What it found in the
memory took no call, what it found in the cache a single one; only if it came to the table, and
there to a row in the form its kind is cached in, is the cache written. It can be read off the plan
of the read, since every call is counted once.
-/
import ObjectTiers.Proofs.Failure
import ObjectTiers.Proofs.Plan

namespace ObjectTiers

/-- How often a read looks into the cache, looks into the table, and writes into the cache. -/
structure Effort where
  gets : Nat
  finds : Nat
  sets : Nat

/-- The calls are those of an effort, and none of them takes anything away or writes a row. -/
structure Effort.Counts (w : Effort) (calls : List Call) : Prop where
  gets : calls.countP (·.cacheOperation? = some .get) = w.gets
  sets : calls.countP (·.cacheOperation? = some .set) = w.sets
  deletes : calls.countP (·.cacheOperation? = some .delete) = 0
  finds : calls.countP (·.tableOperation? = some .find) = w.finds
  inserts : calls.countP (·.tableOperation? = some .insert) = 0

namespace Effort

variable {w : Effort} {calls : List Call}

theorem Counts.cache (h : w.Counts calls) (key : Key) (c : TrialCache) :
    ∃ c', calls.foldl (Call.onCache key) (.trial c) = .trial c' ∧
      c'.calls = ⟨c.calls.get + w.gets, c.calls.set + w.sets, c.calls.delete⟩ := by
  have hcount (op : CacheOperation) :
      (calls.foldl (Call.onCache key) (.trial c)).count? op = (Cache.trial c |>.count? op).map
        (· + calls.countP (·.cacheOperation? = some op)) := Call.count?_onCache_foldl _ calls op
  cases hc : calls.foldl (Call.onCache key) (.trial c) with
  | memory m =>
    rw [hc] at hcount
    cases hcount .get
  | trial c' =>
    rw [hc] at hcount
    have hget := Option.some.inj (hcount .get)
    have hset := Option.some.inj (hcount .set)
    have hdelete := Option.some.inj (hcount .delete)
    rw [h.gets] at hget
    rw [h.sets] at hset
    rw [h.deletes] at hdelete
    refine ⟨c', rfl, ?_⟩
    calc c'.calls = ⟨c'.calls.get, c'.calls.set, c'.calls.delete⟩ := rfl
      _ = _ := by rw [hget, hset, hdelete]; rfl

theorem Counts.table (h : w.Counts calls) (key : Key) (t : TrialTable) :
    ∃ t', calls.foldl (Call.onTable key) (.trial t) = .trial t' ∧
      t'.findCalls = t.findCalls + w.finds ∧ t'.insertCalls = t.insertCalls := by
  have hcount (op : Table.Operation) :
      (calls.foldl (Call.onTable key) (.trial t)).count? op = (Table.trial t |>.count? op).map
        (· + calls.countP (·.tableOperation? = some op)) := Call.count?_onTable_foldl _ calls op
  cases ht : calls.foldl (Call.onTable key) (.trial t) with
  | memory m =>
    rw [ht] at hcount
    cases hcount .find
  | directory d =>
    rw [ht] at hcount
    cases hcount .find
  | trial t' =>
    rw [ht] at hcount
    have hfind := Option.some.inj (hcount .find)
    have hinsert := Option.some.inj (hcount .insert)
    rw [h.finds] at hfind
    rw [h.inserts] at hinsert
    exact ⟨t', rfl, hfind, hinsert⟩

end Effort

/-- Whether a row of the kind goes into the cache once it was read: a plain row of a kind that is
not encrypted, or a sealed row of one that is cached encrypted. -/
def Kind.caches (k : Kind) (row : Row) : Bool :=
  match k.encryption with
  | .disabled => !row.isEncrypted
  | .cacheEncrypted => row.isEncrypted
  | .cacheDecrypted => false

namespace Store

variable {s : Store} {k : Kind} {key : Key} {useCache : Bool} {secret : Option Secret}
  {t : Tiers} {c : Cache} {r : String} {v : UInt16} {o : ReadOptions} {e : StoreError}

/-! ### How the steps of a read fail -/

theorem probed_error (h : s.probed k key secret useCache c = .error e) :
    useCache = true ∧ ((∃ failure, e = .cache failure) ∨ e.isOfPayload = true) := by
  unfold probed at h
  split at h
  · cases h
  next huse =>
  refine ⟨by simpa using huse, ?_⟩
  split at h
  · cases hout : s.config.policy.outcome (TrialCache.injected .get key.text) with
    | ok u => rw [hout] at h; cases h
    | error e' =>
      rw [hout] at h
      cases h
      exact .inl ⟨_, (Policy.of_outcome_error hout).2⟩
  · cases hpeek : c.peek key.text with
    | none => rw [hpeek] at h; cases h
    | some b =>
      rw [hpeek, looked] at h
      cases hj : s.judge k key secret b with
      | hit x => rw [hj] at h; cases h
      | discard w => rw [hj] at h; cases h
      | fail e' =>
        rw [hj] at h
        cases h
        exact .inr (isOfPayload_of_judge hj)

theorem probed_hit {x : Item} (h : s.probed k key secret useCache c = .ok (some x)) :
    useCache = true := by
  cases useCache with
  | true => rfl
  | false => cases h

theorem uncacheable_of_entryOf {row : Row} (h : entryOf k key useCache row = .error e) :
    e = .uncacheable k key.text := by
  unfold entryOf cacheForm at h
  split at h
  · split at h <;> cases h
    rfl
  · cases h

theorem reading_error {table : Table} (h : s.reading k key useCache secret table = .error e) :
    (∃ cause, e = .table cause) ∨ e = .notFound key.objectRef key.version ∨
      e.isOfPayload = true ∨ e = .uncacheable k key.text := by
  unfold reading at h
  split at h
  · cases h
    exact .inl ⟨_, rfl⟩
  · cases h
    exact .inr (.inl rfl)
  · next row hfind =>
    cases hx : s.materialize k key row secret with
    | error e' =>
      rw [hx] at h
      cases h
      exact .inr (.inr (.inl (isOfPayload_of_materialize hx)))
    | ok x =>
      rw [hx, Except.bind] at h
      cases hentry : entryOf k key useCache row with
      | ok entry => rw [hentry] at h; cases h
      | error e' =>
        rw [hentry] at h
        cases h
        exact .inr (.inr (.inr (uncacheable_of_entryOf hentry)))

/-- What a row that was read puts into the cache is written there, if it is not too large. -/
theorem encode?_of_entryOf {row : Row} {entry : Option Entry}
    (hsize : row.toBytes.length < Layout.textLimit)
    (h : entryOf k key useCache row = .ok entry) :
    (useCache && k.caches row) = true ∧ (∃ b, entry.bind Entry.encode? = some b) ∨
      (useCache && k.caches row) = false ∧ entry = none := by
  have hencode := Entry.encode?_eq_some hsize k.length_tag_le (payloadParts_mirror row)
  cases useCache with
  | false =>
    cases h
    exact .inr ⟨rfl, rfl⟩
  | true =>
    rw [entryOf, if_pos rfl] at h
    cases hid : row.keyId <;> cases hkind : k.encryption <;>
      simp only [cacheForm, hid, hkind, Encryption.admission, Except.map, Option.map_some,
        Option.map_none, Except.ok.injEq, reduceCtorEq] at h <;>
      subst h <;>
      simp only [mirror, hid] at hencode <;>
      simp [Kind.caches, hkind, Row.isEncrypted, hid, hencode]

theorem written_error {entry : Option Entry} (h : s.written key c entry = .error e) :
    ∃ failure, e = .cache failure := by
  unfold written writeResult at h
  split at h
  · exact ⟨_, (Policy.of_outcome_error h).2⟩
  split at h
  · cases h
  split at h
  · exact ⟨_, (Policy.of_outcome_error h).2⟩
  · cases h

/-! ### The effort of a read -/

/-- What a read takes that ends like this: no call at all, a look into the cache alone, or a look
into the table with one into the cache before it, if that is used, and maybe a write into it
behind. -/
def Takes (k : Kind) (useCache : Bool) (row? : Option Row) :
    Except StoreError Fetched → Effort → Prop
  | .ok ⟨_, .memory⟩, w => w = ⟨0, 0, 0⟩
  | .ok ⟨_, .cache⟩, w => useCache = true ∧ w = ⟨1, 0, 0⟩
  | .ok ⟨_, .table⟩, w => ∃ row, row? = some row ∧
    w = ⟨useCache.toNat, 1, (useCache && k.caches row).toNat⟩
  | .error (.validation _), w => w = ⟨0, 0, 0⟩
  | .error (.notFound _ _), w => w = ⟨useCache.toNat, 1, 0⟩
  | .error (.cache _), w => useCache = true ∧ (w = ⟨1, 0, 0⟩ ∨ w = ⟨1, 1, 1⟩)
  | .error _, w => w.gets = useCache.toNat ∧ w.finds ≤ 1 ∧ w.sets = 0

/-- No call is made twice, and the cache is not called if it is not used. -/
theorem Takes.le {row? : Option Row} {res : Except StoreError Fetched} {w : Effort}
    (h : Takes k useCache row? res w) :
    w.gets ≤ useCache.toNat ∧ w.finds ≤ 1 ∧ w.sets ≤ useCache.toNat := by
  unfold Takes at h
  split at h
  · subst h
    simp
  · obtain ⟨rfl, rfl⟩ := h
    simp
  · obtain ⟨row, -, rfl⟩ := h
    cases useCache <;> simp [Bool.toNat_le]
  · subst h
    simp
  · subst h
    simp
  · obtain ⟨rfl, rfl | rfl⟩ := h <;> simp
  · obtain ⟨hgets, hfinds, hsets⟩ := h
    omega

theorem counts_asking (k : Kind) (useCache : Bool) :
    Effort.Counts ⟨useCache.toNat, 0, 0⟩ (asking k useCache) := by
  cases useCache <;> exact ⟨rfl, rfl, rfl, rfl, rfl⟩

theorem takes_of_isOfPayload {row? : Option Row} {w : Effort} (h : e.isOfPayload = true)
    (hgets : w.gets = useCache.toNat) (hfinds : w.finds ≤ 1) (hsets : w.sets = 0) :
    Takes k useCache row? (.error e) w := by
  cases e <;> first | exact ⟨hgets, hfinds, hsets⟩ | cases h

theorem fetchPlan_takes (s : Store) (k : Kind) (key : Key) (o : ReadOptions) (t : Tiers)
    {row? : Option Row}
    (hrow : ∀ row, (t.table.find key.objectRef key.version).1 = .ok (some row) → row? = some row)
    (hsize : ∀ row, row? = some row → row.toBytes.length < Layout.textLimit) :
    ∃ w, w.Counts (s.fetchPlan k key o t).2 ∧
      Takes k (o.useCache.getD s.config.useCache) row? (s.fetchPlan k key o t).1 w := by
  simp only [fetchPlan]
  generalize o.useCache.getD s.config.useCache = useCache
  split
  · exact ⟨⟨0, 0, 0⟩, ⟨rfl, rfl, rfl, rfl, rfl⟩, rfl⟩
  split
  · next e hprobed =>
    obtain ⟨rfl, ⟨failure, rfl⟩ | hpayload⟩ := probed_error hprobed
    · exact ⟨⟨1, 0, 0⟩, counts_asking k true, rfl, .inl rfl⟩
    · exact ⟨⟨1, 0, 0⟩, counts_asking k true, takes_of_isOfPayload hpayload rfl (by simp) rfl⟩
  · next x hprobed =>
    obtain rfl := probed_hit hprobed
    exact ⟨⟨1, 0, 0⟩, ⟨rfl, rfl, rfl, rfl, rfl⟩, rfl, rfl⟩
  split
  · next e hreading =>
    have hcounts : Effort.Counts ⟨useCache.toNat, 1, 0⟩ (asking k useCache ++ [.tableFind]) := by
      cases useCache <;> exact ⟨rfl, rfl, rfl, rfl, rfl⟩
    refine ⟨_, hcounts, ?_⟩
    obtain ⟨cause, rfl⟩ | rfl | hpayload | rfl := reading_error hreading
    · exact ⟨rfl, Nat.le_refl 1, rfl⟩
    · rfl
    · exact takes_of_isOfPayload hpayload rfl (Nat.le_refl 1) rfl
    · exact ⟨rfl, Nat.le_refl 1, rfl⟩
  · next x entry hreading =>
    obtain ⟨row, hfind, -, hentry⟩ := reading_ok hreading
    have hfound := hrow row hfind
    obtain ⟨hcaches, b, hb⟩ | ⟨hcaches, rfl⟩ := encode?_of_entryOf (hsize row hfound) hentry
    · obtain ⟨rfl, -⟩ := Bool.and_eq_true_iff.mp hcaches
      have hfilling : s.filling entry = [.cacheSet b s.config.ttlMilliseconds] := by
        rw [filling, hb]
      refine ⟨⟨1, 1, 1⟩, by rw [hfilling]; exact ⟨rfl, rfl, rfl, rfl, rfl⟩, ?_⟩
      cases hwritten : s.written key t.cache entry with
      | ok u => exact ⟨row, hfound, by rw [hcaches]; rfl⟩
      | error e =>
        obtain ⟨failure, rfl⟩ := written_error hwritten
        exact ⟨rfl, .inr rfl⟩
    · have hwritten : s.written key t.cache none = .ok () := by simp [written, writeResult]
      rw [hwritten]
      refine ⟨⟨useCache.toNat, 1, 0⟩, ?_, row, hfound, by rw [hcaches]; rfl⟩
      cases useCache <;> exact ⟨rfl, rfl, rfl, rfl, rfl⟩

/-- A read is served by the memory exactly if that holds an item of the kind under the key. -/
theorem fetchPlan_memory_iff : (∃ x, (s.fetchPlan k key o t).1 = .ok ⟨x, .memory⟩) ↔
    ∃ x, t.memory.cells.get? key.text = some (.item x) ∧ x.kind = k := by
  constructor
  · rintro ⟨x, h⟩
    simp only [fetchPlan] at h
    split at h
    · next y hget =>
      obtain ⟨hcell, hkind, -⟩ := Memory.get?_of_getItem (Prod.ext hget rfl)
      exact ⟨y, hcell, hkind⟩
    split at h
    · cases h
    · cases h
    split at h
    · cases h
    · next y entry hreading =>
      cases hwritten : s.written key t.cache entry <;> rw [hwritten] at h <;> cases h
  · rintro ⟨x, hcell, hkind⟩
    obtain ⟨m, hget, -⟩ := Memory.getItem_of_get? hcell hkind
    exact ⟨x, by simp only [fetchPlan, hget]⟩

/-- How often a read calls the cache and the table, each at most once, is settled by how it ends;
and it is served by the memory, without any call, exactly if the identity is valid and the memory
holds an item of the kind under its key, whatever else is in its way. -/
theorem fetch_effort (s : Store) (k : Kind) (r : String) (v : UInt16) (o : ReadOptions)
    (σ : Session) (c : TrialCache) (t : TrialTable) (hcache : σ.tiers.cache = .trial c)
    (htable : σ.tiers.table = .trial t)
    (hsize : ∀ row, t.inner.get? r v = some row → row.toBytes.length < Layout.textLimit) :
    ((∃ x, (s.fetch k r v o σ).1 = .ok ⟨x, .memory⟩) ↔ ∃ key x, Identity.validate r v = .ok key ∧
      σ.tiers.memory.cells.get? key.text = some (.item x) ∧ x.kind = k) ∧
    ∃ c' t' w, (s.fetch k r v o σ).2.tiers.cache = .trial c' ∧
      (s.fetch k r v o σ).2.tiers.table = .trial t' ∧
      c'.calls = ⟨c.calls.get + w.gets, c.calls.set + w.sets, c.calls.delete⟩ ∧
      t'.findCalls = t.findCalls + w.finds ∧ t'.insertCalls = t.insertCalls ∧
      w.gets ≤ 1 ∧ w.finds ≤ 1 ∧ w.sets ≤ 1 ∧
      (o.useCache.getD s.config.useCache = false → w.gets = 0 ∧ w.sets = 0) ∧
      Takes k (o.useCache.getD s.config.useCache) (t.inner.get? r v) (s.fetch k r v o σ).1 w := by
  have hfetch := s.fetch_cases k r v o σ
  refine ⟨?served, ?effort⟩
  case served =>
    cases hkey : Identity.validate r v with
    | error e =>
      rw [(hfetch.of_invalid hkey).1]
      exact iff_of_false nofun nofun
    | ok key =>
      rw [(hfetch.eq_plan hkey).1, fetchPlan_memory_iff]
      simp
  case effort =>
    obtain ⟨c', t', w, hc', ht', hcalls, hfinds, hinserts, htakes⟩ : ∃ c' t' w,
        (s.fetch k r v o σ).2.tiers.cache = .trial c' ∧
        (s.fetch k r v o σ).2.tiers.table = .trial t' ∧
        c'.calls = ⟨c.calls.get + w.gets, c.calls.set + w.sets, c.calls.delete⟩ ∧
        t'.findCalls = t.findCalls + w.finds ∧ t'.insertCalls = t.insertCalls ∧
        Takes k (o.useCache.getD s.config.useCache) (t.inner.get? r v)
          (s.fetch k r v o σ).1 w := by
      cases hkey : Identity.validate r v with
      | error e =>
        obtain ⟨hres, htiers⟩ := hfetch.of_invalid hkey
        rw [hres, htiers]
        exact ⟨c, t, ⟨0, 0, 0⟩, hcache, htable, rfl, rfl, rfl, rfl⟩
      | ok key =>
        obtain ⟨hres, htiers⟩ := hfetch.eq_plan hkey
        cases Identity.eq_of_validate hkey
        have hrow (row : Row) (h : (σ.tiers.table.find r v).1 = .ok (some row)) :
            t.inner.get? r v = some row := by
          have hpeek := Table.peek_of_find h
          rw [htable] at hpeek
          exact Except.ok.inj hpeek
        obtain ⟨w, hcounts, htakes⟩ := fetchPlan_takes s k ⟨r, v⟩ o σ.tiers hrow hsize
        obtain ⟨c', hc', hcalls⟩ := hcounts.cache ⟨r, v⟩ c
        obtain ⟨t', ht', hfinds, hinserts⟩ := hcounts.table ⟨r, v⟩ t
        rw [hres, htiers, Tiers.after, hcache, htable]
        exact ⟨c', t', w, hc', ht', hcalls, hfinds, hinserts, htakes⟩
    obtain ⟨hgets, hfind, hsets⟩ := htakes.le
    have huse := Bool.toNat_le (o.useCache.getD s.config.useCache)
    refine ⟨c', t', w, hc', ht', hcalls, hfinds, hinserts, hgets.trans huse, hfind,
      hsets.trans huse, fun hunused => ?_, htakes⟩
    rw [hunused] at hgets hsets
    exact ⟨Nat.le_zero.mp hgets, Nat.le_zero.mp hsets⟩

open Cluster (trialSite trialSecret trialItem)

/-- A read of a sealed row, over a cache that is looked into but cannot be written. -/
theorem fetch_effort_unwritten : ∃ s o σ c t, s = trialSite.store.withPolicy .log ∧
    o = ⟨none, some trialSecret⟩ ∧ c = { TrialCache.empty with failures := ⟨false, true, false⟩ } ∧
    t = { TrialTable.empty with inner := MemoryTable.empty.place (sealedRow trialItem) } ∧
    σ = ⟨⟨.ofCapacity 4, .trial c, .trial t⟩, []⟩ ∧
    (s.fetch .creds "a" 1 o σ).1.map (·.tier) = .ok .table ∧
    ∃ c' t', (s.fetch .creds "a" 1 o σ).2.tiers.cache = .trial c' ∧
      (s.fetch .creds "a" 1 o σ).2.tiers.table = .trial t' ∧ c'.calls = ⟨1, 1, 0⟩ ∧
      t'.findCalls = 1 ∧ t'.insertCalls = 0 := by
  obtain ⟨s, hs⟩ : ∃ s, s = trialSite.store.withPolicy .log := ⟨_, rfl⟩
  obtain ⟨o, ho⟩ : ∃ o : ReadOptions, o = ⟨none, some trialSecret⟩ := ⟨_, rfl⟩
  obtain ⟨c, hc⟩ : ∃ c, c = { TrialCache.empty with failures := ⟨false, true, false⟩ } := ⟨_, rfl⟩
  obtain ⟨t, ht⟩ : ∃ t, t = { TrialTable.empty with
    inner := MemoryTable.empty.place (sealedRow trialItem) } := ⟨_, rfl⟩
  obtain ⟨σ, hσ⟩ : ∃ σ : Session, σ = ⟨⟨.ofCapacity 4, .trial c, .trial t⟩, []⟩ := ⟨_, rfl⟩
  have hrow : t.inner.get? "a" 1 = some (sealedRow trialItem) := by
    rw [ht]
    exact (MemoryTable.get?_place _ _ _ _).trans (if_pos ⟨rfl, rfl⟩)
  have hsize (row : Row) (h : t.inner.get? "a" 1 = some row) :
      row.toBytes.length < Layout.textLimit := by
    cases hrow.symm.trans h
    decide +kernel
  have htier : (s.fetch .creds "a" 1 o σ).1.map (·.tier) = .ok .table := by
    rw [hσ, hs, ho, hc, ht]
    decide +kernel
  obtain ⟨-, c', t', w, hc', ht', hcalls, hfinds, hinserts, -, -, -, -, htakes⟩ :=
    fetch_effort s .creds "a" 1 o σ c t (by rw [hσ]) (by rw [hσ]) hsize
  refine ⟨s, o, σ, c, t, hs, ho, hc, ht, hσ, htier, c', t', hc', ht', ?_⟩
  obtain ⟨⟨x, tier⟩, hres⟩ : ∃ f, (s.fetch .creds "a" 1 o σ).1 = .ok f := by
    cases hres : (s.fetch .creds "a" 1 o σ).1 with
    | ok f => exact ⟨f, rfl⟩
    | error e => rw [hres] at htier; cases htier
  rw [hres] at htier htakes
  cases htier
  obtain ⟨row, hfound, rfl⟩ := htakes
  cases hrow.symm.trans hfound
  rw [hcalls, hfinds, hinserts, hc, ht, ho, hs]
  decide +kernel

end Store

end ObjectTiers
