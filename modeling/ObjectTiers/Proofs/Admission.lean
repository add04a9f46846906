/-
What gets into the cache. Whatever happens to the memory and the tables, as long as nothing is
written into a cache past the stores, every entry of a cache is one that a read put there after it
had decoded a row of the identity in its key: under the tag of the kind it was read as, and in the
form that kind may be cached in, so plain only if neither the kind nor the row is encrypted
(`Cluster.Reaches.admitted`).
-/
import ObjectTiers.Proofs.History

namespace ObjectTiers

namespace Store

variable {s : Store} {k : Kind} {key : Key} {secret : Option Secret} {t t' : Tiers}

/-! ### Forms -/

/-- The form of a row that may stand in the cache for a kind. -/
inductive CachedAs (k : Kind) (row : Row) : EntryPayload → Prop
  | plain (hkind : k.encryption = .disabled) (hrow : row.keyId = none) :
    CachedAs k row (.plain row.payload)
  | «sealed» {keyId : String} (hkind : k.encryption = .cacheEncrypted)
    (hrow : row.keyId = some keyId) : CachedAs k row (.sealed keyId row.payload)

/-- A row goes into the cache in no other form. -/
theorem cachedAs_of_cacheForm {row : Row} {p : EntryPayload} {ws : List Warning}
    (h : cacheForm k key row = .ok (some p, ws)) : CachedAs k row p := by
  unfold cacheForm at h
  split at h
  · next hrow hkind =>
    cases h
    refine .plain ?_ hrow
    cases he : k.encryption <;> simp [he, Encryption.admission] at hkind ⊢
  · cases h
  · next keyId hrow hkind =>
    cases h
    refine .sealed ?_ hrow
    cases he : k.encryption <;> simp [he, Encryption.admission] at hkind ⊢
  · cases h
  · cases h

/-! ### One command -/

/-- What a read from the table leaves in the cache stood there before, or is the row it decoded, in
a form its kind may be cached in. -/
theorem Loads.peek_cases {useCache : Bool} {res : Except StoreError Fetched} {j : String}
    {b : Bytes}
    (h : Loads s k key useCache secret t res t') (hb : t'.cache.peek j = some b) :
    t.cache.peek j = some b ∨ ∃ row x p, res = .ok ⟨x, .table⟩ ∧ j = key.text ∧
      (t.table.find key.objectRef key.version).1 = .ok (some row) ∧
      s.materialize k key row secret = .ok x ∧ CachedAs k row p ∧
      (Entry.mk row.objectRef row.version k.tag p).encode? = some b := by
  cases h with
  | failed h | absent h | unreadable h | uncacheable h | uncached h => exact .inl hb
  | cached h hx huse hform hwrite =>
    obtain ⟨ws, hform⟩ := hform
    rcases hwrite.peek_cases hb with hb | ⟨hj, he, rfl⟩
    · exact .inl hb
    · exact .inr ⟨_, _, _, rfl, hj, h, hx, cachedAs_of_cacheForm hform, he⟩

theorem Fetches.peek_cases {r : String} {v : UInt16} {o : ReadOptions}
    {res : Except StoreError Fetched} {j : String} {b : Bytes}
    (h : Fetches s k r v o t res t') (hb : t'.cache.peek j = some b) :
    t.cache.peek j = some b ∨ ∃ row x p, res = .ok ⟨x, .table⟩ ∧
      Identity.validate r v = .ok ⟨r, v⟩ ∧ j = (Key.mk r v).text ∧
      (t.table.find r v).1 = .ok (some row) ∧
      s.materialize k ⟨r, v⟩ row o.secret = .ok x ∧ CachedAs k row p ∧
      (Entry.mk row.objectRef row.version k.tag p).encode? = some b := by
  cases h with
  | invalid hkey => exact .inl hb
  | memory hkey hm => exact .inl hb
  | refused hkey hm hc => exact .inl (by rwa [hc.peek_eq] at hb)
  | cache hkey hm hc => exact .inl (by rwa [hc.peek_eq] at hb)
  | table hkey hm hc hload =>
    cases Identity.eq_of_validate hkey
    rcases hload.peek_cases hb with hb | ⟨row, x, p, hres, hj, hrow, hx, hp, he⟩
    · exact .inl (by rwa [hc.peek_eq] at hb)
    · exact .inr ⟨row, x, p, hres, hkey, hj, hrow, hx, hp, he⟩

/-- A read of a kind that is never cached writes nothing into the cache. -/
theorem Fetches.unwritten_of_never {r : String} {v : UInt16} {o : ReadOptions}
    {res : Except StoreError Fetched} (h : Fetches s k r v o t res t')
    (hkind : k.encryption = .cacheDecrypted) :
    t'.cache.peek = t.cache.peek ∧ t'.cache.setCalls = t.cache.setCalls := by
  cases h with
  | invalid hkey => exact ⟨rfl, rfl⟩
  | memory hkey hm => exact ⟨rfl, rfl⟩
  | refused hkey hm hc => exact ⟨hc.peek_eq, hc.setCalls_eq⟩
  | cache hkey hm hc => exact ⟨hc.peek_eq, hc.setCalls_eq⟩
  | table hkey hm hc hload =>
    cases hload with
    | failed h | absent h | unreadable h | uncacheable h | uncached h =>
      exact ⟨hc.peek_eq, hc.setCalls_eq⟩
    | cached h hx huse hform hwrite =>
      obtain ⟨ws, hform⟩ := hform
      have hcached := cachedAs_of_cacheForm hform
      cases hcached with
      | plain hk => rw [hkind] at hk; cases hk
      | «sealed» hk => rw [hkind] at hk; cases hk

/-- A read that the memory or the cache answers writes nothing into the cache. -/
theorem Fetches.unwritten_of_near {r : String} {v : UInt16} {o : ReadOptions} {f : Fetched}
    (h : Fetches s k r v o t (.ok f) t') (hnear : f.tier ≠ .table) :
    t'.cache.peek = t.cache.peek ∧ t'.cache.setCalls = t.cache.setCalls := by
  cases h with
  | memory hkey hm => exact ⟨rfl, rfl⟩
  | cache hkey hm hc => exact ⟨hc.peek_eq, hc.setCalls_eq⟩
  | table hkey hm hc hload =>
    generalize hres : (Except.ok f : Except StoreError Fetched) = res at hload
    cases hload with
    | failed h => cases hres
    | absent h => cases hres
    | unreadable h => cases hres
    | uncacheable h => cases hres
    | uncached h => cases hres; exact absurd rfl hnear
    | @cached row x p r c h hx huse hform hwrite =>
      cases r with
      | error e => cases hres
      | ok u => cases hres; exact absurd rfl hnear

/-- A command that is no read leaves nothing new in the cache. -/
theorem Performs.peek_of_write {cmd : Command} {res : Except StoreError Reply} {j : String}
    {b : Bytes} (h : Performs s t cmd res t') (hcmd : cmd.request? = none)
    (hb : t'.cache.peek j = some b) : t.cache.peek j = some b := by
  cases h with
  | put h => cases h <;> exact hb
  | fetch h => cases hcmd
  | get h => cases hcmd
  | purge h =>
    cases h with
    | invalid hkey => exact hb
    | failed hkey h => rwa [Cache.delete_error h] at hb
    | purged hkey h =>
      have hc := congrArg Prod.snd h
      simp only at hc
      rw [← hc] at hb
      exact Cache.peek_delete _ _ hb
  | clearMemory => exact hb

theorem Performs.filed {cmd : Command} {res : Except StoreError Reply}
    (h : Performs s t cmd res t') (ht : t.table.Filed) : t'.table.Filed := by
  rcases h.table_cases with htable | ⟨r, v, htable⟩ | ⟨row, htable⟩
  · rwa [htable]
  · rw [htable]
    exact ht.find r v
  · rw [htable]
    exact ht.insert (Prod.eta _).symm

end Store

/-! ### Runs -/

namespace Step

/-- A read of an identity as a kind that found a row in the table and decoded it. -/
def Decodes (st : Step) (k : Kind) (r : String) (v : UInt16) (row : Row) : Prop :=
  ∃ o x, st.command.request? = some ⟨k, r, v, o⟩ ∧
    (st.tiers.table.find r v).1 = .ok (some row) ∧
    st.site.store.materialize k ⟨r, v⟩ row o.secret = .ok x ∧
    st.answer ⟨k, r, v, o⟩ = .ok ⟨x, .table⟩

/-- Steps that have no business in the cache: writes, reads of a kind that is never cached, and
reads that the memory or the cache answers. -/
inductive KeepsOff (st : Step) : Prop
  | put {x : Item} {secret : Option Secret} {nonce : Bytes} {now : Int64}
    (h : st.command = .put x secret nonce now)
  | never {q : Request} (h : st.command.request? = some q)
    (hkind : q.kind.encryption = .cacheDecrypted)
  | near {q : Request} {f : Fetched} (h : st.command.request? = some q)
    (hf : st.answer q = .ok f) (hnear : f.tier ≠ .table)

theorem unwritten_withTiers {st : Step} {t : Tiers}
    (hnext : st.next = st.found.withTiers st.site t.settle)
    (ht : t.cache.peek = st.tiers.cache.peek ∧ t.cache.setCalls = st.tiers.cache.setCalls)
    (i : Nat) :
    (st.next.caches i).peek = (st.found.caches i).peek ∧
      (st.next.caches i).setCalls = (st.found.caches i).setCalls := by
  rw [hnext, Cluster.caches_withTiers]
  split
  · next hi =>
    subst hi
    simp only [Tiers.settle, Cache.peek_settle, Cache.setCalls_settle]
    exact ht
  · exact ⟨rfl, rfl⟩

/-- They write nothing into any cache. -/
theorem KeepsOff.unwritten {st : Step} (h : st.KeepsOff) (i : Nat) :
    (st.next.caches i).peek = (st.found.caches i).peek ∧
      (st.next.caches i).setCalls = (st.found.caches i).setCalls := by
  cases h with
  | put h =>
    obtain ⟨t, ht, hnext⟩ := st.cases
    rw [h] at ht
    refine unwritten_withTiers hnext ?_ i
    generalize st.result = res at ht
    cases ht with
    | put hput => cases hput <;> exact ⟨rfl, rfl⟩
  | never h hkind =>
    obtain ⟨t, ht, hnext⟩ := request_cases h
    exact unwritten_withTiers hnext (ht.unwritten_of_never hkind) i
  | near h hf hnear =>
    obtain ⟨t, ht, hnext⟩ := request_cases h
    rw [hf] at ht
    exact unwritten_withTiers hnext (ht.unwritten_of_near hnear) i

end Step

namespace Cluster

/-- Anything may happen outside, but nothing is written into a cache, and a row that is written
into a table goes under its own identity. -/
structure Interferes (c c' : Cluster) : Prop where
  caches : ∀ i key b, (c'.caches i).peek key = some b → (c.caches i).peek key = some b
  tables : ∀ i, (c.tables i).Filed → (c'.tables i).Filed

/-- The bytes under a key are an entry of the identity in the key, put there by a read that decoded
a row of that identity as the kind whose tag the entry has, and in a form that kind is cached in. -/
def Admitted (log : List Step) (key : String) (b : Bytes) : Prop :=
  ∃ e k row st, Entry.ofBytes? b = some e ∧
    Identity.validate e.objectRef e.version = .ok ⟨e.objectRef, e.version⟩ ∧
    (Key.mk e.objectRef e.version).text = key ∧ e.tag = k.tag ∧ st ∈ log ∧
    st.Decodes k e.objectRef e.version row ∧ Store.CachedAs k row e.payload

theorem Admitted.append {log : List Step} {key : String} {b : Bytes} (h : Admitted log key b)
    (st : Step) : Admitted (log ++ [st]) key b := by
  obtain ⟨e, k, row, st', he, hv, hkey, htag, hst, h⟩ := h
  exact ⟨e, k, row, st', he, hv, hkey, htag, List.mem_append_left _ hst, h⟩

/-- What a step leaves in a cache stood there before or is admitted by the step itself. -/
theorem admitted_next {log : List Step} {st : Step} {i : Nat} {key : String} {b : Bytes}
    (hfiled : ∀ i, (st.found.tables i).Filed)
    (hlog : ∀ i key b, (st.found.caches i).peek key = some b → Admitted log key b)
    (hb : (st.next.caches i).peek key = some b) : Admitted (log ++ [st]) key b := by
  cases hcmd : st.command.request? with
  | none =>
    obtain ⟨t, ht, hnext⟩ := st.cases
    rw [hnext, caches_withTiers] at hb
    split at hb
    · simp only [Tiers.settle, Cache.peek_settle] at hb
      exact (hlog _ _ _ (ht.peek_of_write hcmd hb)).append st
    · exact (hlog _ _ _ hb).append st
  | some q =>
    obtain ⟨t, ht, hnext⟩ := Step.request_cases hcmd
    rw [hnext, caches_withTiers] at hb
    split at hb
    · simp only [Tiers.settle, Cache.peek_settle] at hb
      rcases ht.peek_cases hb with hb | ⟨row, x, p, hres, hv, hkey, hrow, hx, hp, he⟩
      · exact (hlog _ _ _ hb).append st
      · -- the row stands under its own identity, so the entry is one of the identity in the key
        obtain ⟨hr, hversion⟩ := hfiled st.site.table _ _ _ (Table.peek_of_find hrow)
        rw [hr, hversion] at he
        exact ⟨_, q.kind, row, st, Entry.ofBytes?_of_encode? he, hv, hkey.symm, rfl, by simp,
          ⟨q.options, x, hcmd, hrow, hx, hres⟩, hp⟩
    · exact (hlog _ _ _ hb).append st

/-- Every entry of a cache was admitted by a read of the run, and the steps that have no business
in the cache write nothing into it. -/
theorem Reaches.admitted {start c : Cluster} {log : List Step}
    (hcaches : ∀ i key, (start.caches i).peek key = none) (htables : ∀ i, (start.tables i).Filed)
    (hruns : Reaches Interferes start log c) :
    (∀ i key b, (c.caches i).peek key = some b → Admitted log key b) ∧
      ∀ st ∈ log, st.KeepsOff → ∀ i, (st.next.caches i).peek = (st.found.caches i).peek ∧
        (st.next.caches i).setCalls = (st.found.caches i).setCalls := by
  have hinv := hruns.invariant (I := fun log c => (∀ i, (c.tables i).Filed) ∧
    ∀ i key b, (c.caches i).peek key = some b → Admitted log key b)
    ⟨htables, fun i key b hb => by rw [hcaches] at hb; cases hb⟩
    (fun log st h => ⟨?_, fun i key b hb => admitted_next h.1 h.2 hb⟩)
    (fun log c c' hc h => ⟨fun i => hc.tables i (h.1 i),
      fun i key b hb => h.2 i key b (hc.caches i key b hb)⟩)
  · exact ⟨hinv.2, fun st _ h i => h.unwritten i⟩
  · intro i
    obtain ⟨t, ht, hnext⟩ := st.cases
    rw [hnext, tables_withTiers]
    split
    · exact ht.filed (h.1 _)
    · exact h.1 i

/-- The entry of an item that was written and read. -/
theorem admitted_trial : ∃ put read b, put = trialPut trialItem trial ∧
    read = trialRead trialItem put.next ∧
    (read.next.caches 0).peek (Key.mk "a" 1).text = some b ∧
    Admitted [put, read] (Key.mk "a" 1).text b := by
  obtain ⟨put, hput⟩ : ∃ put, put = trialPut trialItem trial := ⟨_, rfl⟩
  obtain ⟨read, hread⟩ : ∃ read, read = trialRead trialItem put.next := ⟨_, rfl⟩
  have hput' : Reaches Interferes trial [put] put.next := Reaches.start.step (by rw [hput]; rfl)
  have hruns : Reaches Interferes trial [put, read] read.next := hput'.step (by rw [hread]; rfl)
  have hsome : ((read.next.caches 0).peek (Key.mk "a" 1).text).isSome = true := by
    rw [hread, hput]
    decide +kernel
  obtain ⟨b, hb⟩ := Option.isSome_iff_exists.mp hsome
  have hadmitted := hruns.admitted (fun _ _ => rfl) fun _ _ _ _ hrow => by cases hrow
  exact ⟨put, read, b, hput, hread, hb, hadmitted.1 0 _ b hb⟩

end Cluster

end ObjectTiers
