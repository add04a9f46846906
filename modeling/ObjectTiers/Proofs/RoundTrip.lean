/-
A write, a removal and a read in a row. Whatever the tiers held before, also under the key of the
item, the read answers with the item that was written, from the table; and as long as the item is
only read again, with the memory cleared in between now and then, every read answers with it
(`Cluster.fetch_of_put_purge`).

The invariant of the reads that follow (`Store.Carries`): the tiers hold nothing under the key of
the item but the item.
-/
import ObjectTiers.Proofs.Serving

namespace ObjectTiers

/-- The nearest tier that has something under a key. -/
def Tiers.nearest (t : Tiers) (key : String) : Tier :=
  if t.memory.contains key then .memory else if (t.cache.peek key).isSome then .cache else .table

namespace Store

/-- The tiers work, the memory has room for an item, and nothing stands under its key but the
item. -/
structure Carries (s : Store) (x : Item) (secret : Option Secret) (t : Tiers) : Prop where
  works : t.Works
  capacity : 0 < t.memory.capacity
  room : t.memory.HasRoom x.key.text
  memory : t.memory.cells.get? x.key.text = none ∨ t.memory.cells.get? x.key.text = some (.item x)
  cache : ∀ b, t.cache.peek x.key.text = some b →
    x.kind.encryption ≠ .cacheDecrypted ∧ s.Backs x secret b
  table : ∃ row, t.table.peek x.objectRef x.version = .ok (some row) ∧ s.Serves x secret row

variable {s : Store} {x : Item} {secret : Option Secret} {o : ReadOptions} {t t' : Tiers}
  {res : Except StoreError Fetched}

/-- What a read does that answers with the item from the nearest tier that has it. It leaves the
item in the memory, and in the cache if it came to the table and the item may stand there. -/
structure Rereads (s : Store) (x : Item) (secret : Option Secret) (useCache : Bool) (t : Tiers)
    (res : Except StoreError Fetched) (t' : Tiers) : Prop where
  answer : res = .ok ⟨x, t.nearest x.key.text⟩
  carries : s.Carries x secret t'
  memory : t'.memory.contains x.key.text = true
  stays : (t.cache.peek x.key.text).isSome = true → (t'.cache.peek x.key.text).isSome = true
  goes : t.nearest x.key.text = .table → useCache = true → x.kind.encryption ≠ .cacheDecrypted →
    t.cache.HasRoom x.key.text → (t'.cache.peek x.key.text).isSome = true

theorem Carries.rereads_memory (h : s.Carries x secret t)
    (hfetch : Fetches s x.kind x.objectRef x.version o t res t')
    (hkey : Identity.validate x.objectRef x.version = .ok x.key)
    (hcell : t.memory.cells.get? x.key.text = some (.item x)) :
    s.Rereads x secret (o.useCache.getD s.config.useCache) t res t' := by
  obtain ⟨hres, hcells, hcapacity, hcache, htable⟩ := hfetch.of_memory hkey hcell
  have hcontains : t'.memory.contains x.key.text = true :=
    Memory.contains_of_get? (by rw [hcells]; exact hcell)
  have hnearest : t.nearest x.key.text = .memory := by
    simp [Tiers.nearest, Memory.contains_of_get? hcell]
  refine ⟨by rw [hres, hnearest], ⟨hfetch.works h.works, ?_, .inl hcontains, .inr ?_, ?_, ?_⟩,
    hcontains, ?_, ?_⟩
  · rw [hcapacity]
    exact h.capacity
  · rw [hcells]
    exact hcell
  · rw [hcache]
    exact h.cache
  · rw [htable]
    exact h.table
  · rw [hcache]
    exact id
  · intro htier
    rw [hnearest] at htier
    cases htier

theorem Carries.rereads_cache {b : Bytes} (h : s.Carries x secret t)
    (hfetch : Fetches s x.kind x.objectRef x.version o t res t')
    (hkey : Identity.validate x.objectRef x.version = .ok x.key)
    (hopens : s.Opens x secret o.secret)
    (huse : o.useCache.getD s.config.useCache = true)
    (hnone : t.memory.cells.get? x.key.text = none) (hpeek : t.cache.peek x.key.text = some b) :
    s.Rereads x secret (o.useCache.getD s.config.useCache) t res t' := by
  obtain ⟨hres, hcells, hcapacity, hcache, htable⟩ := hfetch.of_cache hkey h.works h.room hnone huse
    hpeek (h.cache b hpeek).2 hopens
  have hcell : t'.memory.cells.get? x.key.text = some (.item x) := by
    rw [hcells, Dictionary.get?_insert_self]
  have hcontains := Memory.contains_of_get? hcell
  have hnearest : t.nearest x.key.text = .cache := by
    simp [Tiers.nearest, Memory.contains_of_none hnone, hpeek]
  refine ⟨by rw [hres, hnearest], ⟨hfetch.works h.works, ?_, .inl hcontains, .inr hcell, ?_, ?_⟩,
    hcontains, ?_, ?_⟩
  · rw [hcapacity]
    exact h.capacity
  · rw [hcache]
    exact h.cache
  · rw [htable]
    exact h.table
  · rw [hcache]
    exact id
  · intro htier
    rw [hnearest] at htier
    cases htier

theorem Carries.rereads_table (h : s.Carries x secret t)
    (hfetch : Fetches s x.kind x.objectRef x.version o t res t')
    (hkey : Identity.validate x.objectRef x.version = .ok x.key)
    (hopens : s.Opens x secret o.secret)
    (hnone : t.memory.cells.get? x.key.text = none) (habsent : t.cache.peek x.key.text = none) :
    s.Rereads x secret (o.useCache.getD s.config.useCache) t res t' := by
  obtain ⟨row, hrow, hserves⟩ := h.table
  obtain ⟨hres, hcells, hcapacity, hfills, htable⟩ := hfetch.of_table hkey h.works h.room hnone
    (fun _ => habsent) hrow hserves hopens
  have hcell : t'.memory.cells.get? x.key.text = some (.item x) := by
    rw [hcells, Dictionary.get?_insert_self]
  have hcontains := Memory.contains_of_get? hcell
  have hnearest : t.nearest x.key.text = .table := by
    simp [Tiers.nearest, Memory.contains_of_none hnone, habsent]
  refine ⟨by rw [hres, hnearest],
    ⟨hfetch.works h.works, ?_, .inl hcontains, .inr hcell, ?_, row, ?_, hserves⟩,
    hcontains, ?_, ?_⟩
  · rw [hcapacity]
    exact h.capacity
  · intro b hpeek
    rcases hfills.backs b hpeek with hold | hnew
    · rw [habsent] at hold
      cases hold
    · exact hnew
  · rw [htable]
    exact hrow
  · intro hin
    rw [habsent] at hin
    cases hin
  · intro _ huse hkind hroom
    obtain ⟨b, -, hpeek⟩ := hfills.goes huse hkind hroom
    rw [hpeek, if_pos rfl]
    rfl

theorem Carries.rereads (h : s.Carries x secret t)
    (hfetch : Fetches s x.kind x.objectRef x.version o t res t')
    (hkey : Identity.validate x.objectRef x.version = .ok x.key)
    (hopens : s.Opens x secret o.secret)
    (huse : t.cache.peek x.key.text ≠ none → o.useCache.getD s.config.useCache = true) :
    s.Rereads x secret (o.useCache.getD s.config.useCache) t res t' := by
  rcases h.memory with hnone | hcell
  · cases hpeek : t.cache.peek x.key.text with
    | none => exact h.rereads_table hfetch hkey hopens hnone hpeek
    | some b => exact h.rereads_cache hfetch hkey hopens (huse (by simp [hpeek])) hnone hpeek
  · exact h.rereads_memory hfetch hkey hcell

theorem Carries.congr (h : s.Carries x secret t) (hcells : t'.memory.cells = t.memory.cells)
    (hcapacity : t'.memory.capacity = t.memory.capacity) (hpeek : t'.cache.peek = t.cache.peek)
    (hfails : t'.cache.fails = t.cache.fails) (htable : t'.table.peek = t.table.peek)
    (htfails : t'.table.fails = t.table.fails) : s.Carries x secret t' where
  works := h.works.congr hfails htfails
  capacity := by rw [hcapacity]; exact h.capacity
  room := h.room.congr hcells hcapacity
  memory := by rw [hcells]; exact h.memory
  cache := by rw [hpeek]; exact h.cache
  table := by rw [htable]; exact h.table

theorem Carries.settle (h : s.Carries x secret t) : s.Carries x secret t.settle :=
  h.congr rfl rfl (Cache.peek_settle _) (Cache.fails_settle _) rfl rfl

theorem Carries.clear (h : s.Carries x secret t) :
    s.Carries x secret { t with memory := t.memory.clear } where
  works := h.works.congr rfl rfl
  capacity := h.capacity
  room := .inr h.capacity
  memory := .inl rfl
  cache := h.cache
  table := h.table

end Store

/-! ### Runs -/

namespace Step

/-- A step that clears the memory of a site, or reads an item there through the cache and with the
right secret. -/
def Revisits (st : Step) (site : Site) (x : Item) (secret : Option Secret) : Prop :=
  st.site = site ∧ (st.command = .clearMemory ∨ ∃ o,
    st.command = .fetch x.kind x.objectRef x.version o ∧
    o.useCache.getD site.store.config.useCache = true ∧ site.store.Opens x secret o.secret)

end Step

namespace Cluster

variable {w p f : Step} {x : Item} {secret : Option Secret} {nonce : Bytes} {now : Int64}
  {row : Row}
  {o : ReadOptions}

/-- What was cleared last is the memory. -/
def AfterClearing (log : List Step) : Prop :=
  ∃ before st, log = before ++ [st] ∧ st.command = .clearMemory

theorem afterClearing_append {log : List Step} {st : Step} :
    AfterClearing (log ++ [st]) ↔ st.command = .clearMemory := by
  constructor
  · rintro ⟨before, st', hlog, hcmd⟩
    obtain ⟨-, hst⟩ := List.append_inj' hlog rfl
    cases hst
    exact hcmd
  · exact fun hcmd => ⟨log, st, rfl, hcmd⟩

/-- After a write and a removal of an item the tiers hold nothing under its key but its row. -/
theorem carries_of_put_purge (hw : w.command = .put x secret nonce now)
    (hp : p = ⟨w.site, .purge x.objectRef x.version, w.next⟩) (hkind : x.kind ≠ .document)
    (hcipher : w.site.store.cipher = .chaCha) (hnonce : nonce.length = nonceSize)
    (hworks : w.tiers.Works) (hstored : w.result = .ok (.row row))
    (hsize : row.toBytes.length < Layout.textLimit)
    (hroom : (p.next.tiers w.site).memory.HasRoom x.key.text) :
    Identity.validate x.objectRef x.version = .ok x.key ∧
      w.site.store.Carries x secret (p.next.tiers w.site) ∧
      (p.next.tiers w.site).memory.contains x.key.text = false ∧
      (p.next.tiers w.site).cache.peek x.key.text = none := by
  obtain ⟨hkey, hserves, hrow⟩ :=
    Step.serves_of_put hw hkind hcipher hnonce hstored hsize
  subst hp
  have hwnext : (w.next.tiers w.site).Works := Step.works_next hworks
  obtain ⟨t, ht, hnext⟩ := Step.tiers_next ⟨w.site, .purge x.objectRef x.version, w.next⟩
  generalize Step.result ⟨w.site, .purge x.objectRef x.version, w.next⟩ = res at ht
  cases ht with
  | purge ht =>
  obtain ⟨hmemory, htable, hcache⟩ := ht.of_works hkey hwnext
  have hpworks : ((Step.mk w.site (.purge x.objectRef x.version) w.next).next.tiers w.site).Works :=
    Step.works_next hwnext
  rw [hnext] at hroom hpworks ⊢
  have hnone : t.settle.memory.cells.get? x.key.text = none := by
    show t.memory.cells.get? x.key.text = none
    rw [hmemory]
    exact Dictionary.get?_erase_self _ _
  have habsent : t.settle.cache.peek x.key.text = none := by
    show t.cache.settle.peek x.key.text = none
    rw [Cache.peek_settle, hcache]
    exact if_pos rfl
  have hcontains := Memory.contains_of_none hnone
  refine ⟨hkey, ⟨hpworks, ?_, hroom, .inl hnone, ?_, row, ?_, hserves⟩, hcontains, habsent⟩
  · rcases hroom with hin | hfree
    · rw [hcontains] at hin
      cases hin
    · exact Nat.zero_lt_of_lt hfree
  · intro b hb
    rw [habsent] at hb
    cases hb
  · show t.table.peek x.objectRef x.version = _
    rw [htable]
    exact hrow

/-- The invariant of the steps that revisit an item after the first read: the tiers carry it, the
memory has it unless it has just been cleared, and the cache has it if the first read put it
there. -/
structure Revisited (site : Site) (x : Item) (secret : Option Secret) (warm : Prop)
    (log : List Step) (c : Cluster) : Prop where
  carries : site.store.Carries x secret (c.tiers site)
  memory : (c.tiers site).memory.contains x.key.text = true ↔ ¬ AfterClearing log
  cache : warm → ((c.tiers site).cache.peek x.key.text).isSome = true

theorem Revisited.gone {site : Site} {warm : Prop} {log : List Step} {c : Cluster}
    (h : Revisited site x secret warm log c) (hclear : AfterClearing log) :
    (c.tiers site).memory.contains x.key.text = false := by
  rw [← Bool.not_eq_true]
  intro hin
  exact h.memory.mp hin hclear

theorem Revisited.next {site : Site} {warm : Prop} {log : List Step} {st : Step}
    (h : Revisited site x secret warm log st.found) (hst : st.Revisits site x secret)
    (hkey : Identity.validate x.objectRef x.version = .ok x.key) :
    Revisited site x secret warm (log ++ [st]) st.next := by
  obtain ⟨hsite, hcmd⟩ := hst
  obtain ⟨t, ht, hnext⟩ := st.tiers_next
  subst hsite
  rcases hcmd with hcmd | ⟨o, hcmd, huse, hopens⟩
  · rw [hcmd] at ht
    generalize st.result = res at ht
    cases ht with
    | clearMemory =>
    refine ⟨?_, ?_, ?_⟩
    · rw [hnext]
      exact h.carries.clear.settle
    · rw [hnext, afterClearing_append]
      constructor
      · intro hin
        cases hin
      · intro hn
        exact absurd hcmd hn
    · rw [hnext]
      show warm → (st.tiers.cache.settle.peek x.key.text).isSome = true
      rw [Cache.peek_settle]
      exact h.cache
  · rw [hcmd] at ht
    generalize st.result = res at ht
    cases ht with
    | fetch ht =>
    have hre := h.carries.rereads ht hkey hopens fun _ => huse
    refine ⟨?_, ?_, ?_⟩
    · rw [hnext]
      exact hre.carries.settle
    · rw [hnext, afterClearing_append]
      constructor
      · intro _ hclear
        rw [hcmd] at hclear
        cases hclear
      · intro _
        exact hre.memory
    · rw [hnext]
      show warm → (t.cache.settle.peek x.key.text).isSome = true
      rw [Cache.peek_settle]
      intro hwarm
      exact hre.stays (h.cache hwarm)

theorem Revisited.rests {site : Site} {warm : Prop} {log : List Step} {c c' : Cluster}
    (h : Revisited site x secret warm log c) (hc : Rests c c') :
    Revisited site x secret warm log c' := by
  obtain ⟨hcells, hcapacity⟩ := hc.memories site.memory
  obtain ⟨hpeek, hfails⟩ := hc.caches site.cache
  obtain ⟨htable, htfails⟩ := hc.tables site.table
  refine ⟨h.carries.congr hcells hcapacity hpeek hfails htable htfails, ?_, ?_⟩
  · rw [← h.memory]
    show (c'.memories site.memory).contains _ = true ↔ (c.memories site.memory).contains _ = true
    rw [Memory.contains, Memory.contains, hcells]
  · show warm → ((c'.caches site.cache).peek x.key.text).isSome = true
    rw [hpeek]
    exact h.cache

/-- The first read after a write and a removal starts the invariant. -/
theorem revisited_start {site : Site} {c : Cluster}
    (hf : f = ⟨site, .fetch x.kind x.objectRef x.version o, c⟩)
    (hkey : Identity.validate x.objectRef x.version = .ok x.key)
    (hcarries : site.store.Carries x secret (c.tiers site))
    (hmiss : (c.tiers site).memory.contains x.key.text = false)
    (habsent : (c.tiers site).cache.peek x.key.text = none)
    (hopens : site.store.Opens x secret o.secret) :
    f.result = .ok (.fetched ⟨x, .table⟩) ∧
      Revisited site x secret (o.useCache.getD site.store.config.useCache = true ∧
        x.kind.encryption ≠ .cacheDecrypted ∧ f.tiers.cache.HasRoom x.key.text) [] f.next := by
  subst hf
  have hq : (Step.mk site (.fetch x.kind x.objectRef x.version o) c).command.request? =
      some ⟨x.kind, x.objectRef, x.version, o⟩ := rfl
  obtain ⟨t, ht, hnext⟩ := Step.request_cases hq
  have hre := hcarries.rereads ht hkey hopens fun hin => absurd habsent hin
  have htable : (c.tiers site).nearest x.key.text = .table := by
    simp [Tiers.nearest, hmiss, habsent]
  constructor
  · rw [Step.result_of_fetch rfl, hre.answer, htable]
    rfl
  rw [hnext]
  refine ⟨?_, ?_, ?_⟩
  · rw [tiers_withTiers]
    exact hre.carries.settle
  · rw [tiers_withTiers]
    constructor
    · rintro - ⟨_, _, hnil, -⟩
      simp at hnil
    · intro _
      exact hre.memory
  · rw [tiers_withTiers]
    rintro ⟨huse, hkind, hroom⟩
    show (t.cache.settle.peek x.key.text).isSome = true
    rw [Cache.peek_settle]
    exact hre.goes htable huse hkind hroom

/-- Whatever the tiers held, an item that is written and removed from the nearer tiers is what the
next read answers with, from the table. In whatever order it is read again and the memory cleared
from then on, every read answers with the item: from the memory, unless that has just been cleared;
then from the table if the kind is never cached, and otherwise from the cache, if the first read put
it there. -/
theorem fetch_of_put_purge (hw : w.command = .put x secret nonce now)
    (hp : p = ⟨w.site, .purge x.objectRef x.version, w.next⟩)
    (hf : f = ⟨w.site, .fetch x.kind x.objectRef x.version o, p.next⟩) (hkind : x.kind ≠ .document)
    (hcipher : w.site.store.cipher = .chaCha) (hnonce : nonce.length = nonceSize)
    (hworks : w.tiers.Works) (hstored : w.result = .ok (.row row))
    (hsize : row.toBytes.length < Layout.textLimit) (hroom : f.tiers.memory.HasRoom x.key.text)
    (hopens : w.site.store.Opens x secret o.secret) :
    f.result = .ok (.fetched ⟨x, .table⟩) ∧
    ∀ log c, Reaches Rests f.next log c → (∀ st ∈ log, st.Revisits w.site x secret) →
      ∀ before st after, log = before ++ st :: after → st.command ≠ .clearMemory →
        ∃ tier, st.result = .ok (.fetched ⟨x, tier⟩) ∧
          (¬ AfterClearing before → tier = .memory) ∧
          (AfterClearing before → x.kind.encryption = .cacheDecrypted → tier = .table) ∧
          (AfterClearing before → x.kind.encryption ≠ .cacheDecrypted →
            o.useCache.getD w.site.store.config.useCache = true →
            f.tiers.cache.HasRoom x.key.text → tier = .cache) := by
  have hroom' : (p.next.tiers w.site).memory.HasRoom x.key.text := by
    rw [hf] at hroom
    exact hroom
  obtain ⟨hkey, hcarries, hmiss, habsent⟩ := carries_of_put_purge hw hp hkind hcipher hnonce hworks
    hstored hsize hroom'
  obtain ⟨hfirst, hstart⟩ := revisited_start hf hkey hcarries hmiss habsent hopens
  refine ⟨hfirst, ?_⟩
  intro log c hruns hlog before st after hsplit hread
  have hinv := (hruns.found hsplit).invariant
    (I := fun log c => (∀ st ∈ log, st.Revisits w.site x secret) → Revisited w.site x secret
      (o.useCache.getD w.site.store.config.useCache = true ∧
        x.kind.encryption ≠ .cacheDecrypted ∧ f.tiers.cache.HasRoom x.key.text) log c)
    (fun _ => hstart) (fun log st ih hall => ?_) (fun log c c' hc ih hall => (ih hall).rests hc)
  · have hbefore := hinv fun st' hst' =>
      hlog st' (by rw [hsplit]; exact List.mem_append_left _ hst')
    obtain ⟨hsite, hcmd⟩ := hlog st (by rw [hsplit]; simp)
    rcases hcmd with hcmd | ⟨o', hcmd, huse, hopens'⟩
    · exact absurd hcmd hread
    have hq : st.command.request? = some ⟨x.kind, x.objectRef, x.version, o'⟩ := by
      rw [hcmd]
      rfl
    obtain ⟨t, ht, -⟩ := Step.request_cases hq
    rw [← hsite] at hbefore huse hopens'
    have hre := hbefore.carries.rereads ht hkey hopens' fun _ => huse
    refine ⟨_, by rw [Step.result_of_fetch hcmd, hre.answer]; rfl, ?_, ?_, ?_⟩
    · intro hkept
      exact if_pos (hbefore.memory.mpr hkept)
    · intro hclear hnever
      have hnone : (st.found.tiers st.site).cache.peek x.key.text = none := by
        rw [Option.eq_none_iff_forall_ne_some]
        intro b hb
        exact (hbefore.carries.cache b hb).1 hnever
      simp [Tiers.nearest, hbefore.gone hclear, hnone]
    · intro hclear hcached hused hcroom
      rw [← hsite] at hused
      simp [Tiers.nearest, hbefore.gone hclear, hbefore.cache ⟨hused, hcached, hcroom⟩]
  · have hlast := hall st (by simp)
    exact (ih fun st' hst' => hall st' (List.mem_append_left _ hst')).next hlast hkey

/-- The trial site with foreign values under the key of the item in the nearer tiers. -/
def fouled : Cluster :=
  { trial with
    memories := fun _ => (Memory.ofCapacity 4).insert trialItem.key.text (.text "?")
    caches := fun _ => (Cache.trial .empty).place trialItem.key.text [1, 2, 3] }

theorem fetch_of_put_purge_fouled : ∃ put purge fetch clear again : Step,
    put = trialPut trialItem fouled ∧ purge = trialPurge trialItem put.next ∧
    fetch = trialRead trialItem purge.next ∧ clear = trialClear fetch.next ∧
    again = trialRead trialItem clear.next ∧
    fetch.result = .ok (.fetched ⟨trialItem, .table⟩) ∧
    again.result = .ok (.fetched ⟨trialItem, .cache⟩) := by
  obtain ⟨put, hput⟩ : ∃ put, put = trialPut trialItem fouled := ⟨_, rfl⟩
  obtain ⟨purge, hpurge⟩ : ∃ purge, purge = trialPurge trialItem put.next := ⟨_, rfl⟩
  obtain ⟨fetch, hfetch⟩ : ∃ fetch, fetch = trialRead trialItem purge.next := ⟨_, rfl⟩
  obtain ⟨clear, hclear⟩ : ∃ clear, clear = trialClear fetch.next := ⟨_, rfl⟩
  obtain ⟨again, hagain⟩ : ∃ again, again = trialRead trialItem clear.next := ⟨_, rfl⟩
  have hsite : put.site = trialSite := by rw [hput]; rfl
  have hrow : put.row?.any (fun row => decide (row.toBytes.length < Layout.textLimit)) = true := by
    rw [hput]
    decide +kernel
  obtain ⟨row, hrow, hsize⟩ := (Option.any_eq_true _ _).mp hrow
  have hworks : put.tiers.Works := by
    rw [hput]
    exact ⟨fun op => by cases op <;> rfl, rfl⟩
  have hopens : trialSite.store.Opens trialItem (some trialSecret) (some trialSecret) := by
    intro _ t ht
    cases ht
    rfl
  have hroom : fetch.tiers.memory.size < fetch.tiers.memory.capacity := by
    rw [hfetch, hpurge, hput]
    decide +kernel
  have hcroom : fetch.tiers.cache.HasRoom trialItem.key.text := by
    rw [hfetch, hpurge, hput]
    trivial
  have hcleared : Reaches Rests fetch.next [clear] clear.next :=
    Reaches.start.step (by rw [hclear]; rfl)
  have hruns : Reaches Rests fetch.next [clear, again] again.next :=
    hcleared.step (by rw [hagain]; rfl)
  have hroundtrip := fetch_of_put_purge (w := put) (p := purge) (f := fetch) (x := trialItem)
    (o := ⟨none, some trialSecret⟩) (by rw [hput]; rfl) (by rw [hpurge, hsite]; rfl)
    (by rw [hfetch, hsite]; rfl) (by decide) (by rw [hsite]; rfl) (by decide) hworks
    (Step.row?_eq_some.mp hrow) (of_decide_eq_true hsize) (.inr hroom) (by rw [hsite]; exact hopens)
  have hrevisits : ∀ st ∈ [clear, again], st.Revisits put.site trialItem (some trialSecret) := by
    intro st hst
    simp only [List.mem_cons, List.not_mem_nil, or_false] at hst
    rcases hst with rfl | rfl
    · rw [hclear, hsite]
      exact ⟨rfl, .inl rfl⟩
    · rw [hagain, hsite]
      exact ⟨rfl, .inr ⟨_, rfl, rfl, hopens⟩⟩
  have hlog : [clear, again] = [clear] ++ again :: [] := rfl
  obtain ⟨tier, hres, -, -, hcached⟩ := hroundtrip.2 _ _ hruns hrevisits _ _ _ hlog
    (by rw [hagain]; nofun)
  have htier := hcached ⟨[], clear, rfl, by rw [hclear]; rfl⟩ (by decide) (by rw [hsite]; rfl)
    hcroom
  rw [htier] at hres
  exact ⟨put, purge, fetch, clear, again, hput, hpurge, hfetch, hclear, hagain, hroundtrip.1, hres⟩

end Cluster

end ObjectTiers
