/-
What the tiers hold for one identity while reads use the cache, told by two registers: the item that
was stored last (`current`), and the one that reads are answered with (`snapshot`). The table has
the first; the memory has the second or nothing; the cache has the second if the kind is cached, and
if it is not, the memory must have it (`Store.Tracks`). Every command keeps this with the registers
it changes, and a read answers with the snapshot or else with the current item
(`Store.Tracks.replies`).
-/
import ObjectTiers.Proofs.Serving

namespace ObjectTiers

/-! ### One identity -/

namespace Store

/-- The secret matters only for what is encrypted. -/
theorem Serves.of_plan {s : Store} {x : Item} {secret secret' : Option Secret} {row : Row}
    (h : s.Serves x secret row) (hsecret : x.kind.isEncrypted = true → secret = secret') :
    s.Serves x secret' row := by
  have hopens (given : Option Secret) (hgiven : s.Opens x secret' given) : s.Opens x secret given :=
    fun henc => by
      rw [hsecret henc]
      exact hgiven henc
  refine ⟨fun given hgiven => h.reads given (hopens given hgiven), ?_⟩
  rcases h.form with hnever | ⟨hkind, p, b, ws, hform, hb, hbacks⟩
  · exact .inl hnever
  · exact .inr ⟨hkind, p, b, ws, hform, hb, fun given hgiven => hbacks given (hopens given hgiven)⟩

/-- The tiers hold for a key what the registers say: the row of the current item in the table, and
the snapshot, if anything, in the nearer tiers. -/
structure Tracks (s : Store) (key : Key) (k : Kind) (secret : Option Secret)
    (current snapshot : Option Item) (t : Tiers) : Prop where
  current_eq : ∀ x ∈ current, x.key = key ∧ x.kind = k
  snapshot_eq : ∀ x ∈ snapshot, x.key = key ∧ x.kind = k
  absent : current = none → t.table.peek key.objectRef key.version = .ok none
  stored : ∀ x ∈ current, ∃ row,
    t.table.peek key.objectRef key.version = .ok (some row) ∧ s.Serves x secret row
  memory : ∀ cell, t.memory.cells.get? key.text = some cell → ∃ x ∈ snapshot, cell = .item x
  unread : snapshot = none → t.cache.peek key.text = none
  cached : k.encryption ≠ .cacheDecrypted → ∀ x ∈ snapshot, ∃ b,
    t.cache.peek key.text = some b ∧ s.Backs x secret b
  uncached : k.encryption = .cacheDecrypted → t.cache.peek key.text = none ∧
    ∀ x ∈ snapshot, t.memory.cells.get? key.text = some (.item x)

/-- The tiers hold under every other key what they held. -/
structure Spares (key : Key) (t t' : Tiers) : Prop where
  memory : ∀ j, j ≠ key.text → t'.memory.cells.get? j = t.memory.cells.get? j
  cache : ∀ j, j ≠ key.text → t'.cache.peek j = t.cache.peek j
  table : ∀ r v, Key.mk r v ≠ key → t'.table.peek r v = t.table.peek r v

variable {s : Store} {key other : Key} {k : Kind} {secret : Option Secret}
  {current snapshot : Option Item} {t t' : Tiers}

theorem Spares.of_eq (hcells : t'.memory.cells = t.memory.cells)
    (hcache : t'.cache.peek = t.cache.peek) (htable : t'.table.peek = t.table.peek) :
    Spares key t t' where
  memory j _ := by rw [hcells]
  cache j _ := by rw [hcache]
  table r v _ := by rw [htable]

theorem Spares.of_insert {c : Cell} (hcells : t'.memory.cells = t.memory.cells.insert key.text c)
    (hcache : ∀ j, j ≠ key.text → t'.cache.peek j = t.cache.peek j)
    (htable : t'.table.peek = t.table.peek) : Spares key t t' where
  memory j hj := by rw [hcells, Dictionary.get?_insert_of_ne _ _ hj]
  cache := hcache
  table r v _ := by rw [htable]

theorem Tracks.congr (h : s.Tracks key k secret current snapshot t)
    (hmemory : t'.memory.cells.get? key.text = t.memory.cells.get? key.text)
    (hcache : t'.cache.peek key.text = t.cache.peek key.text)
    (htable : t'.table.peek key.objectRef key.version = t.table.peek key.objectRef key.version) :
    s.Tracks key k secret current snapshot t' where
  current_eq := h.current_eq
  snapshot_eq := h.snapshot_eq
  absent := by rw [htable]; exact h.absent
  stored := by rw [htable]; exact h.stored
  memory := by rw [hmemory]; exact h.memory
  unread := by rw [hcache]; exact h.unread
  cached := by rw [hcache]; exact h.cached
  uncached := by rw [hcache, hmemory]; exact h.uncached

theorem Tracks.of_spares (h : s.Tracks key k secret current snapshot t)
    (hspares : Spares other t t') (hne : key ≠ other) :
    s.Tracks key k secret current snapshot t' := by
  have htext : key.text ≠ other.text := fun heq => hne (Key.text_injective heq)
  exact h.congr (hspares.memory _ htext) (hspares.cache _ htext) (hspares.table _ _ hne)

theorem Tracks.settle (h : s.Tracks key k secret current snapshot t) :
    s.Tracks key k secret current snapshot t.settle :=
  h.congr rfl (congrFun (Cache.peek_settle _) _) rfl

/-- A write that is taken changes the current item alone. -/
theorem Tracks.put {x : Item} {row : Row} (h : s.Tracks key k secret current snapshot t)
    (hx : x.key = key) (hk : x.kind = k) (hmemory : t'.memory = t.memory)
    (hcache : t'.cache = t.cache)
    (hrow : t'.table.peek key.objectRef key.version = .ok (some row))
    (hserves : s.Serves x secret row) :
    s.Tracks key k secret (some x) snapshot t' where
  current_eq := by
    intro y hy
    cases hy
    exact ⟨hx, hk⟩
  snapshot_eq := h.snapshot_eq
  absent := nofun
  stored := by
    intro y hy
    cases hy
    exact ⟨row, hrow, hserves⟩
  memory := by rw [hmemory]; exact h.memory
  unread := by rw [hcache]; exact h.unread
  cached := by rw [hcache]; exact h.cached
  uncached := by rw [hcache, hmemory]; exact h.uncached

/-- A removal takes the snapshot away. -/
theorem Tracks.purge (h : s.Tracks key k secret current snapshot t)
    (hmemory : t'.memory.cells.get? key.text = none) (hcache : t'.cache.peek key.text = none)
    (htable : t'.table = t.table) : s.Tracks key k secret current none t' where
  current_eq := h.current_eq
  snapshot_eq := nofun
  absent := by rw [htable]; exact h.absent
  stored := by rw [htable]; exact h.stored
  memory := by
    intro cell hcell
    rw [hmemory] at hcell
    cases hcell
  unread := fun _ => hcache
  cached := nofun
  uncached := fun _ => ⟨hcache, nofun⟩

/-- With the memory cleared, the snapshot is lost of a kind that is never cached. -/
theorem Tracks.clear (h : s.Tracks key k secret current snapshot t) :
    s.Tracks key k secret current (snapshot.filter (·.kind.encryption ≠ .cacheDecrypted))
      { t with memory := t.memory.clear } := by
  by_cases hkind : k.encryption = .cacheDecrypted
  · have hnone : snapshot.filter (·.kind.encryption ≠ .cacheDecrypted) = none := by
      rw [Option.filter_eq_none_iff]
      intro x hx
      simp [(h.snapshot_eq x hx).2, hkind]
    rw [hnone]
    exact h.purge rfl (h.uncached hkind).1 rfl
  · have hkept : snapshot.filter (·.kind.encryption ≠ .cacheDecrypted) = snapshot := by
      cases snapshot with
      | none => rfl
      | some x =>
        rw [Option.filter_some, if_pos]
        simp [(h.snapshot_eq x rfl).2, hkind]
    rw [hkept]
    exact ⟨h.current_eq, h.snapshot_eq, h.absent, h.stored, nofun, h.unread, h.cached,
      fun hnever => absurd hnever hkind⟩

/-! ### Reads -/

/-- A read that answers with what the registers have for its key, and leaves that as the
snapshot. -/
structure Replies (s : Store) (key : Key) (k : Kind) (secret : Option Secret)
    (current snapshot : Option Item) (t : Tiers) (res : Except StoreError Fetched) (t' : Tiers) :
    Prop where
  answer : ∃ tier, res = match snapshot.or current with
    | some x => .ok ⟨x, tier⟩
    | none => .error (.notFound key.objectRef key.version)
  tracks : s.Tracks key k secret current (snapshot.or current) t'
  spares : Spares key t t'

variable {o : ReadOptions} {res : Except StoreError Fetched} {x : Item}

theorem Tracks.replies_nothing (h : s.Tracks key k secret none none t) (hworks : t.Works)
    (hkey : Identity.validate key.objectRef key.version = .ok key)
    (hfetch : Fetches s k key.objectRef key.version o t res t') :
    s.Replies key k secret none none t res t' := by
  have hnone : t.memory.cells.get? key.text = none := by
    cases hcell : t.memory.cells.get? key.text with
    | none => rfl
    | some cell =>
      obtain ⟨x, hx, -⟩ := h.memory cell hcell
      cases hx
  obtain ⟨rfl, hcells, hcache, htable⟩ := hfetch.of_nothing hkey hworks hnone (h.unread rfl)
    (h.absent rfl)
  refine ⟨⟨.table, rfl⟩, h.congr ?_ ?_ ?_, .of_eq hcells hcache htable⟩
  · rw [hcells]
  · rw [hcache]
  · rw [htable]

theorem Tracks.replies_current (h : s.Tracks x.key x.kind secret (some x) none t) (hworks : t.Works)
    (hkey : Identity.validate x.objectRef x.version = .ok x.key)
    (hroom : t.memory.HasRoom x.key.text)
    (hcroom : x.kind.encryption ≠ .cacheDecrypted → t.cache.HasRoom x.key.text)
    (huse : o.useCache.getD s.config.useCache = true) (hopens : s.Opens x secret o.secret)
    (hfetch : Fetches s x.kind x.objectRef x.version o t res t') :
    s.Replies x.key x.kind secret (some x) none t res t' := by
  have hnone : t.memory.cells.get? x.key.text = none := by
    cases hcell : t.memory.cells.get? x.key.text with
    | none => rfl
    | some cell =>
      obtain ⟨y, hy, -⟩ := h.memory cell hcell
      cases hy
  obtain ⟨row, hrow, hserves⟩ := h.stored x rfl
  have habsent := h.unread rfl
  obtain ⟨rfl, hcells, -, hfills, htable⟩ := hfetch.of_table hkey hworks hroom hnone
    (fun _ => habsent) hrow hserves hopens
  have hcell : t'.memory.cells.get? x.key.text = some (.item x) := by
    rw [hcells, Dictionary.get?_insert_self]
  refine ⟨⟨.table, rfl⟩, ⟨h.current_eq, h.current_eq, nofun, ?_, ?_, nofun, ?_, ?_⟩,
    .of_insert hcells ?_ htable⟩
  · intro y hy
    cases hy
    exact ⟨row, by rw [htable]; exact hrow, hserves⟩
  · intro cell hcell'
    rw [hcell] at hcell'
    cases hcell'
    exact ⟨x, rfl, rfl⟩
  · intro hkind y hy
    cases hy
    obtain ⟨b, hbacks, hpeek⟩ := hfills.goes huse hkind (hcroom hkind)
    exact ⟨b, by rw [hpeek, if_pos rfl], hbacks⟩
  · intro hkind
    refine ⟨by rw [hfills.stays (.inr hkind)]; exact habsent, ?_⟩
    intro y hy
    cases hy
    exact hcell
  · intro j hj
    by_cases hkind : x.kind.encryption = .cacheDecrypted
    · rw [hfills.stays (.inr hkind)]
    · obtain ⟨b, -, hpeek⟩ := hfills.goes huse hkind (hcroom hkind)
      rw [hpeek, if_neg hj]

theorem Tracks.replies_snapshot (h : s.Tracks x.key x.kind secret current (some x) t)
    (hworks : t.Works) (hkey : Identity.validate x.objectRef x.version = .ok x.key)
    (hroom : t.memory.HasRoom x.key.text) (huse : o.useCache.getD s.config.useCache = true)
    (hopens : s.Opens x secret o.secret)
    (hfetch : Fetches s x.kind x.objectRef x.version o t res t') :
    s.Replies x.key x.kind secret current (some x) t res t' := by
  cases hcell : t.memory.cells.get? x.key.text with
  | some cell =>
    obtain ⟨y, hy, rfl⟩ := h.memory cell hcell
    cases hy
    obtain ⟨rfl, hcells, -, hcache, htable⟩ := hfetch.of_memory hkey hcell
    refine ⟨⟨.memory, rfl⟩, h.congr ?_ ?_ ?_, .of_eq hcells ?_ ?_⟩
    · rw [hcells]
    · rw [hcache]
    · rw [htable]
    · rw [hcache]
    · rw [htable]
  | none =>
    -- a kind that is never cached has its snapshot in the memory
    have hkind : x.kind.encryption ≠ .cacheDecrypted := by
      intro hnever
      have hin := (h.uncached hnever).2 x rfl
      rw [hcell] at hin
      cases hin
    obtain ⟨b, hpeek, hbacks⟩ := h.cached hkind x rfl
    obtain ⟨rfl, hcells, -, hcache, htable⟩ := hfetch.of_cache hkey hworks hroom hcell huse hpeek
      hbacks hopens
    refine ⟨⟨.cache, rfl⟩, ⟨h.current_eq, h.snapshot_eq, ?_, ?_, ?_, nofun, ?_, ?_⟩,
      .of_insert hcells ?_ ?_⟩
    · rw [htable]
      exact h.absent
    · rw [htable]
      exact h.stored
    · intro cell hcell'
      rw [hcells, Dictionary.get?_insert_self] at hcell'
      cases hcell'
      exact ⟨x, rfl, rfl⟩
    · rw [hcache]
      exact h.cached
    · intro hnever
      exact absurd hnever hkind
    · intro j _
      rw [hcache]
    · rw [htable]

/-- A read answers with the snapshot, or else with the current item, which then is the snapshot. -/
theorem Tracks.replies (h : s.Tracks key k secret current snapshot t) (hworks : t.Works)
    (hkey : Identity.validate key.objectRef key.version = .ok key)
    (hroom : t.memory.HasRoom key.text)
    (hcroom : k.encryption ≠ .cacheDecrypted → t.cache.HasRoom key.text)
    (huse : o.useCache.getD s.config.useCache = true)
    (hopens : k.isEncrypted = true → ∀ given ∈ secret, s.Unlocks given o.secret)
    (hfetch : Fetches s k key.objectRef key.version o t res t') :
    s.Replies key k secret current snapshot t res t' := by
  cases snapshot with
  | some x =>
    obtain ⟨rfl, rfl⟩ := h.snapshot_eq x rfl
    exact h.replies_snapshot hworks hkey hroom huse hopens hfetch
  | none =>
    cases current with
    | none => exact h.replies_nothing hworks hkey hfetch
    | some x =>
      obtain ⟨rfl, rfl⟩ := h.current_eq x rfl
      exact h.replies_current hworks hkey hroom hcroom huse hopens hfetch

end Store

end ObjectTiers
