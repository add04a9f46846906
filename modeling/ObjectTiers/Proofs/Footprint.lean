/-
The footprint of a step: what a command at a key leaves in the tiers of a cluster.

A step at a site with places for its key changes the value under the key in the memory of the site,
the entry under the key in its cache and the row of the key in its table, each by the calls of the
step, and counts them (`Step.get?_next`, `Step.held?_next`, `Step.view_next`,
`Step.count?_caches_next`, `Step.count?_tables_next`). Everything else stays
(`Step.sparesOthers`), so the step is nothing to a command at another key
(`Step.alikeAt_next`).
-/
import ObjectTiers.Proofs.Plan

namespace ObjectTiers

/-- Places in the memory and in the cache. -/
structure Tiers.HasPlaces (t : Tiers) (keys : Finset String) : Prop where
  memory : t.memory.HasPlaces keys
  cache : t.cache.HasPlaces keys

namespace Step

variable {st : Step} {key : Key} {keys : Finset String}

/-- The calls of a step at a key. -/
def calls (st : Step) (key : Key) : List Call :=
  (st.site.store.plan key st.tiers st.command).2

theorem eq_plan (hkey : st.command.key? = some key) :
    st.result = (st.site.store.plan key st.tiers st.command).1 ∧
      st.next = st.found.withTiers st.site (st.tiers.after key (st.calls key)).settle := by
  obtain ⟨t, ht, hnext⟩ := st.cases
  obtain ⟨hres, rfl⟩ := ht.eq_plan hkey
  exact ⟨hres, hnext⟩

/-! ### The memories -/

theorem memories_next (hkey : st.command.key? = some key) (i : Nat) :
    st.next.memories i = if i = st.site.memory then
      ((st.calls key).foldl (Call.onMemory key) (st.found.memories i)).settle
      else st.found.memories i := by
  rw [(eq_plan hkey).2, Cluster.memories_withTiers]
  split
  · next hi => subst hi; rfl
  · rfl

theorem get?_next (hkey : st.command.key? = some key) (hplaces : st.tiers.HasPlaces keys)
    (hmem : key.text ∈ keys) (i : Nat) (j : String) : (st.next.memories i).cells.get? j =
      if i = st.site.memory ∧ j = key.text then
        (st.calls key).foldl Call.cell ((st.found.memories i).cells.get? j)
      else (st.found.memories i).cells.get? j := by
  have hmemory : (st.found.memories st.site.memory).HasPlaces keys := hplaces.memory
  rw [memories_next hkey]
  by_cases hi : i = st.site.memory
  · subst hi
    rw [if_pos rfl, Memory.settle, Call.get?_onMemory_foldl (fun _ _ => hmemory) hmem]
    simp only [true_and]
  · rw [if_neg hi, if_neg fun h => hi h.1]

/-! ### The caches -/

theorem caches_next (hkey : st.command.key? = some key) (i : Nat) :
    st.next.caches i = if i = st.site.cache then
      ((st.calls key).foldl (Call.onCache key) (st.found.caches i)).settle
      else st.found.caches i := by
  rw [(eq_plan hkey).2, Cluster.caches_withTiers]
  split
  · next hi => subst hi; rfl
  · rfl

theorem fails_caches_next (hkey : st.command.key? = some key) (i : Nat) :
    (st.next.caches i).fails = (st.found.caches i).fails := by
  rw [caches_next hkey]
  split
  · rw [Cache.fails_settle, Call.fails_onCache_foldl]
  · rfl

theorem ending_caches_next (hkey : st.command.key? = some key) (i : Nat) :
    (st.next.caches i).ending = (st.found.caches i).ending := by
  rw [caches_next hkey]
  split
  · rw [Cache.ending_settle, Call.ending_onCache_foldl]
  · rfl

theorem held?_next (hkey : st.command.key? = some key) (hplaces : st.tiers.HasPlaces keys)
    (hmem : key.text ∈ keys) (i : Nat) (j : String) : (st.next.caches i).held? j =
      if i = st.site.cache ∧ j = key.text then
        (st.calls key).foldl (Call.entry (st.found.caches i).fails (st.found.caches i).ending)
          ((st.found.caches i).held? j)
      else (st.found.caches i).held? j := by
  have hcache : (st.found.caches st.site.cache).HasPlaces keys := hplaces.cache
  rw [caches_next hkey]
  by_cases hi : i = st.site.cache
  · subst hi
    rw [if_pos rfl, Cache.held?_settle, Call.held?_onCache_foldl (fun _ _ _ => hcache) hmem]
    simp only [true_and]
  · rw [if_neg hi, if_neg fun h => hi h.1]

theorem count?_caches_next (hkey : st.command.key? = some key) (i : Nat) (op : CacheOperation) :
    (st.next.caches i).count? op = ((st.found.caches i).count? op).map (· +
      if i = st.site.cache then (st.calls key).countP (·.cacheOperation? = some op) else 0) := by
  rw [caches_next hkey]
  split
  · rw [Cache.count?_settle, Call.count?_onCache_foldl]
  · exact Option.map_id'.symm

/-! ### The tables -/

theorem tables_next (hkey : st.command.key? = some key) (i : Nat) :
    st.next.tables i = if i = st.site.table then
      (st.calls key).foldl (Call.onTable key) (st.found.tables i)
      else st.found.tables i := by
  rw [(eq_plan hkey).2, Cluster.tables_withTiers]
  split
  · next hi => subst hi; rfl
  · rfl

theorem fails_tables_next (hkey : st.command.key? = some key) (i : Nat) :
    (st.next.tables i).fails = (st.found.tables i).fails := by
  rw [tables_next hkey]
  split
  · rw [Call.fails_onTable_foldl]
  · rfl

theorem insert_tables_next (hkey : st.command.key? = some key) (i : Nat) (row : Row) :
    ((st.next.tables i).insert row).1 = ((st.found.tables i).insert row).1 := by
  rw [tables_next hkey]
  split
  · rw [Call.insert_onTable_foldl_fst]
  · rfl

theorem peek_tables_next (hkey : st.command.key? = some key) (i : Nat) {r : String} {v : UInt16}
    (h : ¬ (r = key.objectRef ∧ v = key.version)) :
    (st.next.tables i).peek r v = (st.found.tables i).peek r v := by
  rw [tables_next hkey]
  split
  · exact Call.peek_onTable_foldl_of_ne _ h
  · rfl

theorem view_next (hkey : st.command.key? = some key) (i : Nat) (r : String) (v : UInt16) :
    (st.next.tables i).view r v =
      if i = st.site.table ∧ r = key.objectRef ∧ v = key.version then
        (st.calls key).foldl
          (Call.view (fun row => ((st.found.tables i).insert row).1.isOk) key)
          ((st.found.tables i).view r v)
      else (st.found.tables i).view r v := by
  by_cases hid : r = key.objectRef ∧ v = key.version
  · rw [tables_next hkey]
    obtain ⟨rfl, rfl⟩ := hid
    by_cases hi : i = st.site.table
    · rw [if_pos hi, if_pos ⟨hi, rfl, rfl⟩, Call.view_onTable_foldl]
    · rw [if_neg hi, if_neg fun h => hi h.1]
  · rw [if_neg fun h => hid h.2, Table.view, peek_tables_next hkey i hid]
    rfl

theorem count?_tables_next (hkey : st.command.key? = some key) (i : Nat) (op : Table.Operation) :
    (st.next.tables i).count? op = ((st.found.tables i).count? op).map (· +
      if i = st.site.table then (st.calls key).countP (·.tableOperation? = some op) else 0) := by
  rw [tables_next hkey]
  split
  · rw [Call.count?_onTable_foldl]
  · exact Option.map_id'.symm

/-! ### Other keys -/

theorem hasPlaces_next (hkey : st.command.key? = some key) (hmem : key.text ∈ keys) {site : Site}
    (h : (st.found.tiers site).HasPlaces keys) : (st.next.tiers site).HasPlaces keys := by
  constructor
  · show (st.next.memories site.memory).HasPlaces keys
    rw [memories_next hkey]
    split
    · exact Call.hasPlaces_onMemory_foldl h.memory hmem _
    · exact h.memory
  · show (st.next.caches site.cache).HasPlaces keys
    rw [caches_next hkey]
    split
    · exact (Call.hasPlaces_onCache_foldl h.cache hmem _).settle
    · exact h.cache

end Step

/-- Nothing is different but for a key: the values and entries under all other texts are the same,
and the rows of all other identities. -/
structure Cluster.SparesOthers (key : Key) (c c' : Cluster) : Prop where
  memories : ∀ i j, j ≠ key.text → (c'.memories i).cells.get? j = (c.memories i).cells.get? j
  caches : ∀ i j, j ≠ key.text → (c'.caches i).held? j = (c.caches i).held? j
  tables : ∀ i r v, ¬ (r = key.objectRef ∧ v = key.version) →
    (c'.tables i).peek r v = (c.tables i).peek r v

namespace Step

variable {st : Step} {key other : Key} {keys : Finset String}

theorem sparesOthers (hkey : st.command.key? = some key) (hplaces : st.tiers.HasPlaces keys)
    (hmem : key.text ∈ keys) : st.found.SparesOthers key st.next where
  memories i j hj := by rw [get?_next hkey hplaces hmem, if_neg fun h => hj h.2]
  caches i j hj := by rw [held?_next hkey hplaces hmem, if_neg fun h => hj h.2]
  tables i _ _ := peek_tables_next hkey i

/-- To a command at another key the tiers are as before. -/
theorem alikeAt_next (hkey : st.command.key? = some key) (hplaces : st.tiers.HasPlaces keys)
    (hmem : key.text ∈ keys) (hne : other ≠ key) (site : Site) :
    Store.AlikeAt other (st.found.tiers site) (st.next.tiers site) := by
  have htext : other.text ≠ key.text := fun h => hne (Key.text_injective h)
  have hid : ¬ (other.objectRef = key.objectRef ∧ other.version = key.version) :=
    fun h => hne (Key.eq_of_parts h.1 h.2)
  have hspares := sparesOthers hkey hplaces hmem
  refine ⟨hspares.memories _ _ htext, ?_, fails_caches_next hkey _, ?_, fails_tables_next hkey _⟩
  · show (st.next.caches site.cache).peek _ = (st.found.caches site.cache).peek _
    rw [Cache.peek_eq_held?, Cache.peek_eq_held?, hspares.caches _ _ htext]
  · show (st.next.tables site.table).view _ _ = (st.found.tables site.table).view _ _
    rw [Table.view, Table.view, hspares.tables _ _ _ hid]

end Step

end ObjectTiers
