/-
Where the items come from that a read answers with. As long as nothing is written past the stores,
an item is what an earlier write of its identity put into the table, decoded as the kind that was
asked for: from a plain frame, or opened with a secret by a read of the run. Which tier answers
does not matter, nor what was read, lost or overwritten in between
(`Cluster.Reaches.provenance`).

The invariant (`Sourced`) follows the three forms an object is kept in: every row is one that was
written, every cache entry holds the payload of such a row under its identity, and every item in
the memory was decoded from such a payload.
-/
import ObjectTiers.Proofs.Admission
import ObjectTiers.Proofs.Envelope

namespace ObjectTiers

namespace Store

/-! ### Decryptions -/

/-- The decryptions that a read makes: of a sealed entry that the cache answers with, or of a row
when neither the memory nor the cache has the item. -/
inductive Decrypts (s : Store) (t : Tiers) (q : Request) : String → Secret → Bytes → Prop
  | entry {b : Bytes} {e : Entry} {keyId : String} {secret : Secret} {envelope : Bytes}
    (hkey : Identity.validate q.objectRef q.version = .ok ⟨q.objectRef, q.version⟩)
    (hmemory : (t.memory.getItem q.kind (Key.mk q.objectRef q.version).text).1 = none)
    (huse : q.options.useCache.getD s.config.useCache = true)
    (hget : (t.cache.get (Key.mk q.objectRef q.version).text).1 = .ok (some b))
    (he : Entry.ofBytes? b = some e) (href : e.objectRef = q.objectRef)
    (hversion : e.version = q.version) (htag : q.kind.accepts e.tag = true)
    (hkind : q.kind.encryption.admission = .asCiphertext)
    (hpayload : e.payload = .sealed keyId envelope)
    (hsecret : s.resolveSecret ⟨q.objectRef, q.version⟩ keyId q.options.secret = .ok secret) :
    Decrypts s t q keyId secret envelope
  | row {c : Cache} {row : Row} {keyId : String} {secret : Secret}
    (hkey : Identity.validate q.objectRef q.version = .ok ⟨q.objectRef, q.version⟩)
    (hmemory : (t.memory.getItem q.kind (Key.mk q.objectRef q.version).text).1 = none)
    (hcache : Probes s q.kind ⟨q.objectRef, q.version⟩ q.options.secret
      (q.options.useCache.getD s.config.useCache) t.cache (.ok none) c)
    (hfind : (t.table.find q.objectRef q.version).1 = .ok (some row))
    (hid : row.keyId = some keyId)
    (hsecret : s.resolveSecret ⟨q.objectRef, q.version⟩ keyId q.options.secret = .ok secret) :
    Decrypts s t q keyId secret row.payload

/-- A payload of the identity that a read decodes to an item. -/
def Yields (s : Store) (t : Tiers) (q : Request) (p : Payload) (x : Item) : Prop :=
  (p.keyId = none ∧ Payload.decodePlain q.kind p.bytes = .ok x) ∨
  ∃ keyId secret, p.keyId = some keyId ∧ s.Decrypts t q keyId secret p.bytes ∧
    Payload.decodeSealed s.cipher q.kind secret q.objectRef q.version p.bytes = .ok x

/-- A payload that the cache or the table holds for the identity of a read. -/
def Holds (t : Tiers) (r : String) (v : UInt16) (p : Payload) : Prop :=
  (∃ b e, t.cache.peek (Key.mk r v).text = some b ∧ Entry.ofBytes? b = some e ∧
    e.objectRef = r ∧ e.version = v ∧ entryPayload e.payload = p) ∨
  ∃ row, t.table.peek r v = .ok (some row) ∧ toPayload row = p

/-- An item that a read gets from the cache or the table. -/
def Obtains (s : Store) (t : Tiers) (q : Request) (x : Item) : Prop :=
  Identity.validate q.objectRef q.version = .ok ⟨q.objectRef, q.version⟩ ∧
    ∃ p, Holds t q.objectRef q.version p ∧ s.Yields t q p x

theorem Yields.kind {s : Store} {t : Tiers} {q : Request} {p : Payload} {x : Item}
    (h : s.Yields t q p x) : x.kind = q.kind := by
  rcases h with ⟨-, hx⟩ | ⟨keyId, secret, -, -, hx⟩
  · exact Payload.kind_of_readFrame hx
  · exact Payload.kind_of_decodeSealed hx

section

variable {s : Store} {q : Request} {t t' : Tiers} {m : Memory} {ws : List Warning} {c : Cache}
  {x : Item}

theorem obtains_of_probe
    (hkey : Identity.validate q.objectRef q.version = .ok ⟨q.objectRef, q.version⟩)
    (hm : t.memory.getItem q.kind (Key.mk q.objectRef q.version).text = (none, m, ws))
    (hc : Probes s q.kind ⟨q.objectRef, q.version⟩ q.options.secret
      (q.options.useCache.getD s.config.useCache) t.cache (.ok (some x)) c) : s.Obtains t q x := by
  obtain ⟨huse, b, hget, hpeek, hjudge⟩ := hc.judge_of_hit
  obtain ⟨e, he, href, hversion, htag, hform⟩ := judge_hit hjudge
  refine ⟨hkey, entryPayload e.payload, .inl ⟨b, e, hpeek, he, href, hversion, rfl⟩, ?_⟩
  rcases hform with ⟨frame, hp, -, hx⟩ | ⟨keyId, envelope, secret, hp, hkind, hsecret, hx⟩
  · rw [hp]
    exact .inl ⟨rfl, hx⟩
  · have hdecrypts := Decrypts.entry hkey (by rw [hm]) huse hget he href hversion htag hkind hp
      hsecret
    rw [hp]
    exact .inr ⟨keyId, secret, rfl, hdecrypts, hx⟩

theorem obtains_of_row {row : Row}
    (hkey : Identity.validate q.objectRef q.version = .ok ⟨q.objectRef, q.version⟩)
    (hm : t.memory.getItem q.kind (Key.mk q.objectRef q.version).text = (none, m, ws))
    (hc : Probes s q.kind ⟨q.objectRef, q.version⟩ q.options.secret
      (q.options.useCache.getD s.config.useCache) t.cache (.ok none) c)
    (hfind : (t.table.find q.objectRef q.version).1 = .ok (some row))
    (hid : row.objectRef = q.objectRef ∧ row.version = q.version)
    (hx : s.materialize q.kind ⟨q.objectRef, q.version⟩ row q.options.secret = .ok x) :
    s.Obtains t q x := by
  refine ⟨hkey, toPayload row, .inr ⟨row, Table.peek_of_find hfind, rfl⟩, ?_⟩
  rcases materialize_ok hx with ⟨hplain, hx⟩ | ⟨keyId, secret, hsealed, hsecret, hx⟩
  · exact .inl ⟨hplain, hx⟩
  · rw [hid.1, hid.2] at hx
    exact .inr ⟨keyId, secret, hsealed,
      Decrypts.row hkey (by rw [hm]) hc hfind hsealed hsecret, hx⟩

/-- The item a read answers with was in the memory, or is obtained by the read. -/
theorem Fetches.item_cases {res : Except StoreError Fetched}
    (h : Fetches s q.kind q.objectRef q.version q.options t res t')
    (hrows : Identity.validate q.objectRef q.version = .ok ⟨q.objectRef, q.version⟩ → ∀ row,
      t.table.peek q.objectRef q.version = .ok (some row) →
      row.objectRef = q.objectRef ∧ row.version = q.version)
    {f : Fetched} (hres : res = .ok f) :
    (Identity.validate q.objectRef q.version = .ok ⟨q.objectRef, q.version⟩ ∧
      t.memory.cells.get? (Key.mk q.objectRef q.version).text = some (.item f.item) ∧
      f.item.kind = q.kind) ∨ s.Obtains t q f.item := by
  cases h with
  | invalid hkey => cases hres
  | refused hkey hm hc => cases hres
  | memory hkey hm =>
    cases Identity.eq_of_validate hkey
    obtain ⟨hget, hkind, -⟩ := Memory.get?_of_getItem hm
    cases hres
    exact .inl ⟨hkey, hget, hkind⟩
  | cache hkey hm hc =>
    cases Identity.eq_of_validate hkey
    cases hres
    exact .inr (obtains_of_probe hkey hm hc)
  | table hkey hm hc hload =>
    cases Identity.eq_of_validate hkey
    cases hload with
    | failed h => cases hres
    | absent h => cases hres
    | unreadable h => cases hres
    | uncacheable h => cases hres
    | uncached h hx =>
      cases hres
      exact .inr (obtains_of_row hkey hm hc h (hrows hkey _ (Table.peek_of_find h)) hx)
    | @cached row x p r c h hx huse hform hwrite =>
      cases r with
      | error e => cases hres
      | ok u =>
        cases hres
        exact .inr (obtains_of_row hkey hm hc h (hrows hkey _ (Table.peek_of_find h)) hx)

/-- A cell of the memory after a read was there before, or holds an item the read obtained. -/
theorem Fetches.cell_cases {res : Except StoreError Fetched}
    (h : Fetches s q.kind q.objectRef q.version q.options t res t')
    (hrows : Identity.validate q.objectRef q.version = .ok ⟨q.objectRef, q.version⟩ → ∀ row,
      t.table.peek q.objectRef q.version = .ok (some row) →
      row.objectRef = q.objectRef ∧ row.version = q.version)
    {j : String} {cell : Cell} (hcell : t'.memory.cells.get? j = some cell) :
    t.memory.cells.get? j = some cell ∨
      j = (Key.mk q.objectRef q.version).text ∧ ∃ x, cell = .item x ∧ s.Obtains t q x := by
  have hmiss {m : Memory} {key : String} {found : Option Item} {ws : List Warning}
      (hm : t.memory.getItem q.kind key = (found, m, ws)) (hcell : m.cells.get? j = some cell) :
      t.memory.cells.get? j = some cell := by
    refine t.memory.get?_getItem q.kind key ?_
    rwa [hm]
  cases h with
  | invalid hkey => exact .inl hcell
  | memory hkey hm => exact .inl (hmiss hm hcell)
  | refused hkey hm hc => exact .inl (hmiss hm hcell)
  | cache hkey hm hc =>
    cases Identity.eq_of_validate hkey
    rcases Memory.get?_insert hcell with ⟨hj, rfl⟩ | hcell
    · exact .inr ⟨hj, _, rfl, obtains_of_probe hkey hm hc⟩
    · exact .inl (hmiss hm hcell)
  | table hkey hm hc hload =>
    cases Identity.eq_of_validate hkey
    cases hload with
    | failed h => exact .inl (hmiss hm hcell)
    | absent h => exact .inl (hmiss hm hcell)
    | unreadable h => exact .inl (hmiss hm hcell)
    | uncacheable h => exact .inl (hmiss hm hcell)
    | uncached h hx | cached h hx =>
      rcases Memory.get?_insert hcell with ⟨hj, rfl⟩ | hcell
      · exact .inr ⟨hj, _, rfl,
          obtains_of_row hkey hm hc h (hrows hkey _ (Table.peek_of_find h)) hx⟩
      · exact .inl (hmiss hm hcell)

end

variable {s : Store} {t t' : Tiers} {cmd : Command} {res : Except StoreError Reply}

/-- A row of the table after a command was there before, or was written by the command. -/
theorem Performs.row_cases (h : Performs s t cmd res t') {r : String} {v : UInt16} {row : Row}
    (hrow : t'.table.peek r v = .ok (some row)) :
    t.table.peek r v = .ok (some row) ∨ ∃ x secret nonce now, cmd = .put x secret nonce now ∧
      res = .ok (.row row) ∧ row.objectRef = r ∧ row.version = v := by
  have hfetch {k : Kind} {r' : String} {v' : UInt16} {o : ReadOptions}
      {res : Except StoreError Fetched} (h : Fetches s k r' v' o t res t') :
      t.table.peek r v = .ok (some row) := by
    cases h with
    | invalid hkey => exact hrow
    | memory hkey hm => exact hrow
    | refused hkey hm hc => exact hrow
    | cache hkey hm hc => exact hrow
    | table hkey hm hc hload => cases hload <;> rwa [Table.peek_find] at hrow
  cases h with
  | put h =>
    cases h with
    | invalid hkey => exact .inl hrow
    | unencodable hkey hp => exact .inl hrow
    | refused hkey hp h => exact .inl (by rwa [Table.peek_insert_error h] at hrow)
    | stored hkey hp h =>
      rw [Table.peek_insert_ok h] at hrow
      split at hrow
      · next hid =>
        cases hrow
        exact .inr ⟨_, _, _, _, rfl, rfl, hid.1.symm, hid.2.symm⟩
      · exact .inl hrow
  | fetch h => exact .inl (hfetch h)
  | get h => exact .inl (hfetch h)
  | purge h => cases h <;> exact .inl hrow
  | clearMemory => exact .inl hrow

/-- A command that is no read leaves nothing new in the memory. -/
theorem Performs.cell_of_write (h : Performs s t cmd res t') (hcmd : cmd.request? = none)
    {j : String} {cell : Cell} (hcell : t'.memory.cells.get? j = some cell) :
    t.memory.cells.get? j = some cell := by
  cases h with
  | put h => cases h <;> exact hcell
  | fetch h => cases hcmd
  | get h => cases hcmd
  | purge h =>
    cases h with
    | invalid hkey => exact hcell
    | failed hkey h => exact (Memory.get?_erase hcell).2
    | purged hkey h => exact (Memory.get?_erase hcell).2
  | clearMemory => cases hcell

end Store

namespace Step

/-- A decryption that a step makes. -/
def Decrypts (st : Step) (q : Request) (keyId : String) (secret : Secret) (envelope : Bytes) :
    Prop :=
  st.command.request? = some q ∧ st.site.store.Decrypts st.tiers q keyId secret envelope

end Step

namespace Cluster

/-! ### The invariant -/

/-- A row that a successful write of the run put into a table. -/
def Stored (log : List Step) (r : String) (v : UInt16) (row : Row) : Prop :=
  ∃ st ∈ log, ∃ x secret nonce now, st.command = .put x secret nonce now ∧
    st.result = .ok (.row row) ∧ row.objectRef = r ∧ row.version = v

/-- A row that decodes to an item, as it is if it is plain, and otherwise with the cipher and the
secret of a decryption of its payload in the run. -/
def DecodesTo (log : List Step) (k : Kind) (r : String) (v : UInt16) (row : Row) (x : Item) :
    Prop :=
  (row.keyId = none ∧ Payload.decodePlain k row.payload = .ok x) ∨
  ∃ st ∈ log, ∃ o keyId secret, row.keyId = some keyId ∧
    st.Decrypts ⟨k, r, v, o⟩ keyId secret row.payload ∧
    Payload.decodeSealed st.site.store.cipher k secret r v row.payload = .ok x

/-- What the tiers hold for valid identities goes back to rows that were stored. -/
structure Sourced (log : List Step) (c : Cluster) : Prop where
  tables : ∀ i r v row, Identity.validate r v = .ok ⟨r, v⟩ →
    (c.tables i).peek r v = .ok (some row) → Stored log r v row
  caches : ∀ i key b, (c.caches i).peek key = some b → ∃ e row, Entry.ofBytes? b = some e ∧
    Stored log e.objectRef e.version row ∧
    Store.entryPayload e.payload = Store.toPayload row
  memories : ∀ i r v cell, Identity.validate r v = .ok ⟨r, v⟩ →
    (c.memories i).cells.get? (Key.mk r v).text = some cell → ∃ x row, cell = .item x ∧
    Stored log r v row ∧ DecodesTo log x.kind r v row x

variable {log : List Step} {st : Step} {k : Kind} {r : String} {v : UInt16} {row : Row} {x : Item}

theorem Stored.append (h : Stored log r v row) (st : Step) : Stored (log ++ [st]) r v row := by
  obtain ⟨st', hst, h⟩ := h
  exact ⟨st', List.mem_append_left _ hst, h⟩

theorem DecodesTo.append (h : DecodesTo log k r v row x) (st : Step) :
    DecodesTo (log ++ [st]) k r v row x := by
  rcases h with h | ⟨st', hst, h⟩
  · exact .inl h
  · exact .inr ⟨st', List.mem_append_left _ hst, h⟩

theorem Sourced.rows (h : Sourced log st.found) {q : Request}
    (hkey : Identity.validate q.objectRef q.version = .ok ⟨q.objectRef, q.version⟩) (row : Row)
    (hrow : st.tiers.table.peek q.objectRef q.version = .ok (some row)) :
    row.objectRef = q.objectRef ∧ row.version = q.version := by
  obtain ⟨-, -, -, -, -, -, -, -, hid⟩ := h.tables _ _ _ _ hkey hrow
  exact hid

theorem Sourced.obtains (h : Sourced log st.found) {q : Request} (hq : st.command.request? = some q)
    (hx : st.site.store.Obtains st.tiers q x) : x.kind = q.kind ∧ ∃ row,
      Stored log q.objectRef q.version row ∧
      DecodesTo (log ++ [st]) q.kind q.objectRef q.version row x := by
  obtain ⟨hkey, p, hp, hyields⟩ := hx
  have hrow : ∃ row, Stored log q.objectRef q.version row ∧ Store.toPayload row = p := by
    rcases hp with ⟨b, e, hb, he, href, hversion, hpayload⟩ | ⟨row, hrow, hpayload⟩
    · obtain ⟨e', row, he', hstored, hsame⟩ := h.caches _ _ _ hb
      rw [he] at he'
      cases he'
      rw [href, hversion] at hstored
      exact ⟨row, hstored, hsame.symm.trans hpayload⟩
    · exact ⟨row, h.tables _ _ _ _ hkey hrow, hpayload⟩
  obtain ⟨row, hstored, rfl⟩ := hrow
  refine ⟨hyields.kind, row, hstored, ?_⟩
  rcases hyields with hplain | ⟨keyId, secret, hid, hdecrypts, hx⟩
  · exact .inl hplain
  · exact .inr ⟨st, by simp, q.options, keyId, secret, hid, ⟨hq, hdecrypts⟩, hx⟩

/-- What a read answers goes back to a row that was stored before. -/
theorem Sourced.answer (h : Sourced log st.found) {q : Request} (hq : st.command.request? = some q)
    {f : Fetched} (hf : st.answer q = .ok f) : ∃ row, Stored log q.objectRef q.version row ∧
      DecodesTo (log ++ [st]) q.kind q.objectRef q.version row f.item := by
  obtain ⟨t, ht, -⟩ := Step.request_cases hq
  rcases ht.item_cases (h.rows) hf with ⟨hkey, hcell, hkind⟩ | hx
  · obtain ⟨x, row, hx, hstored, hdecodes⟩ := h.memories _ _ _ _ hkey hcell
    cases hx
    rw [hkind] at hdecodes
    exact ⟨row, hstored, hdecodes.append st⟩
  · exact (h.obtains hq hx).2

/-- A row of a table after a step was there before, or was stored by the step. -/
theorem Sourced.tables_next (h : Sourced log st.found) {i : Nat}
    (hkey : Identity.validate r v = .ok ⟨r, v⟩)
    (hrow : (st.next.tables i).peek r v = .ok (some row)) :
    Stored (log ++ [st]) r v row := by
  have hkept (hrow : (st.found.tables i).peek r v = .ok (some row)) :
      Stored (log ++ [st]) r v row := (h.tables i r v row hkey hrow).append st
  obtain ⟨t, ht, hnext⟩ := st.cases
  rw [hnext, tables_withTiers] at hrow
  split at hrow
  · next hi =>
    subst hi
    rcases ht.row_cases hrow with hrow | ⟨x, secret, nonce, now, hcmd, hres, hid⟩
    · exact hkept hrow
    · exact ⟨st, by simp, x, secret, nonce, now, hcmd, hres, hid⟩
  · exact hkept hrow

/-- An entry of a cache after a step was there before, or holds the payload of a row. -/
theorem Sourced.caches_next (h : Sourced log st.found) {i : Nat} {key : String} {b : Bytes}
    (hb : (st.next.caches i).peek key = some b) : ∃ e row, Entry.ofBytes? b = some e ∧
      Stored (log ++ [st]) e.objectRef e.version row ∧
      Store.entryPayload e.payload = Store.toPayload row := by
  have hkept (hb : (st.found.caches i).peek key = some b) : ∃ e row, Entry.ofBytes? b = some e ∧
      Stored (log ++ [st]) e.objectRef e.version row ∧
      Store.entryPayload e.payload = Store.toPayload row := by
    obtain ⟨e, row, he, hstored, hp⟩ := h.caches i key b hb
    exact ⟨e, row, he, hstored.append st, hp⟩
  cases hcmd : st.command.request? with
  | none =>
    obtain ⟨t, ht, hnext⟩ := st.cases
    rw [hnext, caches_withTiers] at hb
    split at hb
    · next hi =>
      subst hi
      simp only [Tiers.settle, Cache.peek_settle] at hb
      exact hkept (ht.peek_of_write hcmd hb)
    · exact hkept hb
  | some q =>
    obtain ⟨t, ht, hnext⟩ := Step.request_cases hcmd
    rw [hnext, caches_withTiers] at hb
    split at hb
    · next hi =>
      subst hi
      simp only [Tiers.settle, Cache.peek_settle] at hb
      rcases ht.peek_cases hb with hb | ⟨row, x, p, -, hkey, -, hrow, -, hp, he⟩
      · exact hkept hb
      · have hrow := Table.peek_of_find hrow
        obtain ⟨href, hversion⟩ := h.rows hkey row hrow
        refine ⟨_, row, Entry.ofBytes?_of_encode? he, ?_, ?_⟩
        · rw [href, hversion]
          exact (h.tables _ _ _ _ hkey hrow).append st
        · cases hp with
          | plain _ hrow => simp only [Store.entryPayload, Store.toPayload, hrow]
          | «sealed» _ hrow => simp only [Store.entryPayload, Store.toPayload, hrow]
    · exact hkept hb

/-- An item in a memory after a step was there before, or was obtained by the step. -/
theorem Sourced.memories_next (h : Sourced log st.found) {i : Nat} {cell : Cell}
    (hkey : Identity.validate r v = .ok ⟨r, v⟩)
    (hcell : (st.next.memories i).cells.get? (Key.mk r v).text = some cell) : ∃ x row,
      cell = .item x ∧ Stored (log ++ [st]) r v row ∧ DecodesTo (log ++ [st]) x.kind r v row x := by
  have hkept (hcell : (st.found.memories i).cells.get? (Key.mk r v).text = some cell) :
      ∃ x row, cell = .item x ∧ Stored (log ++ [st]) r v row ∧
        DecodesTo (log ++ [st]) x.kind r v row x := by
    obtain ⟨x, row, hx, hstored, hdecodes⟩ := h.memories i r v cell hkey hcell
    exact ⟨x, row, hx, hstored.append st, hdecodes.append st⟩
  cases hcmd : st.command.request? with
  | none =>
    obtain ⟨t, ht, hnext⟩ := st.cases
    rw [hnext, memories_withTiers] at hcell
    split at hcell
    · next hi =>
      subst hi
      exact hkept (ht.cell_of_write hcmd hcell)
    · exact hkept hcell
  | some q =>
    obtain ⟨t, ht, hnext⟩ := Step.request_cases hcmd
    rw [hnext, memories_withTiers] at hcell
    split at hcell
    · next hi =>
      subst hi
      rcases ht.cell_cases h.rows hcell with hcell | ⟨hj, x, rfl, hx⟩
      · exact hkept hcell
      · cases Key.text_injective hj
        obtain ⟨hkind, row, hstored, hdecodes⟩ := h.obtains hcmd hx
        exact ⟨x, row, rfl, hstored.append st, hkind ▸ hdecodes⟩
    · exact hkept hcell

theorem Sourced.next (h : Sourced log st.found) : Sourced (log ++ [st]) st.next where
  tables _ _ _ _ hkey hrow := h.tables_next hkey hrow
  caches _ _ _ hb := h.caches_next hb
  memories _ _ _ _ hkey hcell := h.memories_next hkey hcell

theorem Sourced.fades {c c' : Cluster} (hc : Fades c c') (h : Sourced log c) : Sourced log c' where
  tables i r v row hkey hrow := h.tables i r v row hkey (hc.tables i r v row hrow)
  caches i key b hb := h.caches i key b (hc.caches i key b hb)
  memories i r v cell hkey hcell := h.memories i r v cell hkey (hc.memories i _ cell hcell)

theorem IsEmpty.sourced {c : Cluster} (h : c.IsEmpty) : Sourced [] c where
  tables i r v row hkey hrow := by rw [h.tables i r v _ hkey] at hrow; cases hrow
  caches i key b hb := by rw [h.caches] at hb; cases hb
  memories i r v cell hkey hcell := by rw [h.memories] at hcell; cases hcell

/-! ### Runs -/

/-- The payload of a row of the identity was sealed with the key by a successful write. -/
def SealedWith (log : List Step) (r : String) (v : UInt16) (envelope key : Bytes) : Prop :=
  ∃ st ∈ log, ∃ x secret nonce now row, st.command = .put x (some secret) nonce now ∧
    st.result = .ok (.row row) ∧ row.objectRef = r ∧ row.version = v ∧
    row.keyId.isSome = true ∧ row.payload = envelope ∧ secret.key = key

/-- A plain row decodes to an item with the identity of the row. -/
theorem Stored.eq_of_decodePlain (h : Stored log r v row) (hid : row.keyId = none)
    (hx : Payload.decodePlain k row.payload = .ok x) : x.objectRef = r ∧ x.version = v := by
  obtain ⟨st, -, y, secret, nonce, now, hcmd, hres, rfl, rfl⟩ := h
  obtain ⟨p, -, hp, rfl⟩ := Step.row_of_put hcmd hres
  rcases Store.encode_ok hp with ⟨-, hp⟩ | ⟨t, -, -, hp⟩
  · obtain ⟨b, hb, rfl⟩ := Payload.encodePlain_ok hp
    exact Payload.eq_of_readFrame hb hx
  · obtain ⟨b, parts, -, -, -, hid'⟩ := Payload.encodeSealed_ok hp
    rw [hid'] at hid
    cases hid

/-- What is opened with the key it was sealed with has the identity it was sealed under. -/
theorem SealedWith.eq_of_decodeSealed {envelope : Bytes} {secret : Secret}
    (hcipher : ∀ st ∈ log, st.site.store.cipher = .chaCha)
    (h : SealedWith log r v envelope secret.key)
    (hx : Payload.decodeSealed .chaCha k secret r v envelope = .ok x) :
    x.objectRef = r ∧ x.version = v := by
  obtain ⟨st, hst, y, t, nonce, now, row, hcmd, hres, rfl, rfl, hid, rfl, hkey⟩ := h
  obtain ⟨p, -, hp, rfl⟩ := Step.row_of_put hcmd hres
  rcases Store.encode_ok hp with ⟨-, hp⟩ | ⟨t', -, ht, hp⟩
  · obtain ⟨b, -, rfl⟩ := Payload.encodePlain_ok hp
    cases hid
  · cases ht
    rw [hcipher st hst] at hp
    obtain ⟨b, hb, hopen⟩ := Payload.decodeSealed_encodeSealed hkey.symm hp
    rw [hopen k] at hx
    split at hx
    · exact Payload.eq_of_readFrame hb hx
    · cases hx

/-- Whatever tier answers a read, the item is what an earlier write of the identity stored, decoded
as the kind that was asked for; and it is an item of that identity, if all sites seal with
ChaCha20-Poly1305 and every decryption uses the key its payload was sealed with. -/
theorem Reaches.provenance {start c : Cluster} {before after : List Step} {q : Request}
    {f : Fetched} (hstart : start.IsEmpty) (hruns : Reaches Fades start log c)
    (hlog : log = before ++ st :: after) (hq : st.command.request? = some q)
    (hf : st.answer q = .ok f) :
    (∃ row, Stored before q.objectRef q.version row ∧
      DecodesTo (before ++ [st]) q.kind q.objectRef q.version row f.item) ∧
    ((∀ st' ∈ log, st'.site.store.cipher = .chaCha) →
      (∀ st' ∈ log, ∀ q' keyId secret envelope, st'.Decrypts q' keyId secret envelope →
        SealedWith log q'.objectRef q'.version envelope secret.key) →
      f.item.objectRef = q.objectRef ∧ f.item.version = q.version) := by
  have hsourced : Sourced before st.found := (hruns.found hlog).invariant hstart.sourced
    (fun _ _ h => h.next) (fun _ _ _ hc h => h.fades hc)
  obtain ⟨row, hstored, hdecodes⟩ := hsourced.answer hq hf
  refine ⟨⟨row, hstored, hdecodes⟩, ?_⟩
  intro hcipher hkeys
  rcases hdecodes with ⟨hid, hx⟩ | ⟨st', hst', o, keyId, secret, -, hdecrypts, hx⟩
  · exact hstored.eq_of_decodePlain hid hx
  · have hmem : st' ∈ log := by
      rw [hlog]
      rcases List.mem_append.mp hst' with hst' | hst'
      · exact List.mem_append_left _ hst'
      · rw [List.mem_singleton] at hst'
        simp [hst']
    rw [hcipher st' hmem] at hx
    exact (hkeys st' hmem _ _ _ _ hdecrypts).eq_of_decodeSealed hcipher hx

/-- An item that was written and read, with the key it was sealed with. -/
theorem provenance_trial : ∃ put read f, put = trialPut trialItem trial ∧
    read = trialRead trialItem put.next ∧
    read.answer ⟨.creds, "a", 1, ⟨none, some trialSecret⟩⟩ = .ok f ∧
    (∃ row, Stored [put] "a" 1 row ∧ DecodesTo [put, read] .creds "a" 1 row f.item) ∧
    f.item.objectRef = "a" ∧ f.item.version = 1 := by
  obtain ⟨put, hput⟩ : ∃ put, put = trialPut trialItem trial := ⟨_, rfl⟩
  obtain ⟨read, hread⟩ : ∃ read, read = trialRead trialItem put.next := ⟨_, rfl⟩
  have hfound : (read.answer ⟨.creds, "a", 1, ⟨none, some trialSecret⟩⟩).toOption.isSome := by
    rw [hread, hput]
    decide +kernel
  obtain ⟨f, hf⟩ : ∃ f, read.answer ⟨.creds, "a", 1, ⟨none, some trialSecret⟩⟩ = .ok f := by
    cases hres : read.answer ⟨.creds, "a", 1, ⟨none, some trialSecret⟩⟩ with
    | ok f => exact ⟨f, rfl⟩
    | error e => rw [hres] at hfound; cases hfound
  have hput' : Reaches Fades trial [put] put.next := Reaches.start.step (by rw [hput]; rfl)
  have hruns : Reaches Fades trial [put, read] read.next := hput'.step (by rw [hread]; rfl)
  have hlog : [put, read] = [put] ++ read :: [] := rfl
  have hprovenance := hruns.provenance isEmpty_trial hlog (by rw [hread]; rfl) hf
  refine ⟨put, read, f, hput, hread, hf, hprovenance.1, hprovenance.2 ?_ ?_⟩
  · intro st hst
    simp only [List.mem_cons, List.not_mem_nil, or_false] at hst
    rcases hst with rfl | rfl
    · rw [hput]
      rfl
    · rw [hread]
      rfl
  · rintro st hst q keyId secret envelope ⟨hq, hdecrypts⟩
    simp only [List.mem_cons, List.not_mem_nil, or_false] at hst
    rcases hst with rfl | rfl
    · rw [hput] at hq
      cases hq
    · have habsent : (st.tiers.cache.get (Key.mk "a" 1).text).1.toOption.join.isSome = false := by
        rw [hread, hput]
        decide +kernel
      have hq' : q = ⟨.creds, "a", 1, ⟨none, some trialSecret⟩⟩ := by
        rw [hread] at hq
        cases hq
        rfl
      subst hq'
      cases hdecrypts with
      | entry hkey hmemory huse hget => rw [hget] at habsent; cases habsent
      | @row _ row _ _ hkey hmemory hcache hfind hid hsecret =>
        -- the row that is found is the one that was put there, with the secret that is given
        cases hsecret
        obtain ⟨t, ht, hnext⟩ := put.tiers_next
        have htiers : st.tiers = t.settle := by
          rw [← hnext, hread, hput]
          rfl
        have hrow := Table.peek_of_find hfind
        rw [htiers] at hrow
        rcases ht.row_cases hrow with hold | ⟨x, secret, nonce, now, hcmd, hres, href, hversion⟩
        · rw [hput] at hold
          cases hold
        · have hsecret : secret = some trialSecret := by
            rw [hput] at hcmd
            cases hcmd
            rfl
          subst hsecret
          exact ⟨put, by simp, x, trialSecret, nonce, now, row, hcmd, hres, href, hversion,
            by rw [hid]; rfl, rfl, rfl⟩

end Cluster

end ObjectTiers
