/-
Plans: commands as calls at one key.

A command that is given a valid identity comes to a result and a list of calls at the key of the
identity (`Store.Performs.eq_plan`). Which they are depends on what the tiers hold under the key and
on what they fail at: tiers that are alike in this, up to the times of their rows, get the same
result and the same calls, up to the times of the rows in them (`Store.plan_dated`).
-/
import ObjectTiers.Proofs.Calls
import ObjectTiers.Proofs.Degraded
import ObjectTiers.Proofs.History

namespace ObjectTiers

/-! ### Commands -/

/-- The key of a command that is given a valid identity. -/
def Command.key? (cmd : Command) : Option Key :=
  cmd.identity?.bind fun id => (Identity.validate id.1 id.2).toOption

theorem Command.key?_eq_some {cmd : Command} {key : Key} (h : cmd.key? = some key) :
    cmd.identity? = some (key.objectRef, key.version) ∧
      Identity.validate key.objectRef key.version = .ok key := by
  unfold key? at h
  cases hid : cmd.identity? with
  | none => rw [hid] at h; cases h
  | some id =>
    rw [hid, Option.bind_some] at h
    cases hkey : Identity.validate id.1 id.2 with
    | error e => rw [hkey] at h; cases h
    | ok key' =>
      rw [hkey] at h
      cases h
      cases Identity.eq_of_validate hkey
      exact ⟨rfl, hkey⟩

/-- The command as of another time. -/
def Command.dated (cmd : Command) (n : Int64) : Command :=
  match cmd with
  | .put x secret nonce _ => .put x secret nonce n
  | cmd => cmd

/-- A command without a key is given an invalid identity, or none. -/
theorem Command.exists_error_of_key? {cmd : Command} {id : String × UInt16} (h : cmd.key? = none)
    (hid : cmd.identity? = some id) : ∃ e, Identity.validate id.1 id.2 = .error e := by
  rw [key?, hid, Option.bind_some] at h
  cases hkey : Identity.validate id.1 id.2 with
  | error e => exact ⟨e, rfl⟩
  | ok key => rw [hkey] at h; cases h

theorem Command.eq_clearMemory_iff {cmd : Command} :
    cmd = .clearMemory ↔ cmd.identity? = none := by
  cases cmd <;> simp [identity?]

@[simp] theorem Command.identity?_dated (cmd : Command) (n : Int64) :
    (cmd.dated n).identity? = cmd.identity? := by
  cases cmd <;> rfl

@[simp] theorem Command.key?_dated (cmd : Command) (n : Int64) : (cmd.dated n).key? = cmd.key? := by
  cases cmd <;> rfl

theorem Command.identity?_of_dated {cmd cmd' : Command} (h : cmd'.dated 0 = cmd.dated 0) :
    cmd'.identity? = cmd.identity? := by
  rw [← cmd'.identity?_dated 0, h, cmd.identity?_dated]

theorem Command.key?_of_dated {cmd cmd' : Command} (h : cmd'.dated 0 = cmd.dated 0) :
    cmd'.key? = cmd.key? := by
  rw [← cmd'.key?_dated 0, h, cmd.key?_dated]

theorem Command.exists_eq_dated {cmd cmd' : Command} (h : cmd'.dated 0 = cmd.dated 0) :
    ∃ n, cmd' = cmd.dated n := by
  cases cmd' with
  | put x secret nonce now =>
    cases cmd <;> cases h
    exact ⟨now, rfl⟩
  | fetch | get | purge | clearMemory =>
    cases cmd <;> cases h
    exact ⟨0, rfl⟩

/-- The reply with the time of a row set. -/
def Reply.dated (reply : Reply) (n : Int64) : Reply :=
  match reply with
  | .row r => .row (r.dated n)
  | reply => reply

/-- The tiers after calls at a key. -/
def Tiers.after (t : Tiers) (key : Key) (calls : List Call) : Tiers :=
  ⟨calls.foldl (Call.onMemory key) t.memory, calls.foldl (Call.onCache key) t.cache,
    calls.foldl (Call.onTable key) t.table⟩

theorem Tiers.after_append (t : Tiers) (key : Key) (calls calls' : List Call) :
    t.after key (calls ++ calls') = (t.after key calls).after key calls' := by
  simp only [after, List.foldl_append]

namespace Store

variable {s : Store} {k : Kind} {key : Key} {useCache : Bool} {secret : Option Secret}
  {t t' u : Tiers} {c c' : Cache} {r : String} {v : UInt16} {o : ReadOptions} {cmd : Command}

/-! ### Plans -/

/-- The calls with which a read begins. -/
def asking (k : Kind) (useCache : Bool) : List Call :=
  .memoryGet k :: if useCache then [.cacheGet] else []

/-- The call that puts an entry into the cache, if there is one and it has a record. -/
def filling (s : Store) (entry : Option Entry) : List Call :=
  match entry.bind Entry.encode? with
  | some bytes => [.cacheSet bytes s.config.ttlMilliseconds]
  | none => []

/-- A read of a key. -/
def fetchPlan (s : Store) (k : Kind) (key : Key) (o : ReadOptions) (t : Tiers) :
    Except StoreError Fetched × List Call :=
  let useCache := o.useCache.getD s.config.useCache
  match (t.memory.getItem k key.text).1 with
  | some x => (.ok ⟨x, .memory⟩, [.memoryGet k])
  | none =>
    match s.probed k key o.secret useCache t.cache with
    | .error e => (.error e, asking k useCache)
    | .ok (some x) => (.ok ⟨x, .cache⟩, asking k useCache ++ [.memoryInsert x])
    | .ok none =>
      match s.reading k key useCache o.secret t.table with
      | .error e => (.error e, asking k useCache ++ [.tableFind])
      | .ok (x, entry) => (loaded x (s.written key t.cache entry),
          asking k useCache ++ .tableFind :: .memoryInsert x :: s.filling entry)

/-- A write of an item under a key. -/
def putPlan (s : Store) (x : Item) (secret : Option Secret) (nonce : Bytes) (now : Int64)
    (key : Key) (t : Tiers) : Except StoreError Row × List Call :=
  match s.encode x secret nonce with
  | .error e => (.error e, [])
  | .ok p => (((t.table.insert (key.row p now)).1.mapError .table).map fun _ => key.row p now,
      [.tableInsert p now])

/-- A removal of a key. -/
def purgePlan (s : Store) (key : Key) (t : Tiers) : Except StoreError Unit × List Call :=
  (if t.cache.fails .delete then s.config.policy.outcome (TrialCache.injected .delete key.text)
    else .ok (), [.memoryErase, .cacheDelete])

/-- A command at a key. A clearing of the memory is not one. -/
def plan (s : Store) (key : Key) (t : Tiers) : Command → Except StoreError Reply × List Call
  | .put x secret nonce now =>
    let p := s.putPlan x secret nonce now key t
    (p.1.map .row, p.2)
  | .fetch k _ _ o =>
    let p := s.fetchPlan k key o t
    (p.1.map .fetched, p.2)
  | .get k _ _ o =>
    let p := s.fetchPlan k key o t
    (p.1.map fun f => .item f.item, p.2)
  | .purge _ _ =>
    let p := s.purgePlan key t
    (p.1.map fun _ => .done, p.2)
  | .clearMemory => (.ok .done, [])

theorem Probes.eq_get {found : Except StoreError (Option Item)}
    (h : Probes s k key secret useCache c found c') :
    c' = if useCache then (c.get key.text).2 else c := by
  cases h with
  | unused c => rfl
  | failed h | absent h | found h => rw [h]; rfl

theorem after_asking (t : Tiers) (k : Kind) (key : Key) (useCache : Bool) :
    t.after key (asking k useCache) = ⟨(t.memory.getItem k key.text).2.1,
      if useCache then (t.cache.get key.text).2 else t.cache, t.table⟩ := by
  cases useCache <;> rfl

theorem after_filling (s : Store) (key : Key) (t : Tiers) (entry : Option Entry) :
    t.after key (s.filling entry) = { t with
      cache := t.cache.fill key.text s.config.ttlMilliseconds (entry.bind Entry.encode?) } := by
  unfold filling
  cases entry.bind Entry.encode? <;> rfl

theorem Fetches.eq_plan {res : Except StoreError Fetched} (h : Fetches s k r v o t res t')
    (hkey : Identity.validate r v = .ok key) :
    res = (s.fetchPlan k key o t).1 ∧ t' = t.after key (s.fetchPlan k key o t).2 := by
  cases h with
  | invalid hkey' => cases hkey.symm.trans hkey'
  | memory hkey' hm =>
    cases hkey.symm.trans hkey'
    simp only [fetchPlan, hm, Tiers.after, List.foldl_cons, List.foldl_nil, Call.onMemory,
      Call.onCache, Call.onTable, and_self]
  | refused hkey' hm hc =>
    cases hkey.symm.trans hkey'
    simp only [fetchPlan, hm, ← hc.eq_probed, after_asking, ← hc.eq_get, and_self]
  | cache hkey' hm hc =>
    cases hkey.symm.trans hkey'
    simp only [fetchPlan, hm, ← hc.eq_probed, Tiers.after_append, after_asking, ← hc.eq_get]
    exact ⟨trivial, rfl⟩
  | table hkey' hm hc hload =>
    cases hkey.symm.trans hkey'
    obtain ⟨rfl, rfl⟩ := hload.eq_written
    simp only [fetchPlan, hm, ← hc.eq_probed, written_congr hc.fails_eq]
    cases s.reading k key (o.useCache.getD s.config.useCache) o.secret t.table with
    | error e =>
      simp only [Tiers.after_append, after_asking, hm, ← hc.eq_get]
      exact ⟨rfl, rfl⟩
    | ok found =>
      refine ⟨rfl, ?_⟩
      have hsplit : asking k (o.useCache.getD s.config.useCache) ++
          .tableFind :: .memoryInsert found.1 :: s.filling found.2 =
          asking k (o.useCache.getD s.config.useCache) ++
            [.tableFind, .memoryInsert found.1] ++ s.filling found.2 := by simp
      simp only [hsplit, Tiers.after_append, after_filling, after_asking, hm, ← hc.eq_get]
      rfl

theorem Puts.eq_plan {x : Item} {nonce : Bytes} {now : Int64} {res : Except StoreError Row}
    (h : Puts s x secret nonce now t res t')
    (hkey : Identity.validate x.objectRef x.version = .ok key) :
    res = (s.putPlan x secret nonce now key t).1 ∧
      t' = t.after key (s.putPlan x secret nonce now key t).2 := by
  cases Identity.eq_of_validate hkey
  cases h with
  | invalid hkey' => cases hkey.symm.trans hkey'
  | unencodable hkey' hp =>
    simp only [putPlan, hp]
    exact ⟨trivial, rfl⟩
  | refused hkey' hp h | stored hkey' hp h =>
    simp only [putPlan, hp, Key.row, h, Tiers.after, List.foldl_cons, List.foldl_nil, Call.onMemory,
      Call.onCache, Call.onTable]
    exact ⟨rfl, trivial⟩

theorem Purges.eq_plan {res : Except StoreError Unit} (h : Purges s r v t res t')
    (hkey : Identity.validate r v = .ok key) :
    res = (s.purgePlan key t).1 ∧ t' = t.after key (s.purgePlan key t).2 := by
  have hdelete := t.cache.delete_fst key.text
  cases h with
  | invalid hkey' => cases hkey.symm.trans hkey'
  | failed hkey' h =>
    cases hkey.symm.trans hkey'
    rw [h] at hdelete
    refine ⟨?_, by simp only [purgePlan, Tiers.after, List.foldl_cons, List.foldl_nil,
      Call.onMemory, Call.onCache, Call.onTable, h]⟩
    split at hdelete
    · next hfails =>
      cases hdelete
      exact (if_pos hfails).symm
    · cases hdelete
  | purged hkey' h =>
    cases hkey.symm.trans hkey'
    rw [h] at hdelete
    refine ⟨?_, by simp only [purgePlan, Tiers.after, List.foldl_cons, List.foldl_nil,
      Call.onMemory, Call.onCache, Call.onTable, h]⟩
    split at hdelete
    · cases hdelete
    · next hfails => exact (if_neg hfails).symm

/-- A command at a key goes by its plan. -/
theorem Performs.eq_plan {res : Except StoreError Reply} (h : Performs s t cmd res t')
    (hkey : cmd.key? = some key) :
    res = (s.plan key t cmd).1 ∧ t' = t.after key (s.plan key t cmd).2 := by
  obtain ⟨hid, hvalid⟩ := Command.key?_eq_some hkey
  obtain ⟨objectRef, version⟩ := key
  cases h with
  | put h =>
    cases hid
    obtain ⟨rfl, rfl⟩ := h.eq_plan hvalid
    exact ⟨rfl, rfl⟩
  | fetch h =>
    cases hid
    obtain ⟨rfl, rfl⟩ := h.eq_plan hvalid
    exact ⟨rfl, rfl⟩
  | get h =>
    cases hid
    obtain ⟨rfl, rfl⟩ := h.eq_plan hvalid
    exact ⟨rfl, rfl⟩
  | purge h =>
    cases hid
    obtain ⟨rfl, rfl⟩ := h.eq_plan hvalid
    exact ⟨rfl, rfl⟩
  | clearMemory => cases hid

/-! ### What a plan depends on -/

/-- The row that a write offers to the table. -/
def offer? (s : Store) : Command → Option Row
  | .put x secret nonce now =>
    match s.encode x secret nonce with
    | .ok p => some ⟨x.objectRef, x.version, p.bytes, p.keyId, now⟩
    | .error _ => none
  | _ => none

/-- The rows that a command writes are those that it offers. -/
theorem offer?_of_mem_plan {p : Payload} {now : Int64} (hkey : cmd.key? = some key)
    (h : .tableInsert p now ∈ (s.plan key t cmd).2) : s.offer? cmd = some (key.row p now) := by
  obtain ⟨hid, -⟩ := Command.key?_eq_some hkey
  obtain ⟨objectRef, version⟩ := key
  have hfilling (entry : Option Entry) : .tableInsert p now ∉ s.filling entry := by
    unfold filling
    split <;> simp
  have hasking (k : Kind) (useCache : Bool) : .tableInsert p now ∉ asking k useCache := by
    cases useCache <;> simp [asking]
  have hfetch (k : Kind) (o : ReadOptions) :
      .tableInsert p now ∉ (s.fetchPlan k ⟨objectRef, version⟩ o t).2 := by
    simp only [fetchPlan]
    split
    · simp
    split
    · exact hasking k _
    · simp [hasking]
    split
    · simp [hasking]
    · simp [hasking, hfilling]
  cases cmd with
  | put x secret nonce now' =>
    cases hid
    simp only [plan, putPlan] at h
    simp only [offer?]
    cases hp : s.encode x secret nonce with
    | error e => simp [hp] at h
    | ok p' =>
      simp only [hp, List.mem_singleton, Call.tableInsert.injEq] at h
      obtain ⟨rfl, rfl⟩ := h
      rfl
  | fetch k r v o => exact absurd h (hfetch k o)
  | get k r v o => exact absurd h (hfetch k o)
  | purge r v => simp [plan, purgePlan] at h
  | clearMemory => cases hid

theorem probed_congr (hpeek : c'.peek key.text = c.peek key.text) (hfails : c'.fails = c.fails) :
    s.probed k key secret useCache c' = s.probed k key secret useCache c := by
  simp only [probed, hpeek, hfails]

/-- What a table has for a read does not depend on the time of the row. -/
theorem reading_eq_view (table : Table) : s.reading k key useCache secret table =
    if table.fails then .error (.table (.backend "injected read failure"))
    else match table.view key.objectRef key.version with
    | .error e => .error (.table e)
    | .ok none => .error (.notFound key.objectRef key.version)
    | .ok (some row) =>
      (s.materialize k key row secret).bind fun x =>
        (entryOf k key useCache row).map fun e => (x, e) := by
  simp only [reading, Table.find_eq, Table.view]
  cases table.fails with
  | true => rfl
  | false =>
    cases table.peek key.objectRef key.version with
    | error e => rfl
    | ok found => cases found <;> rfl

theorem reading_congr {table table' : Table} (hfails : table'.fails = table.fails)
    (hview : table'.view key.objectRef key.version = table.view key.objectRef key.version) :
    s.reading k key useCache secret table' = s.reading k key useCache secret table := by
  rw [reading_eq_view, reading_eq_view, hfails, hview]

/-- Tiers that hold the same under a key, up to the time of its row, and fail at the same. -/
structure AlikeAt (key : Key) (t u : Tiers) : Prop where
  cell : u.memory.cells.get? key.text = t.memory.cells.get? key.text
  entry : u.cache.peek key.text = t.cache.peek key.text
  cacheFails : u.cache.fails = t.cache.fails
  row : u.table.view key.objectRef key.version = t.table.view key.objectRef key.version
  tableFails : u.table.fails = t.table.fails

theorem fetchPlan_congr (h : AlikeAt key t u) :
    s.fetchPlan k key o u = s.fetchPlan k key o t := by
  simp only [fetchPlan, Memory.getItem_congr h.cell, probed_congr h.entry h.cacheFails,
    reading_congr h.tableFails h.row, written_congr h.cacheFails]

theorem putPlan_dated {x : Item} {nonce : Bytes} {now : Int64} (n : Int64)
    (hinsert : ∀ p, s.encode x secret nonce = .ok p →
      (u.table.insert (key.row p now)).1 = (t.table.insert (key.row p now)).1) :
    (s.putPlan x secret nonce n key u).1.map (·.dated 0) =
        (s.putPlan x secret nonce now key t).1.map (·.dated 0) ∧
      (s.putPlan x secret nonce n key u).2.map (·.dated 0) =
        (s.putPlan x secret nonce now key t).2.map (·.dated 0) := by
  unfold putPlan
  cases hp : s.encode x secret nonce with
  | error e => exact ⟨rfl, rfl⟩
  | ok p =>
    have hdated : (u.table.insert (key.row p n)).1 = (t.table.insert (key.row p now)).1 :=
      (u.table.insert_dated_fst (key.row p now) n).trans (hinsert p hp)
    simp only [hdated]
    refine ⟨?_, rfl⟩
    cases (t.table.insert (key.row p now)).1 <;> rfl

/-- Tiers that are alike at its key, and take the row that it offers alike, give a command the same
result and the same calls, whenever it is given. -/
theorem plan_dated (hkey : cmd.key? = some key) (h : AlikeAt key t u)
    (hoffer : ∀ row, s.offer? cmd = some row →
      (u.table.insert row).1 = (t.table.insert row).1) (n : Int64) :
    (s.plan key u (cmd.dated n)).1.map (·.dated 0) = (s.plan key t cmd).1.map (·.dated 0) ∧
      (s.plan key u (cmd.dated n)).2.map (·.dated 0) =
        (s.plan key t cmd).2.map (·.dated 0) := by
  obtain ⟨hid, -⟩ := Command.key?_eq_some hkey
  obtain ⟨objectRef, version⟩ := key
  cases cmd with
  | put x secret nonce now =>
    cases hid
    have hinsert (p : Payload) (hp : s.encode x secret nonce = .ok p) :
        (u.table.insert (Key.row ⟨x.objectRef, x.version⟩ p now)).1 =
          (t.table.insert (Key.row ⟨x.objectRef, x.version⟩ p now)).1 :=
      hoffer _ (by simp only [offer?, hp]; rfl)
    obtain ⟨hres, hcalls⟩ := putPlan_dated n hinsert
    refine ⟨?_, hcalls⟩
    simp only [plan, Command.dated]
    have hrow (res : Except StoreError Row) :
        (res.map Reply.row).map (·.dated 0) = (res.map (·.dated 0)).map .row := by
      cases res <;> rfl
    rw [hrow, hrow, hres]
  | fetch k r v o =>
    simp only [plan, Command.dated, fetchPlan_congr h, and_self]
  | get k r v o =>
    simp only [plan, Command.dated, fetchPlan_congr h, and_self]
  | purge r v =>
    simp only [plan, Command.dated, purgePlan, h.cacheFails, and_self]
  | clearMemory => cases hid

end Store

end ObjectTiers
