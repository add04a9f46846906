/-
Calls: what a store does to its tiers, at one key.

A call is an operation of one tier at a key. In tiers with places for the key, it changes what
stands under the key, in a way that depends on nothing else, and nothing that stands elsewhere; so
does a list of calls (`Call.get?_onMemory_foldl`, `Call.held?_onCache_foldl`,
`Call.view_onTable_foldl`).
-/
import ObjectTiers.Proofs.Tier.Places
import ObjectTiers.Proofs.Tier.Table
import ObjectTiers.Store.Action

namespace ObjectTiers

/-- An operation of one of the tiers at a key that is given apart. -/
inductive Call
  | memoryGet (k : Kind)
  | memoryInsert (x : Item)
  | memoryErase
  | cacheGet
  | cacheSet (bytes : Bytes) (ttl : Nat)
  | cacheDelete
  | tableFind
  | tableInsert (p : Payload) (now : Int64)

/-- The row of a key with a payload. -/
def Key.row (key : Key) (p : Payload) (now : Int64) : Row :=
  ⟨key.objectRef, key.version, p.bytes, p.keyId, now⟩

namespace Call

variable {key : Key} {keys : Finset String} {m : Memory} {c : Cache} {t : Table} {call : Call}
  {calls : List Call} {j : String} {r : String} {v : UInt16}

/-- The memory after a call. -/
def onMemory (key : Key) (m : Memory) : Call → Memory
  | .memoryGet k => (m.getItem k key.text).2.1
  | .memoryInsert x => m.insert key.text (.item x)
  | .memoryErase => m.erase key.text
  | _ => m

/-- The cache after a call. -/
def onCache (key : Key) (c : Cache) : Call → Cache
  | .cacheGet => (c.get key.text).2
  | .cacheSet bytes ttl => (c.set key.text bytes ttl).2
  | .cacheDelete => (c.delete key.text).2
  | _ => c

/-- The table after a call. -/
def onTable (key : Key) (t : Table) : Call → Table
  | .tableFind => (t.find key.objectRef key.version).2.1
  | .tableInsert p now => (t.insert (key.row p now)).2
  | _ => t

/-- The call as of another time. -/
def dated (call : Call) (n : Int64) : Call :=
  match call with
  | .tableInsert p _ => .tableInsert p n
  | call => call

theorem count_foldl {α : Type} {f : α → Call → α} {p : Call → Prop} [DecidablePred p]
    (count : α → Option Nat)
    (h : ∀ a call, count (f a call) = (count a).map (· + if p call then 1 else 0)) (a : α)
    (calls : List Call) : count (calls.foldl f a) = (count a).map (· + calls.countP (p ·)) := by
  induction calls generalizing a with
  | nil => exact Option.map_id'.symm
  | cons call calls ih =>
    rw [List.foldl_cons, ih, h, Option.map_map, List.countP_cons]
    congr 1
    funext n
    simp only [Function.comp, decide_eq_true_eq]
    omega

/-! ### The memory -/

/-- What stands under the key after a call, by what stood there. -/
def cell (o : Option Cell) : Call → Option Cell
  | .memoryGet k => o.filter (·.type == .item k)
  | .memoryInsert x => some (.item x)
  | .memoryErase => none
  | _ => o

theorem get?_onMemory (hroom : ∀ x, call = .memoryInsert x → m.HasRoom key.text) (j : String) :
    (call.onMemory key m).cells.get? j =
      if j = key.text then call.cell (m.cells.get? j) else m.cells.get? j := by
  cases call with
  | memoryGet k =>
    rw [onMemory, (m.cells_getItem_eq k key.text).1, m.get?_sifted]
    split
    · next hj => rw [hj]; rfl
    · rfl
  | memoryInsert x =>
    rw [onMemory, Memory.cells_insert (hroom x rfl)]
    split
    · next hj => rw [hj, Dictionary.get?_insert_self]; rfl
    · next hj => exact Dictionary.get?_insert_of_ne _ _ hj
  | memoryErase =>
    rw [onMemory, Memory.erase]
    split
    · next hj => rw [hj, Dictionary.get?_erase_self]; rfl
    · next hj => exact Dictionary.get?_erase_of_ne _ hj
  | cacheGet | cacheSet | cacheDelete | tableFind | tableInsert => exact (ite_self _).symm

theorem hasPlaces_onMemory (h : m.HasPlaces keys) (hkey : key.text ∈ keys) (call : Call) :
    (call.onMemory key m).HasPlaces keys := by
  cases call with
  | memoryGet k => exact h.getItem k key.text
  | memoryInsert x => exact h.insert hkey _
  | memoryErase => exact h.erase key.text
  | cacheGet | cacheSet | cacheDelete | tableFind | tableInsert => exact h

theorem hasPlaces_onMemory_foldl (h : m.HasPlaces keys) (hkey : key.text ∈ keys)
    (calls : List Call) : (calls.foldl (onMemory key) m).HasPlaces keys :=
  List.foldlRecOn (motive := (Memory.HasPlaces · keys)) calls (onMemory key) h
    fun _ h call _ => hasPlaces_onMemory h hkey call

/-- Calls change what stands under their key, and nothing else. A place is needed only for what is
put there. -/
theorem get?_onMemory_foldl (h : ∀ x, .memoryInsert x ∈ calls → m.HasPlaces keys)
    (hkey : key.text ∈ keys) (j : String) : (calls.foldl (onMemory key) m).cells.get? j =
      if j = key.text then calls.foldl cell (m.cells.get? j) else m.cells.get? j := by
  induction calls generalizing m with
  | nil => exact (ite_self _).symm
  | cons call calls ih =>
    have hroom (x : Item) (hx : call = .memoryInsert x) : m.HasRoom key.text :=
      (h x (hx ▸ List.mem_cons_self)).hasRoom hkey
    have hrest (x : Item) (hx : .memoryInsert x ∈ calls) : (call.onMemory key m).HasPlaces keys :=
      hasPlaces_onMemory (h x (List.mem_cons_of_mem call hx)) hkey call
    rw [List.foldl_cons, ih hrest, get?_onMemory hroom]
    split <;> rfl

/-! ### The cache -/

/-- The entry under the key after a call, by the entry that stood there. -/
def entry (fails : CacheOperation → Bool) (ending : Nat → Option Nat)
    (o : Option (Bytes × Option Nat)) : Call → Option (Bytes × Option Nat)
  | .cacheSet bytes ttl => if fails .set then o else some (bytes, ending ttl)
  | .cacheDelete => if fails .delete then o else none
  | _ => o

/-- The bytes under the key after a call, by those that stood there. -/
def bytes (fails : CacheOperation → Bool) (o : Option Bytes) : Call → Option Bytes
  | .cacheSet bytes _ => if fails .set then o else some bytes
  | .cacheDelete => if fails .delete then o else none
  | _ => o

/-- The operation of a cache that a call is. -/
def cacheOperation? : Call → Option CacheOperation
  | .cacheGet => some .get
  | .cacheSet _ _ => some .set
  | .cacheDelete => some .delete
  | _ => none

@[simp] theorem fails_onCache (c : Cache) (call : Call) :
    (call.onCache key c).fails = c.fails := by
  cases call <;> simp [onCache]

@[simp] theorem ending_onCache (c : Cache) (call : Call) :
    (call.onCache key c).ending = c.ending := by
  cases call <;> simp [onCache]

theorem held?_onCache (hroom : ∀ b ttl, call = .cacheSet b ttl → c.HasRoom key.text)
    (j : String) : (call.onCache key c).held? j =
      if j = key.text then call.entry c.fails c.ending (c.held? j) else c.held? j := by
  cases call with
  | cacheGet =>
    rw [onCache, Cache.held?_get]
    exact (ite_self _).symm
  | cacheSet bytes ttl =>
    rw [onCache, Cache.held?_set (hroom bytes ttl rfl)]
    split
    · next hj => rw [hj]; rfl
    · rfl
  | cacheDelete =>
    rw [onCache, Cache.held?_delete]
    split
    · next hj => rw [hj]; rfl
    · rfl
  | memoryGet | memoryInsert | memoryErase | tableFind | tableInsert => exact (ite_self _).symm

theorem count?_onCache (c : Cache) (call : Call) (op : CacheOperation) :
    (call.onCache key c).count? op =
      (c.count? op).map (· + if call.cacheOperation? = some op then 1 else 0) := by
  cases call with
  | cacheGet => rw [onCache, Cache.count?_get]; cases op <;> rfl
  | cacheSet bytes ttl => rw [onCache, Cache.count?_set]; cases op <;> rfl
  | cacheDelete => rw [onCache, Cache.count?_delete]; cases op <;> rfl
  | memoryGet | memoryInsert | memoryErase | tableFind | tableInsert => exact Option.map_id'.symm

theorem hasPlaces_onCache (h : c.HasPlaces keys) (hkey : key.text ∈ keys) (call : Call) :
    (call.onCache key c).HasPlaces keys := by
  cases call with
  | cacheGet => exact h.get key.text
  | cacheSet bytes ttl => exact h.set hkey bytes ttl
  | cacheDelete => exact h.delete key.text
  | memoryGet | memoryInsert | memoryErase | tableFind | tableInsert => exact h

theorem hasPlaces_onCache_foldl (h : c.HasPlaces keys) (hkey : key.text ∈ keys)
    (calls : List Call) : (calls.foldl (onCache key) c).HasPlaces keys :=
  List.foldlRecOn (motive := (Cache.HasPlaces · keys)) calls (onCache key) h
    fun _ h call _ => hasPlaces_onCache h hkey call

@[simp] theorem fails_onCache_foldl (c : Cache) (calls : List Call) :
    (calls.foldl (onCache key) c).fails = c.fails :=
  List.foldlRecOn (motive := fun c' => c'.fails = c.fails) calls (onCache key) rfl
    fun _ h call _ => (fails_onCache _ call).trans h

@[simp] theorem ending_onCache_foldl (c : Cache) (calls : List Call) :
    (calls.foldl (onCache key) c).ending = c.ending :=
  List.foldlRecOn (motive := fun c' => c'.ending = c.ending) calls (onCache key) rfl
    fun _ h call _ => (ending_onCache _ call).trans h

theorem held?_onCache_foldl (h : ∀ b ttl, .cacheSet b ttl ∈ calls → c.HasPlaces keys)
    (hkey : key.text ∈ keys) (j : String) : (calls.foldl (onCache key) c).held? j =
      if j = key.text then calls.foldl (entry c.fails c.ending) (c.held? j) else c.held? j := by
  induction calls generalizing c with
  | nil => exact (ite_self _).symm
  | cons call calls ih =>
    have hroom (b : Bytes) (ttl : Nat) (hset : call = .cacheSet b ttl) : c.HasRoom key.text :=
      (h b ttl (hset ▸ List.mem_cons_self)).hasRoom hkey
    have hrest (b : Bytes) (ttl : Nat) (hset : .cacheSet b ttl ∈ calls) :
        (call.onCache key c).HasPlaces keys :=
      hasPlaces_onCache (h b ttl (List.mem_cons_of_mem call hset)) hkey call
    rw [List.foldl_cons, ih hrest, held?_onCache hroom, fails_onCache, ending_onCache]
    split <;> rfl

/-- The bytes of an entry change without regard to its time. -/
theorem peek_onCache_foldl (h : ∀ b ttl, .cacheSet b ttl ∈ calls → c.HasPlaces keys)
    (hkey : key.text ∈ keys) (j : String) : (calls.foldl (onCache key) c).peek j =
      if j = key.text then calls.foldl (bytes c.fails) (c.peek j) else c.peek j := by
  have hbytes (o : Option (Bytes × Option Nat)) (call : Call) :
      bytes c.fails (o.map (·.1)) call = (entry c.fails c.ending o call).map (·.1) := by
    cases call with
    | cacheSet b ttl =>
      simp only [bytes, entry]
      split <;> rfl
    | cacheDelete =>
      simp only [bytes, entry]
      split <;> rfl
    | _ => rfl
  simp only [Cache.peek_eq_held?, held?_onCache_foldl h hkey]
  split
  · exact (List.foldl_hom (Option.map (Prod.fst (α := Bytes))) hbytes).symm
  · rfl

theorem count?_onCache_foldl (c : Cache) (calls : List Call) (op : CacheOperation) :
    (calls.foldl (onCache key) c).count? op =
      (c.count? op).map (· + calls.countP (·.cacheOperation? = some op)) :=
  count_foldl (fun c => c.count? op) (fun c call => count?_onCache c call op) c calls

/-! ### The table -/

/-- The answer for the key after a call, its time left out, by the answer before. -/
def view (takes : Row → Bool) (key : Key) (o : Except TableError (Option Row)) :
    Call → Except TableError (Option Row)
  | .tableInsert p _ => if takes (key.row p 0) then .ok (some (key.row p 0)) else o
  | _ => o

/-- The operation of a table that a call is. -/
def tableOperation? : Call → Option Table.Operation
  | .tableFind => some .find
  | .tableInsert _ _ => some .insert
  | _ => none

theorem insert_onTable_fst (t : Table) (call : Call) (row : Row) :
    ((call.onTable key t).insert row).1 = (t.insert row).1 := by
  cases call with
  | tableFind => exact t.insert_find_fst _ _ row
  | tableInsert p now => exact t.insert_insert_fst row _
  | memoryGet | memoryInsert | memoryErase | cacheGet | cacheSet | cacheDelete => rfl

@[simp] theorem fails_onTable (t : Table) (call : Call) :
    (call.onTable key t).fails = t.fails := by
  cases call <;> simp [onTable]

theorem peek_onTable_of_ne (call : Call) (h : ¬ (r = key.objectRef ∧ v = key.version)) :
    (call.onTable key t).peek r v = t.peek r v := by
  cases call with
  | tableFind => rw [onTable, Table.peek_find]
  | tableInsert p now =>
    rw [onTable, Table.peek_insert]
    exact if_neg fun hid => h hid.1
  | memoryGet | memoryInsert | memoryErase | cacheGet | cacheSet | cacheDelete => rfl

theorem view_onTable (t : Table) (call : Call) : (call.onTable key t).view key.objectRef
    key.version = call.view (fun row => (t.insert row).1.isOk) key
      (t.view key.objectRef key.version) := by
  cases call with
  | tableFind => rw [onTable, Table.view_find]; rfl
  | tableInsert p now =>
    rw [onTable, Table.view_insert, ← t.insert_dated_fst (key.row p now) 0]
    by_cases htakes : (t.insert ((key.row p now).dated 0)).1.isOk = true
    · rw [if_pos ⟨⟨rfl, rfl⟩, htakes⟩]
      exact (if_pos htakes).symm
    · rw [if_neg fun h => htakes h.2]
      exact (if_neg htakes).symm
  | memoryGet | memoryInsert | memoryErase | cacheGet | cacheSet | cacheDelete => rfl

theorem count?_onTable (t : Table) (call : Call) (op : Table.Operation) :
    (call.onTable key t).count? op =
      (t.count? op).map (· + if call.tableOperation? = some op then 1 else 0) := by
  cases call with
  | tableFind => rw [onTable, Table.count?_find]; cases op <;> rfl
  | tableInsert p now => rw [onTable, Table.count?_insert]; cases op <;> rfl
  | memoryGet | memoryInsert | memoryErase | cacheGet | cacheSet | cacheDelete =>
    exact Option.map_id'.symm

theorem insert_onTable_foldl_fst (t : Table) (calls : List Call) (row : Row) :
    ((calls.foldl (onTable key) t).insert row).1 = (t.insert row).1 :=
  List.foldlRecOn (motive := fun t' => (t'.insert row).1 = (t.insert row).1) calls (onTable key) rfl
    fun _ h call _ => (insert_onTable_fst _ call row).trans h

@[simp] theorem fails_onTable_foldl (t : Table) (calls : List Call) :
    (calls.foldl (onTable key) t).fails = t.fails :=
  List.foldlRecOn (motive := fun t' => t'.fails = t.fails) calls (onTable key) rfl
    fun _ h call _ => (fails_onTable _ call).trans h

theorem peek_onTable_foldl_of_ne (calls : List Call)
    (h : ¬ (r = key.objectRef ∧ v = key.version)) :
    (calls.foldl (onTable key) t).peek r v = t.peek r v :=
  List.foldlRecOn (motive := fun t' => t'.peek r v = t.peek r v) calls (onTable key) rfl
    fun _ hpeek call _ => (peek_onTable_of_ne call h).trans hpeek

theorem view_onTable_foldl (t : Table) (calls : List Call) :
    (calls.foldl (onTable key) t).view key.objectRef key.version =
      calls.foldl (view (fun row => (t.insert row).1.isOk) key)
        (t.view key.objectRef key.version) := by
  induction calls generalizing t with
  | nil => rfl
  | cons call calls ih =>
    rw [List.foldl_cons, ih, view_onTable]
    simp only [insert_onTable_fst, List.foldl_cons]

/-- Tables that take the same of the rows that are written answer the same afterwards. -/
theorem foldl_view_congr {takes takes' : Row → Bool}
    (h : ∀ p now, .tableInsert p now ∈ calls → takes' (key.row p 0) = takes (key.row p 0))
    (o : Except TableError (Option Row)) :
    calls.foldl (view takes' key) o = calls.foldl (view takes key) o := by
  refine List.foldl_ext _ _ o fun o call hcall => ?_
  cases call with
  | tableInsert p now => rw [view, view, h p now hcall]
  | _ => rfl

theorem count?_onTable_foldl (t : Table) (calls : List Call) (op : Table.Operation) :
    (calls.foldl (onTable key) t).count? op =
      (t.count? op).map (· + calls.countP (·.tableOperation? = some op)) :=
  count_foldl (fun t => t.count? op) (fun t call => count?_onTable t call op) t calls

/-! ### Times -/

section

variable {calls calls' : List Call} (h : calls'.map (·.dated 0) = calls.map (·.dated 0))

include h

/-- Calls that differ in nothing but their times come to the same, if single calls do. -/
theorem foldl_of_dated {α : Type} {f : α → Call → α} (hf : ∀ a call, f a (call.dated 0) = f a call)
    (a : α) : calls'.foldl f a = calls.foldl f a := by
  have hmap (calls : List Call) : (calls.map (·.dated 0)).foldl f a = calls.foldl f a := by
    simp only [List.foldl_map, hf]
  rw [← hmap calls', h, hmap]

theorem countP_of_dated {p : Call → Bool} (hp : ∀ call, p (call.dated 0) = p call) :
    calls'.countP p = calls.countP p := by
  have hmap (calls : List Call) : (calls.map (·.dated 0)).countP p = calls.countP p := by
    rw [List.countP_map]
    exact List.countP_congr fun call _ => by rw [Function.comp_apply, hp]
  rw [← hmap calls', h, hmap]

theorem foldl_cell_of_dated (o : Option Cell) : calls'.foldl cell o = calls.foldl cell o :=
  foldl_of_dated h (fun _ call => by cases call <;> rfl) o

theorem foldl_entry_of_dated (fails : CacheOperation → Bool) (ending : Nat → Option Nat)
    (o : Option (Bytes × Option Nat)) :
    calls'.foldl (entry fails ending) o = calls.foldl (entry fails ending) o :=
  foldl_of_dated h (fun _ call => by cases call <;> rfl) o

theorem foldl_bytes_of_dated (fails : CacheOperation → Bool) (o : Option Bytes) :
    calls'.foldl (bytes fails) o = calls.foldl (bytes fails) o :=
  foldl_of_dated h (fun _ call => by cases call <;> rfl) o

theorem foldl_view_of_dated (takes : Row → Bool) (key : Key)
    (o : Except TableError (Option Row)) :
    calls'.foldl (view takes key) o = calls.foldl (view takes key) o :=
  foldl_of_dated h (fun _ call => by cases call <;> rfl) o

theorem countP_cacheOperation_of_dated (op : CacheOperation) :
    calls'.countP (·.cacheOperation? = some op) = calls.countP (·.cacheOperation? = some op) :=
  countP_of_dated h fun call => by cases call <;> rfl

theorem countP_tableOperation_of_dated (op : Table.Operation) :
    calls'.countP (·.tableOperation? = some op) = calls.countP (·.tableOperation? = some op) :=
  countP_of_dated h fun call => by cases call <;> rfl

end

end Call

end ObjectTiers
