/-
Actions on the three tiers: a result or an error, and in either case the tiers and the warnings
afterwards. An error ends an action but takes nothing back.
-/
import ObjectTiers.Policy
import ObjectTiers.Store.Error
import ObjectTiers.Tier.Memory

namespace ObjectTiers

/-- The three tiers of a store, the nearest first. -/
structure Tiers where
  memory : Memory
  cache : Cache
  table : Table

/-- The tiers as the next action finds them. -/
def Tiers.settle (t : Tiers) : Tiers :=
  { t with memory := t.memory.settle, cache := t.cache.settle }

/-- The tiers, and the warnings given so far, the latest last. -/
structure Session where
  tiers : Tiers
  warnings : List Warning

/-- What is done to a session: a result or an error, and the session afterwards. -/
def Action (α : Type) : Type := Session → Except StoreError α × Session

namespace Action

variable {α β : Type}

/-- Does nothing and has the result `a`. -/
protected def pure (a : α) : Action α := fun s => (.ok a, s)

/-- Goes on with the result of `x`, and stops at its error. -/
protected def bind (x : Action α) (f : α → Action β) : Action β := fun s =>
  match x s with
  | (.ok a, s) => f a s
  | (.error e, s) => (.error e, s)

instance : Monad Action where
  pure := Action.pure
  bind := Action.bind

/-- Ends with an error. -/
def fail (e : StoreError) : Action α := fun s => (.error e, s)

/-- A result that is there already, its error made one of the store. -/
def lift {ε : Type} (wrap : ε → StoreError) (r : Except ε α) : Action α := fun s =>
  match r with
  | .ok a => (.ok a, s)
  | .error e => (.error (wrap e), s)

/-- Gives warnings and goes on. -/
def warn (ws : List Warning) : Action Unit := fun s =>
  (.ok (), { s with warnings := s.warnings ++ ws })

/-! ### The tiers -/

/-- Looks an item of a kind up in the memory. -/
def memoryGet (k : Kind) (key : String) : Action (Option Item) := fun s =>
  let (x, memory, ws) := s.tiers.memory.getItem k key
  (.ok x, ⟨{ s.tiers with memory }, s.warnings ++ ws⟩)

/-- A change of the memory. -/
def onMemory (f : Memory → Memory) : Action Unit := fun s =>
  (.ok (), { s with tiers := { s.tiers with memory := f s.tiers.memory } })

/-- Puts an item into the memory. -/
def memoryInsert (key : String) (x : Item) : Action Unit := onMemory (·.insert key (.item x))

/-- An operation of the cache; its failure is a value here. -/
def onCache (f : Cache → Except CacheError α × Cache) : Action (Except CacheError α) := fun s =>
  let (r, cache) := f s.tiers.cache
  (.ok r, { s with tiers := { s.tiers with cache } })

/-- Looks a row up in the table. -/
def tableFind (r : String) (v : UInt16) : Action (Option Row) := fun s =>
  let (result, table, ws) := s.tiers.table.find r v
  let s : Session := ⟨{ s.tiers with table }, s.warnings ++ ws⟩
  match result with
  | .ok row => (.ok row, s)
  | .error e => (.error (.table e), s)

/-- Offers a row to the table. -/
def tableInsert (row : Row) : Action Unit := fun s =>
  let (result, table) := s.tiers.table.insert row
  let s := { s with tiers := { s.tiers with table } }
  match result with
  | .ok () => (.ok (), s)
  | .error e => (.error (.table e), s)

/-- Goes on after a failure of the cache, if the policy lets it. -/
def tolerate (p : Policy) (e : CacheError) : Action Unit :=
  match p.handle e with
  | .ok ws => warn ws
  | .error e => fail (.cache e)

end Action

end ObjectTiers
