/-
Several stores that may share tiers. Each store is a site with its own settings; a tier is named
by the number of the site that brought it, and sites with the same name for a tier share it.

A run of commands is a fold; what one command answers and leaves behind depends on the tiers of
its site alone.
-/
import ObjectTiers.Handles
import ObjectTiers.Store

namespace ObjectTiers

/-- A store and the numbers of the tiers it uses. -/
structure Site where
  store : Store
  memory : Nat
  cache : Nat
  table : Nat

/-- The sites, and every tier by its number. -/
structure Cluster where
  sites : List Site
  memories : Nat → Memory
  caches : Nat → Cache
  tables : Nat → Table

/-- A call of a store. The nonce and the time of a `put` come with it. -/
inductive Command
  | put (x : Item) (secret : Option Secret) (nonce : Bytes) (now : Int64)
  | fetch (k : Kind) (r : String) (v : UInt16) (o : ReadOptions)
  | get (k : Kind) (r : String) (v : UInt16) (o : ReadOptions)
  | purge (r : String) (v : UInt16)
  | clearMemory

/-- What a command answers when it succeeds; a removal and a clearing answer nothing more. -/
inductive Reply
  | row (r : Row)
  | fetched (f : Fetched)
  | item (x : Item)
  | done

/-- A command as an action on the tiers of the store. -/
def Store.perform (s : Store) : Command → Action Reply
  | .put x secret nonce now => do return .row (← s.put x secret nonce now)
  | .fetch k r v o => do return .fetched (← s.fetch k r v o)
  | .get k r v o => do return .item (← s.get k r v o)
  | .purge r v => do
    s.purge r v
    return .done
  | .clearMemory => do
    Store.clearMemory
    return .done

namespace Cluster

/-- No sites; what the tiers hold does not matter. -/
def empty : Cluster :=
  ⟨[], fun _ => .ofCapacity 0, fun _ => .trial .empty, fun _ => .memory .empty⟩

/-- The tiers of a site. -/
def tiers (c : Cluster) (site : Site) : Tiers :=
  ⟨c.memories site.memory, c.caches site.cache, c.tables site.table⟩

/-- The tiers of a site changed. -/
def withTiers (c : Cluster) (site : Site) (t : Tiers) : Cluster :=
  { c with
    memories := replaceAt c.memories site.memory t.memory
    caches := replaceAt c.caches site.cache t.cache
    tables := replaceAt c.tables site.table t.table }

/-- One more site. Each tier is either the one of a given number or new. -/
def addSite (c : Cluster) (store : Store) (memory : Nat ⊕ Memory) (cache : Nat ⊕ Cache)
    (table : Nat ⊕ Table) : Cluster :=
  let n := c.sites.length
  let index {α : Type} (x : Nat ⊕ α) : Nat := x.elim id fun _ => n
  let update {α : Type} (f : Nat → α) (x : Nat ⊕ α) : Nat → α := x.elim (fun _ => f) (replaceAt f n)
  { sites := c.sites ++ [⟨store, index memory, index cache, index table⟩]
    memories := update c.memories memory
    caches := update c.caches cache
    tables := update c.tables table }

/-- One command at a site: its result, the warnings given, and the cluster once its tiers have
settled. -/
def perform (c : Cluster) (site : Site) (cmd : Command) :
    Except StoreError Reply × List Warning × Cluster :=
  let (result, s) := site.store.perform cmd ⟨c.tiers site, []⟩
  (result, s.warnings, c.withTiers site s.tiers.settle)

/-- A run of commands, each at a site: the results in order, and the cluster afterwards. -/
def run (c : Cluster) : List (Site × Command) → List (Except StoreError Reply) × Cluster
  | [] => ([], c)
  | (site, cmd) :: rest =>
    let (result, _, c) := c.perform site cmd
    let (results, c) := c.run rest
    (result :: results, c)

end Cluster

end ObjectTiers
