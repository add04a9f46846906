/-
Tier 0: values kept in the process, each under a key and with its type. A look-up at another type
than the one that was put in removes the value, so that the next tier is asked.

A memory of capacity `n` holds no more than `n` values; which they are depends on their usage.
-/
import ObjectTiers.Item
import ObjectTiers.Tier
import ObjectTiers.Tier.Usage

namespace ObjectTiers

/-- What a memory holds under a key: an item, or a value of another type. -/
inductive Cell
  | item (x : Item)
  | word (n : UInt32)
  | integer (i : Int64)
  | text (s : String)
  | bytes (b : Bytes)

/-- The types of cells. Items of two kinds are of two types. -/
inductive CellType
  | item (k : Kind)
  | word
  | integer
  | text
  | bytes
  deriving DecidableEq, Repr

/-- The type of a cell, which a look-up must name. -/
def Cell.type : Cell → CellType
  | item x => .item x.kind
  | word _ => .word
  | integer _ => .integer
  | text _ => .text
  | bytes _ => .bytes

/-- Values of several types. -/
class Typed (V : Type) (τ : outParam Type) where
  type : V → τ

instance : Typed Cell CellType := ⟨Cell.type⟩

@[simp] theorem Cell.typed_type (c : Cell) : Typed.type c = c.type := rfl

/-- A memory keeps values of any types, and tells their types apart. A store keeps cells in it. -/
structure Memory (V : Type := Cell) where
  capacity : Nat
  cells : Dictionary String V
  usage : Usage

namespace Memory

variable {V τ : Type}

/-- The cells a memory has room for unless another number is given. -/
def defaultCapacity : Nat := 10000

/-- A new memory with room for `n` values. -/
def ofCapacity (n : Nat) : Memory V := ⟨n, .empty, .empty⟩

/-- The number of values. -/
def size (m : Memory V) : Nat := m.cells.size

/-- Whether a key has a value, of whatever type. Asking so counts for nothing. -/
def contains (m : Memory V) (key : String) : Bool := m.cells.contains key

/-- Puts a value under a key where it has a place, whatever stood there. -/
def insert (m : Memory V) (key : String) (c : V) : Memory V :=
  { m with
    cells := (m.usage.placement m.capacity m.size m.contains key).insert m.cells key c
    usage := m.usage.write key }

/-- Removes the value of a key, if there is one. -/
def erase (m : Memory V) (key : String) : Memory V := { m with cells := m.cells.erase key }

/-- Removes the value under a key, and tells whether there was one. -/
def remove (m : Memory V) (key : String) : Bool × Memory V := (m.contains key, m.erase key)

/-- Removes all values. How often their keys were asked for stays known. -/
def clear (m : Memory V) : Memory V := { m with cells := .empty }

/-- The memory as the next operation finds it. -/
def settle (m : Memory V) : Memory V := { m with usage := m.usage.settle m.capacity m.size }

/-- The value under a key if it has the type, the memory afterwards, and the warning given. -/
def get [Typed V τ] [DecidableEq τ] (m : Memory V) (t : τ) (key : String) :
    Option V × Memory V × List Warning :=
  let m := { m with usage := m.usage.read key }
  match m.cells.get? key with
  | none => (none, m, [])
  | some c => if Typed.type c = t then (some c, m, []) else (none, m.erase key, [.otherType])

/-- The item of a kind under a key. -/
def getItem (m : Memory) (k : Kind) (key : String) : Option Item × Memory × List Warning :=
  match m.get (.item k) key with
  | (some (.item x), m, ws) => (some x, m, ws)
  | (_, m, ws) => (none, m, ws)

/-- How a memory shows itself. -/
def describe (m : Memory V) : String := "RuntimeMemory \x7b entries: " ++ toString m.size ++ " \x7d"

end Memory

end ObjectTiers
