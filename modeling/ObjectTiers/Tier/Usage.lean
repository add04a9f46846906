/-
How the keys of a tier are used, which decides what has a place in a full one. A new key gets the
place of the key that was not used for the longest time if it was asked for more often, and is
refused otherwise. Asking for a key that is not there counts as well, and a key keeps its count
when it leaves the tier.

Counting starts when the tier is first found half full between two operations. A key that is
there already, or for which there is room, is always taken (`placement_of_holds`,
`placement_of_lt`).
-/
import ObjectTiers.Dictionary

namespace ObjectTiers

/-- How often each key was asked for, the key used last first. -/
structure Usage where
  counting : Bool
  counts : Dictionary String Nat

/-- What becomes of a key that is written. -/
inductive Placement
  | added
  | replaces (old : String)
  | refused
  deriving DecidableEq, Repr

/-- A dictionary after a key was written with this outcome. -/
def Placement.insert {α : Type} (p : Placement) (d : Dictionary String α) (key : String) (a : α) :
    Dictionary String α :=
  match p with
  | .added => d.insert key a
  | .replaces old => (d.erase old).insert key a
  | .refused => d

namespace Usage

/-- No key was asked for yet. -/
def empty : Usage := ⟨false, .empty⟩

/-- A key asked for more often counts no more than one asked for this often. -/
def maxCount : Nat := 15

/-- How often a key was asked for, as far as it was counted. -/
def count (u : Usage) (key : String) : Nat := (u.counts.get? key).getD 0

/-- The usage once a key was asked for. -/
def read (u : Usage) (key : String) : Usage :=
  let n := if u.counting then min (u.count key + 1) maxCount else u.count key
  { u with counts := u.counts.insert key n }

/-- The usage once a key was written. -/
def write (u : Usage) (key : String) : Usage :=
  { u with counts := u.counts.insert key (u.count key) }

/-- The usage in a tier found with `size` keys between two operations. -/
def settle (u : Usage) (capacity size : Nat) : Usage :=
  { u with counting := u.counting || decide (capacity / 2 ≤ size) }

/-- Of the keys in a tier, the one not used for the longest time. -/
def oldest? (u : Usage) (holds : String → Bool) : Option String :=
  u.counts.keys.reverse.find? holds

/-- What becomes of a key that is written into a tier with `size` keys. -/
def placement (u : Usage) (capacity size : Nat) (holds : String → Bool) (key : String) :
    Placement :=
  if holds key ∨ size < capacity then .added
  else match u.oldest? holds with
    | some old => if u.count old < u.count key then .replaces old else .refused
    | none => .refused

theorem placement_of_holds {u : Usage} {capacity size : Nat} {holds : String → Bool} {key : String}
    (h : holds key = true) : u.placement capacity size holds key = .added :=
  if_pos (.inl h)

theorem placement_of_lt {u : Usage} {capacity size : Nat} {holds : String → Bool} {key : String}
    (h : size < capacity) : u.placement capacity size holds key = .added :=
  if_pos (.inr h)

end Usage

end ObjectTiers
