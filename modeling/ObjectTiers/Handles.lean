/-
Values behind handles. Several handles may share a value: what is done through one shows through
all of them, and through no handle of another value. A value has the number of its first handle.
-/

namespace ObjectTiers

/-- A function changed at one place. -/
def replaceAt {α : Type} (f : Nat → α) (i : Nat) (a : α) : Nat → α := fun j =>
  if j = i then a else f j

theorem replaceAt_self {α : Type} (f : Nat → α) (i : Nat) (a : α) : replaceAt f i a i = a :=
  if_pos rfl

theorem replaceAt_of_ne {α : Type} (f : Nat → α) {i j : Nat} (a : α) (h : j ≠ i) :
    replaceAt f i a j = f j :=
  if_neg h

/-- The value of each handle by its number, and the values. -/
structure Handles (α : Type) where
  targets : List Nat
  values : Nat → α

namespace Handles

variable {α : Type}

/-- One handle of one value. -/
def single (a : α) : Handles α := ⟨[0], fun _ => a⟩

/-- The number of handles, which is the number of the next. -/
def size (hs : Handles α) : Nat := hs.targets.length

/-- The value behind a handle. -/
def get? (hs : Handles α) (h : Nat) : Option α := hs.targets[h]?.map hs.values

/-- The value behind a handle changed. -/
def set (hs : Handles α) (h : Nat) (a : α) : Handles α :=
  match hs.targets[h]? with
  | some t => { hs with values := replaceAt hs.values t a }
  | none => hs

/-- One more handle, of the value of `h`. -/
def share (hs : Handles α) (h : Nat) : Handles α :=
  { hs with targets := hs.targets ++ hs.targets[h]?.toList }

/-- One more handle, of a value of its own. -/
def fresh (hs : Handles α) (a : α) : Handles α :=
  ⟨hs.targets ++ [hs.size], replaceAt hs.values hs.size a⟩

/-- A change shows through every handle of the value that was changed. -/
theorem get?_set_of_eq {hs : Handles α} {h k t : Nat} (a : α) (hh : hs.targets[h]? = some t)
    (hk : hs.targets[k]? = some t) : (hs.set h a).get? k = some a := by
  simp [get?, set, hh, hk, replaceAt_self]

/-- A change leaves the handles of other values alone. -/
theorem get?_set_of_ne {hs : Handles α} {h k : Nat} (a : α)
    (hk : hs.targets[k]? ≠ hs.targets[h]?) : (hs.set h a).get? k = hs.get? k := by
  unfold get? set
  split
  · rename_i t ht
    cases hu : hs.targets[k]? with
    | none => rfl
    | some u =>
      have : u ≠ t := fun e => hk (by rw [hu, ht, e])
      simp [replaceAt_of_ne _ _ this]
  · rfl

end Handles

end ObjectTiers
