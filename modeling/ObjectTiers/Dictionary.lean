/-
Dictionaries as association lists with each key once. `get?` is the view: a look-up after an
insertion or a removal is the new value at that key and the old one at every other.
-/

namespace ObjectTiers

/-- Pairs of a key and a value, the key that was set last in front. -/
structure Dictionary (κ : Type) (α : Type) where
  pairs : List (κ × α)
  deriving Repr

namespace Dictionary

variable {κ α : Type} [DecidableEq κ]

/-- No pairs. -/
def empty : Dictionary κ α := ⟨[]⟩

/-- The value of a key: the view of a dictionary. -/
def get? (d : Dictionary κ α) (k : κ) : Option α := d.pairs.lookup k

/-- Whether a key has a value. -/
def contains (d : Dictionary κ α) (k : κ) : Bool := (d.get? k).isSome

/-- The dictionary without a key. -/
def erase (d : Dictionary κ α) (k : κ) : Dictionary κ α := ⟨d.pairs.filter fun p => p.1 != k⟩

/-- The dictionary with a key set to a value. -/
def insert (d : Dictionary κ α) (k : κ) (v : α) : Dictionary κ α := ⟨(k, v) :: (d.erase k).pairs⟩

/-- The number of pairs, and so of keys. -/
def size (d : Dictionary κ α) : Nat := d.pairs.length

/-- The keys, the one that was set last in front. -/
def keys (d : Dictionary κ α) : List κ := d.pairs.map (·.1)

@[simp] theorem get?_empty (k : κ) : (empty : Dictionary κ α).get? k = none := rfl

@[simp] theorem get?_erase_self (d : Dictionary κ α) (k : κ) : (d.erase k).get? k = none := by
  simp only [get?, erase]
  induction d.pairs with
  | nil => rfl
  | cons p r ih =>
    rw [List.filter_cons]
    by_cases h : p.1 = k
    · simpa [h] using ih
    · have hk : (k == p.1) = false := by simpa using fun e => h e.symm
      rw [if_pos (by simpa using h), List.lookup_cons, hk]
      exact ih

theorem get?_erase_of_ne (d : Dictionary κ α) {k j : κ} (h : j ≠ k) :
    (d.erase k).get? j = d.get? j := by
  simp only [get?, erase]
  induction d.pairs with
  | nil => rfl
  | cons p r ih =>
    rw [List.filter_cons]
    by_cases hp : p.1 = k
    · have hj : (j == p.1) = false := by simpa [hp] using h
      rw [if_neg (by simpa using hp), List.lookup_cons, hj]
      exact ih
    · rw [if_pos (by simpa using hp), List.lookup_cons, List.lookup_cons, ih]

@[simp] theorem get?_insert_self (d : Dictionary κ α) (k : κ) (v : α) :
    (d.insert k v).get? k = some v := by
  simp [get?, insert]

theorem get?_insert_of_ne (d : Dictionary κ α) {k j : κ} (v : α) (h : j ≠ k) :
    (d.insert k v).get? j = d.get? j := by
  have hj : (j == k) = false := by simpa using h
  rw [← get?_erase_of_ne d h]
  simp only [get?, insert, List.lookup_cons, hj]

theorem contains_iff_mem_keys (d : Dictionary κ α) (k : κ) : d.contains k = true ↔ k ∈ d.keys := by
  simp only [contains, get?, keys, List.lookup_isSome_iff, beq_iff_eq, List.mem_map]
  exact exists_congr fun p => and_congr_right fun _ => eq_comm

theorem nodup_keys_erase {d : Dictionary κ α} (h : d.keys.Nodup) (k : κ) :
    (d.erase k).keys.Nodup :=
  h.sublist (List.filter_sublist.map _)

theorem nodup_keys_insert {d : Dictionary κ α} (h : d.keys.Nodup) (k : κ) (v : α) :
    (d.insert k v).keys.Nodup := by
  refine List.nodup_cons.mpr ⟨fun hmem => ?_, nodup_keys_erase h k⟩
  rw [← keys, ← contains_iff_mem_keys, contains, get?_erase_self] at hmem
  cases hmem

theorem get?_of_mem {d : Dictionary κ α} (h : d.keys.Nodup) {k : κ} {v : α}
    (hmem : (k, v) ∈ d.pairs) : d.get? k = some v := by
  obtain ⟨before, after, hsplit⟩ := List.mem_iff_append.mp hmem
  refine List.lookup_eq_some_iff.mpr ⟨before, after, hsplit, fun p hp => ?_⟩
  rw [keys, hsplit, List.map_append, List.map_cons] at h
  have hne := (List.nodup_append.mp h).2.2 p.1 (List.mem_map_of_mem hp) k (List.mem_cons_self ..)
  simpa using Ne.symm hne

end Dictionary

end ObjectTiers
