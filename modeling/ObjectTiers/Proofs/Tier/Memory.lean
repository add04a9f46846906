/-
What stands in the memory after an operation.

Of a memory that may be full one only knows that a write adds nothing but what was written:
whatever stands somewhere afterwards was put there or stood there before (`get?_insert`). With room
for one more key the write is kept and no other key goes (`cells_insert`).
-/
import ObjectTiers.Tier.Memory

namespace ObjectTiers

theorem Placement.get?_insert {α : Type} (p : Placement) {d : Dictionary String α} {key j : String}
    {a b : α} (h : (p.insert d key a).get? j = some b) :
    (j = key ∧ b = a) ∨ d.get? j = some b := by
  have hinsert {d : Dictionary String α} (h : (d.insert key a).get? j = some b) :
      (j = key ∧ b = a) ∨ (j ≠ key ∧ d.get? j = some b) := by
    by_cases hj : j = key
    · subst hj
      rw [Dictionary.get?_insert_self] at h
      exact .inl ⟨rfl, (Option.some.inj h).symm⟩
    · rw [Dictionary.get?_insert_of_ne _ _ hj] at h
      exact .inr ⟨hj, h⟩
  cases p with
  | added => exact (hinsert h).imp_right And.right
  | refused => exact .inr h
  | replaces old =>
    rcases hinsert h with h | ⟨-, h⟩
    · exact .inl h
    · by_cases hold : j = old
      · rw [hold, Dictionary.get?_erase_self] at h
        cases h
      · rw [Dictionary.get?_erase_of_ne _ hold] at h
        exact .inr h

theorem Usage.placement_eq_added_iff {u : Usage} {capacity size : Nat} {holds : String → Bool}
    {key : String} :
    u.placement capacity size holds key = .added ↔ holds key = true ∨ size < capacity := by
  constructor
  · intro h
    refine Classical.byContradiction fun hfull => ?_
    rw [placement, if_neg hfull] at h
    split at h
    · split at h <;> cases h
    · cases h
  · rintro (h | h)
    · exact placement_of_holds h
    · exact placement_of_lt h

theorem Usage.holds_of_replaces {u : Usage} {capacity size : Nat} {holds : String → Bool}
    {key old : String} (h : u.placement capacity size holds key = .replaces old) :
    holds old = true := by
  unfold placement at h
  split at h
  · cases h
  split at h
  · next hold =>
    split at h
    · cases h
      exact List.find?_some hold
    · cases h
  · cases h

namespace Memory

section

variable {V : Type} {m m' : Memory V} {key j : String} {c d : V}

theorem get?_insert (h : (m.insert key c).cells.get? j = some d) :
    (j = key ∧ d = c) ∨ m.cells.get? j = some d :=
  Placement.get?_insert _ h

theorem get?_erase (h : (m.erase key).cells.get? j = some d) :
    j ≠ key ∧ m.cells.get? j = some d := by
  by_cases hj : j = key
  · rw [hj, erase, Dictionary.get?_erase_self] at h
    cases h
  · rw [erase, Dictionary.get?_erase_of_ne _ hj] at h
    exact ⟨hj, h⟩

theorem contains_of_get? (h : m.cells.get? key = some c) : m.contains key = true := by
  rw [contains, Dictionary.contains, h]
  rfl

theorem contains_of_none (h : m.cells.get? key = none) : m.contains key = false := by
  rw [contains, Dictionary.contains, h]
  rfl

/-- Room for a key: it is there already, or the memory is not full. -/
def HasRoom (m : Memory V) (key : String) : Prop := m.contains key = true ∨ m.size < m.capacity

theorem HasRoom.congr (h : m.HasRoom key) (hcells : m'.cells = m.cells)
    (hcapacity : m'.capacity = m.capacity) : m'.HasRoom key := by
  unfold HasRoom contains size at h ⊢
  rwa [hcells, hcapacity]

theorem cells_insert (h : m.HasRoom key) (c : V) :
    (m.insert key c).cells = m.cells.insert key c := by
  have hadded : m.usage.placement m.capacity m.size m.contains key = .added :=
    Usage.placement_eq_added_iff.mpr h
  simp only [insert, hadded, Placement.insert]

/-- A new key is put beside everything else if the memory is not full. If it is full, the key takes
the place of another that is there, or is refused. -/
theorem cells_insert_of_none (h : m.cells.get? key = none) (c : V) : ∃ p : Placement,
    (m.insert key c).cells = p.insert m.cells key c ∧ (p = .added ↔ m.size < m.capacity) ∧
      ∀ old, p = .replaces old → m.contains old = true := by
  refine ⟨_, rfl, ?_, fun old => Usage.holds_of_replaces⟩
  rw [Usage.placement_eq_added_iff, contains_of_none h]
  simp

theorem contains_eq_false_iff (m : Memory V) (key : String) :
    m.contains key = false ↔ m.cells.get? key = none := by
  simp [contains, Dictionary.contains]

variable {τ : Type} [Typed V τ] [DecidableEq τ]

theorem get_fst (m : Memory V) (t : τ) (key : String) :
    (m.get t key).1 = (m.cells.get? key).filter (Typed.type · == t) := by
  unfold get
  cases hc : m.cells.get? key with
  | none => simp [hc]
  | some c => by_cases ht : Typed.type c = t <;> simp [hc, ht, Option.filter]

/-- Of the value under the key a look-up leaves one of the type, and it leaves everything else. -/
theorem get?_get (m : Memory V) (t : τ) (key j : String) : (m.get t key).2.1.cells.get? j =
    if j = key then (m.cells.get? key).filter (Typed.type · == t) else m.cells.get? j := by
  unfold get
  by_cases hj : j = key
  · subst hj
    cases hc : m.cells.get? j with
    | none => simp [hc]
    | some c => by_cases ht : Typed.type c = t <;> simp [hc, ht, erase, Option.filter]
  · cases hc : m.cells.get? key with
    | none => simp [hc, hj]
    | some c =>
      by_cases ht : Typed.type c = t <;> simp [hc, ht, hj, erase, Dictionary.get?_erase_of_ne]

theorem capacity_get (m : Memory V) (t : τ) (key : String) :
    (m.get t key).2.1.capacity = m.capacity := by
  unfold get
  dsimp only
  split
  · rfl
  · split <;> rfl

theorem warnings_get (h : m.cells.get? key = some c) (t : τ) :
    (m.get t key).2.2 = if Typed.type c = t then [] else [.otherType] := by
  by_cases ht : Typed.type c = t <;> simp [get, h, ht]

end

/-! ### Items -/

variable {m m' : Memory} {key j : String} {c : Cell} {k : Kind} {ws : List Warning}

/-- An item of the kind under a key is found, and the memory holds what it held. -/
theorem getItem_of_get? {x : Item} (h : m.cells.get? key = some (.item x)) (hk : x.kind = k) :
    ∃ m', m.getItem k key = (some x, m', []) ∧ m'.cells = m.cells ∧ m'.capacity = m.capacity := by
  refine ⟨{ m with usage := m.usage.read key }, ?_, rfl, rfl⟩
  simp [getItem, get, h, Cell.type, hk]

theorem getItem_of_none (h : m.cells.get? key = none) (k : Kind) :
    ∃ m', m.getItem k key = (none, m', []) ∧ m'.cells = m.cells ∧ m'.capacity = m.capacity := by
  refine ⟨{ m with usage := m.usage.read key }, ?_, rfl, rfl⟩
  simp [getItem, get, h]

theorem get?_of_getItem {x : Item} (h : m.getItem k key = (some x, m', ws)) :
    m.cells.get? key = some (.item x) ∧ x.kind = k ∧ m'.cells = m.cells := by
  unfold getItem get at h
  simp only [Cell.typed_type] at h
  cases hc : m.cells.get? key with
  | none => rw [hc] at h; cases h
  | some c =>
    rw [hc] at h
    simp only at h
    by_cases ht : c.type = .item k
    · rw [if_pos ht] at h
      cases c with
      | item y =>
        cases h
        exact ⟨rfl, by simpa [Cell.type] using ht, rfl⟩
      | word n => cases ht
      | integer i => cases ht
      | text s => cases ht
      | bytes b => cases ht
    · rw [if_neg ht] at h
      cases h

/-- The cells once an item of a kind was looked for under a key: a value of another type is gone. -/
def sifted (m : Memory) (k : Kind) (key : String) : Dictionary String Cell :=
  if (m.cells.get? key).all (·.type == .item k) then m.cells else m.cells.erase key

theorem cells_getItem (h : m.getItem k key = (none, m', ws)) :
    m'.cells = m.sifted k key ∧ m'.capacity = m.capacity ∧ m'.cells.get? key = none := by
  unfold getItem get at h
  unfold sifted
  simp only [Cell.typed_type] at h
  cases hc : m.cells.get? key with
  | none =>
    rw [hc] at h
    cases h
    exact ⟨rfl, rfl, hc⟩
  | some d =>
    rw [hc] at h
    simp only at h
    by_cases ht : d.type = .item k
    · rw [if_pos ht] at h
      cases d with
      | item x => cases h
      | word n | integer i | text s | bytes b => cases ht
    · rw [if_neg ht] at h
      cases h
      simp [erase, ht]

theorem cells_getItem_eq (m : Memory) (k : Kind) (key : String) :
    (m.getItem k key).2.1.cells = m.sifted k key ∧
      (m.getItem k key).2.1.capacity = m.capacity := by
  cases hget : m.getItem k key with
  | mk found rest =>
  obtain ⟨m', ws⟩ := rest
  cases found with
  | none => exact ⟨(cells_getItem hget).1, (cells_getItem hget).2.1⟩
  | some x =>
    obtain ⟨hx, hk, hcells⟩ := get?_of_getItem hget
    obtain ⟨m'', hget', -, hcapacity⟩ := getItem_of_get? hx hk
    cases hget.symm.trans hget'
    exact ⟨by simp [hcells, sifted, hx, Cell.type, hk], hcapacity⟩

theorem get?_sifted (m : Memory) (k : Kind) (key j : String) : (m.sifted k key).get? j =
    if j = key then (m.cells.get? key).filter (·.type == .item k) else m.cells.get? j := by
  unfold sifted
  by_cases hj : j = key
  · rw [if_pos hj, hj]
    cases hc : m.cells.get? key with
    | none => simp [hc]
    | some c => by_cases ht : c.type = .item k <;> simp [hc, ht, Option.filter]
  · rw [if_neg hj]
    split
    · rfl
    · exact Dictionary.get?_erase_of_ne _ hj

theorem getItem_congr (h : m'.cells.get? key = m.cells.get? key) (k : Kind) :
    (m'.getItem k key).1 = (m.getItem k key).1 := by
  unfold getItem get
  simp only [h, Cell.typed_type]
  cases m.cells.get? key with
  | none => rfl
  | some c =>
    simp only
    by_cases ht : c.type = .item k
    · rw [if_pos ht, if_pos ht]
      cases c <;> rfl
    · rw [if_neg ht, if_neg ht]

theorem get?_getItem (m : Memory) (k : Kind) (key : String)
    (h : (m.getItem k key).2.1.cells.get? j = some c) : m.cells.get? j = some c := by
  unfold getItem get at h
  simp only [Cell.typed_type] at h
  cases hc : m.cells.get? key with
  | none => rw [hc] at h; exact h
  | some d =>
    rw [hc] at h
    simp only at h
    by_cases ht : d.type = .item k
    · rw [if_pos ht] at h
      cases d <;> exact h
    · rw [if_neg ht] at h
      exact (get?_erase h).2

end Memory

end ObjectTiers
