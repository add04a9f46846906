/-
What stands in the cache after an operation.

Of a cache that may be full one only knows that a write adds nothing but what was written: whatever
stands somewhere afterwards was put there or stood there before (`peek_set`). With room for one
more key the write is kept and no other key goes (`peek_set_self`, `peek_set_of_ne`). A cache that
fails at an operation changes nothing but its bookkeeping (`fresh_get`, `fresh_set_error`,
`fresh_delete_error`).

An entry is more than its bytes: it has an end as well (`held?`), which an operation leaves alone
wherever it leaves the bytes.
-/
import ObjectTiers.Tier.Cache
import ObjectTiers.Proofs.Tier.Memory

namespace ObjectTiers

theorem MemoryCache.isAlive_new (now ttl : Nat) (bytes : Bytes) :
    MemoryCache.Timed.isAlive now ⟨bytes, if ttl = 0 then none else some (now + ttl)⟩ = true := by
  unfold MemoryCache.Timed.isAlive
  by_cases h : ttl = 0
  · simp [h]
  · simp only [if_neg h, decide_eq_true_eq]
    omega

namespace Cache

variable {c c' : Cache} {key j : String} {bytes b : Bytes} {ttl : Nat}

/-- Whether the cache fails at an operation. -/
def fails : Cache → CacheOperation → Bool
  | .memory _, _ => false
  | .trial t, .get => t.failures.get
  | .trial t, .set => t.failures.set
  | .trial t, .delete => t.failures.delete

/-- How often a cache that counts was written to. -/
def setCalls : Cache → Nat
  | .memory _ => 0
  | .trial t => t.calls.set

/-- The cache with its bookkeeping begun anew: nothing was asked for yet, and no operation
called. -/
def fresh : Cache → Cache
  | .memory m => .memory { m with usage := .empty }
  | .trial t => .trial t.resetCalls

@[simp] theorem peek_fresh (c : Cache) : c.fresh.peek = c.peek := by
  cases c <;> rfl

@[simp] theorem fails_fresh (c : Cache) : c.fresh.fails = c.fails := by
  cases c <;> (funext op; cases op <;> rfl)

theorem peek_of_fresh (h : c'.fresh = c.fresh) : c'.peek = c.peek := by
  rw [← peek_fresh, h, peek_fresh]

theorem fails_of_fresh (h : c'.fresh = c.fresh) : c'.fails = c.fails := by
  rw [← fails_fresh, h, fails_fresh]

/-- Room for a key: it is there already, or the cache is not full. -/
def HasRoom (c : Cache) (key : String) : Prop :=
  match c with
  | .memory m => m.contains key = true ∨ m.size < m.capacity
  | .trial _ => True

theorem hasRoom_of_peek (h : c.peek key = some b) : c.HasRoom key := by
  cases c with
  | memory m =>
    have hget : m.get? key = some b := h
    refine .inl ?_
    rw [MemoryCache.contains, hget]
    rfl
  | trial t => trivial

@[simp] theorem peek_settle (c : Cache) : c.settle.peek = c.peek := by
  cases c <;> rfl

@[simp] theorem fails_settle (c : Cache) : c.settle.fails = c.fails := by
  cases c <;> rfl

@[simp] theorem setCalls_settle (c : Cache) : c.settle.setCalls = c.setCalls := by
  cases c <;> rfl

/-! ### Reading -/

@[simp] theorem fresh_get (c : Cache) (key : String) : (c.get key).2.fresh = c.fresh := by
  cases c with
  | memory m => rfl
  | trial t =>
    simp only [get, TrialCache.get]
    split <;> rfl

@[simp] theorem peek_get (c : Cache) (key : String) : (c.get key).2.peek = c.peek :=
  peek_of_fresh (c.fresh_get key)

@[simp] theorem fails_get (c : Cache) (key : String) : (c.get key).2.fails = c.fails :=
  fails_of_fresh (c.fresh_get key)

@[simp] theorem setCalls_get (c : Cache) (key : String) :
    (c.get key).2.setCalls = c.setCalls := by
  cases c with
  | memory m => rfl
  | trial t =>
    simp only [get, TrialCache.get]
    split <;> rfl

theorem get_ok {o : Option Bytes} (h : c.get key = (.ok o, c')) :
    o = c.peek key ∧ c'.peek = c.peek := by
  have hpeek := c.peek_get key
  rw [h] at hpeek
  refine ⟨?_, hpeek⟩
  cases c with
  | memory m => cases h; rfl
  | trial t =>
    simp only [get, TrialCache.get] at h
    split at h <;> cases h
    rfl

theorem eq_injected_of_get {e : CacheError} (h : c.get key = (.error e, c')) :
    e = TrialCache.injected .get key := by
  cases c with
  | memory m => cases h
  | trial t =>
    simp only [get, TrialCache.get] at h
    split at h <;> cases h
    rfl

theorem hasRoom_get (h : c.HasRoom j) (key : String) : (c.get key).2.HasRoom j := by
  cases c with
  | memory m => exact h
  | trial t => trivial

theorem get_eq (h : c.fails .get = false) (key : String) :
    c.get key = (.ok (c.peek key), (c.get key).2) := by
  cases c with
  | memory m => rfl
  | trial t =>
    have hflag : t.failures.get = false := h
    simp only [get, TrialCache.get, hflag]
    rfl

theorem get_fails (h : c.fails .get = true) (key : String) :
    c.get key = (.error (TrialCache.injected .get key), (c.get key).2) := by
  cases c with
  | memory m => cases h
  | trial t =>
    have hflag : t.failures.get = true := h
    simp only [get, TrialCache.get, hflag]
    rfl

/-! ### Writing -/

@[simp] theorem fails_set (c : Cache) (key : String) (bytes : Bytes) (ttl : Nat) :
    (c.set key bytes ttl).2.fails = c.fails := by
  cases c with
  | memory m => rfl
  | trial t =>
    simp only [set, TrialCache.set]
    split <;> (funext op; cases op <;> rfl)

/-- A failure to write changes nothing but the bookkeeping, and is one of the operation. -/
theorem fresh_set_error {e : CacheError} (h : c.set key bytes ttl = (.error e, c')) :
    e = TrialCache.injected .set key ∧ c'.fresh = c.fresh := by
  cases c with
  | memory m => cases h
  | trial t =>
    simp only [set, TrialCache.set] at h
    split at h <;> cases h
    exact ⟨rfl, rfl⟩

theorem set_error {e : CacheError} (h : c.set key bytes ttl = (.error e, c')) :
    c'.peek = c.peek :=
  peek_of_fresh (fresh_set_error h).2

theorem set_ok (h : c.fails .set = false) (key : String) (bytes : Bytes) (ttl : Nat) :
    (c.set key bytes ttl).1 = .ok () := by
  cases c with
  | memory m => rfl
  | trial t =>
    have hflag : t.failures.set = false := h
    simp only [set, TrialCache.set, hflag]
    rfl

theorem set_fails (h : c.fails .set = true) (key : String) (bytes : Bytes) (ttl : Nat) :
    c.set key bytes ttl = (.error (TrialCache.injected .set key), (c.set key bytes ttl).2) := by
  cases c with
  | memory m => cases h
  | trial t =>
    have hflag : t.failures.set = true := h
    simp only [set, TrialCache.set, hflag]
    rfl

/-- What stands in a cache after a write was written, or stood there before. -/
theorem peek_set (c : Cache) (key : String) (bytes : Bytes) (ttl : Nat)
    (h : (c.set key bytes ttl).2.peek j = some b) : (j = key ∧ b = bytes) ∨ c.peek j = some b := by
  cases c with
  | memory m =>
    have hget : (m.set key bytes ttl).get? j = some b := h
    unfold MemoryCache.get? at hget
    split at hget
    · next t ht =>
      split at hget
      · next halive =>
        cases hget
        rcases Placement.get?_insert _ ht with ⟨hj, rfl⟩ | ht
        · exact .inl ⟨hj, rfl⟩
        · refine .inr ?_
          have halive : MemoryCache.Timed.isAlive m.now t = true := halive
          simp only [peek, MemoryCache.get?, ht, halive, if_true]
      · cases hget
    · cases hget
  | trial t =>
    simp only [set, TrialCache.set] at h
    split at h
    · exact .inr h
    · simp only [peek, TrialCache.peek, TrialCache.place] at h ⊢
      by_cases hj : j = key
      · rw [hj, Dictionary.get?_insert_self] at h
        exact .inl ⟨hj, (Option.some.inj h).symm⟩
      · rw [Dictionary.get?_insert_of_ne _ _ hj] at h
        exact .inr h

theorem peek_set_self (hroom : c.HasRoom key) (h : c.fails .set = false) (bytes : Bytes)
    (ttl : Nat) : (c.set key bytes ttl).2.peek key = some bytes := by
  cases c with
  | memory m =>
    have hadded : m.usage.placement m.capacity m.size m.contains key = .added :=
      Usage.placement_eq_added_iff.mpr hroom
    simp only [set, peek, MemoryCache.set, MemoryCache.get?, hadded, Placement.insert,
      Dictionary.get?_insert_self, MemoryCache.deadline_eq, MemoryCache.isAlive_new, if_true]
  | trial t =>
    have hflag : t.failures.set = false := h
    simp [set, TrialCache.set, hflag, peek, TrialCache.peek, TrialCache.place]

theorem peek_set_of_ne (hroom : c.HasRoom key) (hj : j ≠ key) (bytes : Bytes) (ttl : Nat) :
    (c.set key bytes ttl).2.peek j = c.peek j := by
  cases c with
  | memory m =>
    have hadded : m.usage.placement m.capacity m.size m.contains key = .added :=
      Usage.placement_eq_added_iff.mpr hroom
    simp only [set, peek, MemoryCache.set, MemoryCache.get?, hadded, Placement.insert,
      Dictionary.get?_insert_of_ne _ _ hj]
  | trial t =>
    simp only [set, TrialCache.set]
    split
    · rfl
    · simp only [peek, TrialCache.peek, TrialCache.place, Dictionary.get?_insert_of_ne _ _ hj]

/-- The cache once bytes were written under a key, if there are any to write. -/
def fill (c : Cache) (key : String) (ttl : Nat) : Option Bytes → Cache
  | none => c
  | some bytes => (c.set key bytes ttl).2

/-- What was written is held, and otherwise what was held before. -/
theorem peek_fill_self (hpeek : c.peek key = some b) (h : c.fails .set = false) (ttl : Nat)
    (written : Option Bytes) : (c.fill key ttl written).peek key = some (written.getD b) := by
  cases written with
  | none => exact hpeek
  | some bytes => exact peek_set_self (hasRoom_of_peek hpeek) h bytes ttl

/-! ### Deleting -/

@[simp] theorem fails_delete (c : Cache) (key : String) : (c.delete key).2.fails = c.fails := by
  cases c with
  | memory m => rfl
  | trial t =>
    simp only [delete, TrialCache.delete]
    split <;> (funext op; cases op <;> rfl)

theorem fresh_delete_error {e : CacheError} (h : c.delete key = (.error e, c')) :
    e = TrialCache.injected .delete key ∧ c'.fresh = c.fresh := by
  cases c with
  | memory m => cases h
  | trial t =>
    simp only [delete, TrialCache.delete] at h
    split at h <;> cases h
    exact ⟨rfl, rfl⟩

theorem delete_error {e : CacheError} (h : c.delete key = (.error e, c')) : c'.peek = c.peek :=
  peek_of_fresh (fresh_delete_error h).2

theorem delete_ok (h : c.fails .delete = false) (key : String) : (c.delete key).1 = .ok () := by
  cases c with
  | memory m => rfl
  | trial t =>
    have hflag : t.failures.delete = false := h
    simp only [delete, TrialCache.delete, hflag]
    rfl

theorem peek_delete_of_ne (c : Cache) (hj : j ≠ key) : (c.delete key).2.peek j = c.peek j := by
  cases c with
  | memory m =>
    simp only [delete, peek, MemoryCache.delete, MemoryCache.get?, Dictionary.get?_erase_of_ne _ hj]
  | trial t =>
    simp only [delete, TrialCache.delete]
    split
    · rfl
    · simp only [peek, TrialCache.peek, Dictionary.get?_erase_of_ne _ hj]

theorem peek_delete_self (h : c.fails .delete = false) (key : String) :
    (c.delete key).2.peek key = none := by
  cases c with
  | memory m => simp [delete, peek, MemoryCache.delete, MemoryCache.get?]
  | trial t =>
    have hflag : t.failures.delete = false := h
    simp [delete, TrialCache.delete, hflag, peek, TrialCache.peek]

theorem peek_delete (c : Cache) (key : String) (h : (c.delete key).2.peek j = some b) :
    c.peek j = some b := by
  by_cases hj : j = key
  · subst hj
    cases hd : (c.delete j).1 with
    | error e =>
      rwa [delete_error (Prod.ext hd rfl)] at h
    | ok u =>
      have hfails : c.fails .delete = false := by
        cases c with
        | memory m => rfl
        | trial t =>
          cases hf : t.failures.delete with
          | false => exact hf
          | true => simp [delete, TrialCache.delete, hf] at hd
      rw [peek_delete_self hfails] at h
      cases h
  · rwa [peek_delete_of_ne c hj] at h

theorem delete_fst (c : Cache) (key : String) : (c.delete key).1 =
    if c.fails .delete then .error (TrialCache.injected .delete key) else .ok () := by
  cases c with
  | memory m => rfl
  | trial t =>
    obtain ⟨entries, calls, failsGet, failsSet, failsDelete⟩ := t
    cases failsDelete <;> rfl

/-! ### Entries -/

/-- The bytes under a key with the end of their time, if they have one. -/
def held? (c : Cache) (key : String) : Option (Bytes × Option Nat) :=
  match c with
  | .memory m =>
    match m.entries.get? key with
    | some t => if MemoryCache.Timed.isAlive m.now t then some (t.bytes, t.deadline) else none
    | none => none
  | .trial t => (t.entries.get? key).map fun e => (e.1, some e.2)

/-- The end of the time of what is written now. A cache that never expires anything has the time to
live in its place. -/
def ending (c : Cache) (ttl : Nat) : Option Nat :=
  match c with
  | .memory m => if ttl = 0 then none else some (m.now + ttl)
  | .trial _ => some ttl

theorem peek_eq_held? (c : Cache) (key : String) : c.peek key = (c.held? key).map (·.1) := by
  cases c with
  | memory m =>
    simp only [peek, held?, MemoryCache.get?]
    cases m.entries.get? key with
    | none => rfl
    | some t =>
      dsimp only
      split <;> rfl
  | trial t =>
    simp only [peek, held?, TrialCache.peek]
    cases t.entries.get? key <;> rfl

@[simp] theorem held?_get (c : Cache) (key : String) : (c.get key).2.held? = c.held? := by
  cases c with
  | memory m => rfl
  | trial t =>
    simp only [get, TrialCache.get]
    split <;> rfl

@[simp] theorem ending_get (c : Cache) (key : String) : (c.get key).2.ending = c.ending := by
  cases c <;> rfl

@[simp] theorem ending_set (c : Cache) (key : String) (bytes : Bytes) (ttl : Nat) :
    (c.set key bytes ttl).2.ending = c.ending := by
  cases c <;> rfl

@[simp] theorem ending_delete (c : Cache) (key : String) :
    (c.delete key).2.ending = c.ending := by
  cases c <;> rfl

@[simp] theorem held?_settle (c : Cache) : c.settle.held? = c.held? := by
  cases c <;> rfl

@[simp] theorem ending_settle (c : Cache) : c.settle.ending = c.ending := by
  cases c <;> rfl

theorem held?_set (hroom : c.HasRoom key) (bytes : Bytes) (ttl : Nat) (j : String) :
    (c.set key bytes ttl).2.held? j =
      if j = key then if c.fails .set then c.held? key else some (bytes, c.ending ttl)
      else c.held? j := by
  cases c with
  | memory m =>
    have hadded : m.usage.placement m.capacity m.size m.contains key = .added :=
      Usage.placement_eq_added_iff.mpr hroom
    simp only [set, held?, MemoryCache.set, hadded, Placement.insert]
    by_cases hj : j = key
    · simp [hj, fails, ending, MemoryCache.isAlive_new]
    · simp only [hj, if_false, Dictionary.get?_insert_of_ne _ _ hj]
  | trial t =>
    obtain ⟨entries, calls, failsGet, failsSet, failsDelete⟩ := t
    by_cases hj : j = key
    · cases failsSet <;> simp [set, TrialCache.set, fails, hj, held?, ending, TrialCache.place]
    · cases failsSet <;>
        simp [set, TrialCache.set, hj, held?, TrialCache.place, Dictionary.get?_insert_of_ne _ _ hj]

theorem held?_delete (c : Cache) (key j : String) : (c.delete key).2.held? j =
    if j = key then if c.fails .delete then c.held? key else none else c.held? j := by
  cases c with
  | memory m =>
    simp only [delete, held?, MemoryCache.delete]
    by_cases hj : j = key
    · simp [hj, fails]
    · simp only [hj, if_false, Dictionary.get?_erase_of_ne _ hj]
  | trial t =>
    obtain ⟨entries, calls, failsGet, failsSet, failsDelete⟩ := t
    by_cases hj : j = key
    · cases failsDelete <;> simp [delete, TrialCache.delete, fails, hj, held?]
    · cases failsDelete <;>
        simp [delete, TrialCache.delete, hj, held?, Dictionary.get?_erase_of_ne _ hj]

/-! ### Counts -/

/-- How often an operation was called, if the cache counts. -/
def count? : Cache → CacheOperation → Option Nat
  | .memory _, _ => none
  | .trial t, .get => some t.calls.get
  | .trial t, .set => some t.calls.set
  | .trial t, .delete => some t.calls.delete

@[simp] theorem count?_settle (c : Cache) : c.settle.count? = c.count? := by
  cases c <;> rfl

theorem count?_get (c : Cache) (key : String) (op : CacheOperation) :
    (c.get key).2.count? op = (c.count? op).map (· + if op = .get then 1 else 0) := by
  cases c with
  | memory m => rfl
  | trial t =>
    simp only [get, TrialCache.get]
    split <;> cases op <;> rfl

theorem count?_set (c : Cache) (key : String) (bytes : Bytes) (ttl : Nat) (op : CacheOperation) :
    (c.set key bytes ttl).2.count? op = (c.count? op).map (· + if op = .set then 1 else 0) := by
  cases c with
  | memory m => rfl
  | trial t =>
    simp only [set, TrialCache.set]
    split <;> cases op <;> rfl

theorem count?_delete (c : Cache) (key : String) (op : CacheOperation) :
    (c.delete key).2.count? op = (c.count? op).map (· + if op = .delete then 1 else 0) := by
  cases c with
  | memory m => rfl
  | trial t =>
    simp only [delete, TrialCache.delete]
    split <;> cases op <;> rfl

end Cache

end ObjectTiers
