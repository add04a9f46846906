/-
Room for several keys at once.

A tier has places for some keys if those that it does not hold fit beside what it holds
(`HasPlaces`). Whatever is done with one of the keys keeps the places, so in a tier with places for
all the keys that are used none of them is refused, and nothing goes to make room for them.
-/
import Mathlib.Data.Finset.Card
import ObjectTiers.Proofs.Tier.Cache

namespace ObjectTiers

/-- Places for some keys in a tier with `size` keys: those that it does not hold fit beside what it
holds. -/
def HasPlaces (capacity size : Nat) (holds : String → Bool) (keys : Finset String) : Prop :=
  size + (keys.filter fun k => holds k = false).card ≤ capacity

namespace HasPlaces

variable {capacity size size' : Nat} {holds holds' : String → Bool} {keys : Finset String}
  {key : String}

/-- There are places for all keys beside everything else. -/
theorem of_card_le (h : size + keys.card ≤ capacity) : HasPlaces capacity size holds keys :=
  Nat.le_trans (Nat.add_le_add_left (Finset.card_filter_le keys _) size) h

theorem holds_or_lt (h : HasPlaces capacity size holds keys) (hkey : key ∈ keys) :
    holds key = true ∨ size < capacity := by
  cases hholds : holds key with
  | true => exact .inl rfl
  | false =>
    have hmem : key ∈ keys.filter fun k => holds k = false := Finset.mem_filter.mpr ⟨hkey, hholds⟩
    have hpos := Finset.card_pos.mpr ⟨key, hmem⟩
    unfold HasPlaces at h
    exact .inr (by omega)

/-- The places are kept by what concerns one of the keys, if that takes no more than its own. -/
theorem change (h : HasPlaces capacity size holds keys) (hkey : key ∈ keys)
    (hothers : ∀ k, k ≠ key → holds' k = holds k)
    (hsize : size' + (if holds' key then 0 else 1) ≤ size + if holds key then 0 else 1) :
    HasPlaces capacity size' holds' keys := by
  -- the missing keys are the others that are missing, and the key itself if it is
  have hcard (f : String → Bool) : (keys.filter fun k => f k = false).card =
      ((keys.filter fun k => f k = false).erase key).card + if f key then 0 else 1 := by
    cases hf : f key with
    | true =>
      rw [Finset.erase_eq_of_notMem (by simp [hf])]
      rfl
    | false =>
      have hmem : key ∈ keys.filter fun k => f k = false := Finset.mem_filter.mpr ⟨hkey, hf⟩
      exact (Finset.card_erase_add_one hmem).symm
  have herase : (keys.filter fun k => holds' k = false).erase key =
      (keys.filter fun k => holds k = false).erase key := by
    ext k
    simp only [Finset.mem_erase, Finset.mem_filter]
    exact and_congr_right fun hk => by rw [hothers k hk]
  unfold HasPlaces at h ⊢
  rw [hcard, herase]
  rw [hcard] at h
  omega

/-- The places are kept by what lets go of a key, whichever it is. -/
theorem release (h : HasPlaces capacity size holds keys) (key : String)
    (hothers : ∀ k, k ≠ key → holds' k = holds k) (hgone : holds' key = false)
    (hsize : size' + 1 ≤ size + if holds key then 0 else 1) :
    HasPlaces capacity size' holds' keys := by
  by_cases hkey : key ∈ keys
  · exact h.change hkey hothers (by simpa [hgone] using hsize)
  · have hsame : (keys.filter fun k => holds' k = false) = keys.filter fun k => holds k = false :=
      Finset.filter_congr fun k hk => by rw [hothers k fun e => hkey (e ▸ hk)]
    have hle : size' ≤ size := by split at hsize <;> omega
    unfold HasPlaces at h ⊢
    rw [hsame]
    omega

end HasPlaces

/-- Erasing a key makes room for one pair, if there was one under it. -/
theorem Dictionary.length_filter_erase {κ α : Type} [DecidableEq κ] (d : Dictionary κ α)
    (p : κ × α → Bool) (k : κ) : ((d.erase k).pairs.filter p).length + 1 ≤
      (d.pairs.filter p).length + if (d.get? k).any (fun a => p (k, a)) then 0 else 1 := by
  have hswap : (d.erase k).pairs.filter p = (d.pairs.filter p).filter fun q => q.1 != k := by
    simp only [erase, List.filter_filter]
    exact List.filter_congr fun q _ => Bool.and_comm _ _
  rw [hswap]
  split
  · next hany =>
    obtain ⟨a, ha, hp⟩ := (Option.any_eq_true _ _).mp hany
    obtain ⟨before, after, hsplit, -⟩ := List.lookup_eq_some_iff.mp ha
    have hmem : (k, a) ∈ d.pairs.filter p := List.mem_filter.mpr ⟨by rw [hsplit]; simp, hp⟩
    exact List.length_filter_lt_length_iff_exists.mpr ⟨(k, a), hmem, by simp⟩
  · exact Nat.succ_le_succ (List.length_filter_le _ _)

/-! ### The memory -/

namespace Memory

variable {V : Type} {m : Memory V} {keys : Finset String} {key : String}

/-- The memory has places for all of the keys together. -/
def HasPlaces (m : Memory V) (keys : Finset String) : Prop :=
  ObjectTiers.HasPlaces m.capacity m.size m.contains keys

theorem HasPlaces.hasRoom (h : m.HasPlaces keys) (hkey : key ∈ keys) : m.HasRoom key :=
  ObjectTiers.HasPlaces.holds_or_lt h hkey

theorem size_erase (m : Memory V) (key : String) :
    (m.erase key).size + 1 ≤ m.size + if m.contains key then 0 else 1 := by
  have h := m.cells.length_filter_erase (fun _ => true) key
  simp only [List.filter_true] at h
  have hcontains : (m.cells.get? key).any (fun _ => true) = m.contains key := by
    rw [contains, Dictionary.contains]
    cases m.cells.get? key <;> rfl
  rwa [hcontains] at h

theorem HasPlaces.erase (h : m.HasPlaces keys) (key : String) : (m.erase key).HasPlaces keys := by
  refine ObjectTiers.HasPlaces.release h key ?_ ?_ (m.size_erase key)
  · intro k hk
    simp only [contains, Memory.erase, Dictionary.contains, Dictionary.get?_erase_of_ne _ hk]
  · simp [contains, Memory.erase, Dictionary.contains]

theorem HasPlaces.insert (h : m.HasPlaces keys) (hkey : key ∈ keys) (c : V) :
    (m.insert key c).HasPlaces keys := by
  have hcells := cells_insert (h.hasRoom hkey) c
  refine ObjectTiers.HasPlaces.change h hkey ?_ ?_
  · intro k hk
    simp only [contains, hcells, Dictionary.contains, Dictionary.get?_insert_of_ne _ _ hk]
  · have hheld : (m.insert key c).contains key = true := by
      simp [contains, hcells, Dictionary.contains]
    have hsize : (m.insert key c).size = (m.erase key).size + 1 := by
      simp only [size, hcells]
      rfl
    rw [hheld, hsize]
    exact m.size_erase key

theorem HasPlaces.congr {m' : Memory V} (h : m.HasPlaces keys) (hcells : m'.cells = m.cells)
    (hcapacity : m'.capacity = m.capacity) : m'.HasPlaces keys := by
  have hholds : m'.contains = m.contains := by
    funext k
    simp only [contains, hcells]
  unfold HasPlaces at h ⊢
  rwa [size, hholds, hcells, hcapacity]

/-- A look-up keeps the places, also if it drops a value of another type. -/
theorem HasPlaces.get {τ : Type} [Typed V τ] [DecidableEq τ] (h : m.HasPlaces keys) (t : τ)
    (key : String) : (m.get t key).2.1.HasPlaces keys := by
  unfold Memory.get
  dsimp only
  split
  · exact h
  · split
    · exact h
    · exact h.erase key

theorem HasPlaces.getItem {m : Memory} (h : m.HasPlaces keys) (k : Kind) (key : String) :
    (m.getItem k key).2.1.HasPlaces keys := by
  have hget := h.get (.item k) key
  have hmemory : (m.getItem k key).2.1 = (m.get (.item k) key).2.1 := by
    unfold Memory.getItem
    split <;> simp_all
  rwa [hmemory]

end Memory

/-! ### The cache -/

namespace MemoryCache

theorem size_erase (m : MemoryCache) (key : String) :
    (m.delete key).size + 1 ≤ m.size + if m.contains key then 0 else 1 := by
  have h := m.entries.length_filter_erase (fun p => Timed.isAlive m.now p.2) key
  have hcontains :
      (m.entries.get? key).any (fun t => Timed.isAlive m.now t) = m.contains key := by
    rw [contains, get?]
    cases m.entries.get? key with
    | none => rfl
    | some t => cases ht : Timed.isAlive m.now t <;> simp [ht]
  rwa [hcontains] at h

end MemoryCache

namespace Cache

variable {c : Cache} {keys : Finset String} {key : String}

/-- A cache that nothing is ever refused by has places for everything. -/
def HasPlaces : Cache → Finset String → Prop
  | .memory m, keys => ObjectTiers.HasPlaces m.capacity m.size m.contains keys
  | .trial _, _ => True

theorem HasPlaces.hasRoom (h : c.HasPlaces keys) (hkey : key ∈ keys) : c.HasRoom key := by
  cases c with
  | memory m => exact ObjectTiers.HasPlaces.holds_or_lt h hkey
  | trial t => trivial

theorem HasPlaces.get (h : c.HasPlaces keys) (key : String) : (c.get key).2.HasPlaces keys := by
  cases c with
  | memory m => exact h
  | trial t => trivial

theorem HasPlaces.delete (h : c.HasPlaces keys) (key : String) :
    (c.delete key).2.HasPlaces keys := by
  cases c with
  | trial t => trivial
  | memory m =>
    refine ObjectTiers.HasPlaces.release h key ?_ ?_ (m.size_erase key)
    · intro k hk
      exact congrArg Option.isSome (peek_delete_of_ne (.memory m) hk)
    · simp [MemoryCache.contains, MemoryCache.get?, MemoryCache.delete]

theorem HasPlaces.set (h : c.HasPlaces keys) (hkey : key ∈ keys) (bytes : Bytes) (ttl : Nat) :
    (c.set key bytes ttl).2.HasPlaces keys := by
  cases c with
  | trial t => trivial
  | memory m =>
    have hadded : m.usage.placement m.capacity m.size m.contains key = .added :=
      Usage.placement_eq_added_iff.mpr (ObjectTiers.HasPlaces.holds_or_lt h hkey)
    have hpeek := peek_set_self (c := .memory m) (h.hasRoom hkey) rfl bytes ttl
    refine ObjectTiers.HasPlaces.change h hkey ?_ ?_
    · intro k hk
      exact congrArg Option.isSome
        (peek_set_of_ne (c := .memory m) (h.hasRoom hkey) hk bytes ttl)
    · have hheld : (m.set key bytes ttl).contains key = true := congrArg Option.isSome hpeek
      have hentries : (m.set key bytes ttl).entries = m.entries.insert key
          ⟨bytes, if ttl = 0 then none else some (m.now + ttl)⟩ := by
        simp only [MemoryCache.set, MemoryCache.deadline_eq, hadded, Placement.insert]
      have hsize : (m.set key bytes ttl).size = (m.delete key).size + 1 := by
        have hnow : (m.set key bytes ttl).now = m.now := rfl
        simp only [MemoryCache.size, hentries, hnow, Dictionary.insert, List.filter_cons,
          MemoryCache.isAlive_new, if_true, List.length_cons]
        rfl
      rw [hheld, hsize]
      exact m.size_erase key

theorem HasPlaces.settle (h : c.HasPlaces keys) : c.settle.HasPlaces keys := by
  cases c with
  | memory m => exact h
  | trial t => trivial

end Cache

end ObjectTiers
