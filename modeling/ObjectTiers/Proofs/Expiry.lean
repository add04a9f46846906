/-
When the entries of a cache expire. In a cache with room for what is written, a key is found from
the last time it was set until it is deleted, or until the duration of that one call has gone by;
whatever the key was set to before, and for how long, has no part in it
(`MemoryCache.get_iff_unexpired`). As long as no duration goes by the cache answers as one that
never expires anything.
-/
import Mathlib.Data.Finset.Card
import ObjectTiers.Proofs.Handles
import ObjectTiers.Proofs.Tier.Cache

namespace ObjectTiers

theorem Placement.nodup_keys_insert {α : Type} (p : Placement) {d : Dictionary String α}
    (h : d.keys.Nodup) (key : String) (a : α) : (p.insert d key a).keys.Nodup := by
  cases p with
  | added => exact Dictionary.nodup_keys_insert h key a
  | replaces old => exact Dictionary.nodup_keys_insert (Dictionary.nodup_keys_erase h old) key a
  | refused => exact h

namespace MemoryCache

/-- What a cache is asked, and the time that goes by in between; `settle` is the cache's own
upkeep, which may be done at any time. -/
inductive Request
  | set (key : String) (bytes : Bytes) (ttl : Nat)
  | get (key : String)
  | contains (key : String)
  | delete (key : String)
  | wait (ms : Nat)
  | settle
  deriving DecidableEq

/-- The cache after a request. -/
def next (m : MemoryCache) : Request → MemoryCache
  | .set key bytes ttl => m.set key bytes ttl
  | .get key => (m.get key).2
  | .contains _ => m
  | .delete key => m.delete key
  | .wait ms => m.wait ms
  | .settle => m.settle

variable {m : MemoryCache} {q : Request} {history before after : List Request} {key j : String}
  {bytes : Bytes} {ttl n : Nat}

/-- The time that goes by with a request. -/
def Request.duration : Request → Nat
  | .wait ms => ms
  | .set _ _ _ | .get _ | .contains _ | .delete _ | .settle => 0

/-- The time that goes by with requests. -/
def waited : List Request → Nat
  | [] => 0
  | q :: history => q.duration + waited history

/-- Nothing is put under the key. -/
def Unset (history : List Request) (key : String) : Prop :=
  ∀ bytes ttl, .set key bytes ttl ∉ history

/-- At each `set` the key was in the cache, or the cache was below its capacity. -/
def HadRoom (capacity : Nat) (history : List Request) : Prop :=
  ∀ before key bytes ttl after, history = before ++ .set key bytes ttl :: after →
    (Cache.memory (before.foldl next (ofCapacity capacity))).HasRoom key

theorem HadRoom.of_append (h : HadRoom n (before ++ after)) : HadRoom n before := by
  intro before' key bytes ttl after' hsplit
  exact h before' key bytes ttl (after' ++ after) (by simp [hsplit])

/-! ### One request -/

/-- What a request makes of the entry of a key at a time. -/
def Request.entry (now : Nat) (j : String) (kept : Option Timed) : Request → Option Timed
  | .set key bytes ttl =>
    if key = j then some ⟨bytes, if ttl = 0 then none else some (now + ttl)⟩ else kept
  | .delete key => if key = j then none else kept
  | .get _ | .contains _ | .wait _ | .settle => kept

theorem capacity_next (m : MemoryCache) (q : Request) : (m.next q).capacity = m.capacity := by
  cases q <;> rfl

theorem now_next (m : MemoryCache) (q : Request) : (m.next q).now = m.now + q.duration := by
  cases q <;> rfl

theorem entries_next
    (hroom : ∀ key bytes ttl, q = .set key bytes ttl → (Cache.memory m).HasRoom key) :
    (m.next q).entries.get? j = q.entry m.now j (m.entries.get? j) := by
  cases q with
  | set key bytes ttl =>
    have hadded : m.usage.placement m.capacity m.size m.contains key = .added :=
      Usage.placement_eq_added_iff.mpr (hroom key bytes ttl rfl)
    simp only [next, set, hadded, Placement.insert, deadline_eq, Request.entry]
    by_cases hj : key = j
    · simp [hj]
    · rw [if_neg hj, Dictionary.get?_insert_of_ne _ _ (Ne.symm hj)]
  | delete key =>
    simp only [next, delete, Request.entry]
    by_cases hj : key = j
    · simp [hj]
    · rw [if_neg hj, Dictionary.get?_erase_of_ne _ (Ne.symm hj)]
  | get | contains | wait | settle => rfl

/-! ### Many requests -/

theorem capacity_foldl (m : MemoryCache) (history : List Request) :
    (history.foldl next m).capacity = m.capacity :=
  List.foldlRecOn (motive := fun m' => m'.capacity = m.capacity) history next rfl
    fun m' h q _ => (m'.capacity_next q).trans h

theorem now_foldl (m : MemoryCache) (history : List Request) :
    (history.foldl next m).now = m.now + waited history := by
  induction history generalizing m with
  | nil => rfl
  | cons q history ih =>
    rw [List.foldl_cons, ih, now_next, waited, Nat.add_assoc]

theorem entries_append (hroom : HadRoom n (history ++ [q])) :
    ((history ++ [q]).foldl next (ofCapacity n)).entries.get? j =
      q.entry (waited history) j ((history.foldl next (ofCapacity n)).entries.get? j) := by
  rw [List.foldl_append, List.foldl_cons, List.foldl_nil, entries_next, now_foldl]
  · simp [ofCapacity]
  · intro key bytes ttl hq
    exact hroom history key bytes ttl [] (by rw [hq])

theorem entries_of_unset (hroom : HadRoom n history) (hunset : Unset history key) :
    (history.foldl next (ofCapacity n)).entries.get? key = none := by
  induction history using List.reverseRecOn with
  | nil => rfl
  | append_singleton history q ih =>
    rw [entries_append hroom,
      ih hroom.of_append fun bytes ttl h => hunset bytes ttl (List.mem_append_left _ h)]
    cases q with
    | set k bytes ttl =>
      refine if_neg fun hk => hunset bytes ttl ?_
      simp [hk]
    | delete k => exact ite_self _
    | get | contains | wait | settle => rfl

/-- The entry of a key is the one it was last set to, unless it was deleted. -/
theorem entries_of_set (hroom : HadRoom n (before ++ .set key bytes ttl :: after))
    (hunset : Unset after key) :
    ((before ++ .set key bytes ttl :: after).foldl next (ofCapacity n)).entries.get? key =
      if .delete key ∈ after then none
      else some ⟨bytes, if ttl = 0 then none else some (waited before + ttl)⟩ := by
  induction after using List.reverseRecOn with
  | nil =>
    rw [entries_append hroom]
    simp [Request.entry]
  | append_singleton after q ih =>
    rw [← List.cons_append, ← List.append_assoc] at hroom ⊢
    rw [entries_append hroom,
      ih hroom.of_append fun bytes ttl h => hunset bytes ttl (List.mem_append_left _ h)]
    cases q with
    | set k b t =>
      have hk : k ≠ key := by
        intro hk
        exact hunset b t (by simp [hk])
      simp [Request.entry, hk]
    | delete k =>
      by_cases hk : k = key
      · simp [Request.entry, hk]
      · simp [Request.entry, hk, Ne.symm hk]
    | get | contains | wait | settle => simp [Request.entry]

theorem waited_append (before after : List Request) :
    waited (before ++ after) = waited before + waited after := by
  induction before with
  | nil => simp [waited]
  | cons q before ih => rw [List.cons_append, waited, ih, waited, Nat.add_assoc]

/-- What is found under a key is what it was last set to, until it is deleted or its time is up. -/
theorem get?_of_set (hroom : HadRoom n (before ++ .set key bytes ttl :: after))
    (hunset : Unset after key) :
    ((before ++ .set key bytes ttl :: after).foldl next (ofCapacity n)).get? key =
      if .delete key ∉ after ∧ (ttl = 0 ∨ waited after < ttl) then some bytes else none := by
  have hnow : waited (before ++ .set key bytes ttl :: after) = waited before + waited after := by
    rw [waited_append]
    simp [waited, Request.duration]
  rw [get?, entries_of_set hroom hunset, now_foldl, hnow]
  by_cases hdeleted : .delete key ∈ after
  · simp [hdeleted]
  · by_cases httl : ttl = 0
    · simp [hdeleted, httl, Timed.isAlive]
    · simp [hdeleted, httl, Timed.isAlive, ofCapacity]

theorem get?_of_unset (hroom : HadRoom n history) (hunset : Unset history key) :
    (history.foldl next (ofCapacity n)).get? key = none := by
  rw [get?, entries_of_unset hroom hunset]

theorem unset_or_set (history : List Request) (key : String) : Unset history key ∨
    ∃ before bytes ttl after,
      history = before ++ .set key bytes ttl :: after ∧ Unset after key := by
  induction history with
  | nil => exact .inl fun bytes ttl => List.not_mem_nil
  | cons q history ih =>
    rcases ih with hunset | ⟨before, bytes, ttl, after, rfl, hafter⟩
    · by_cases hq : ∃ bytes ttl, q = .set key bytes ttl
      · obtain ⟨bytes, ttl, rfl⟩ := hq
        exact .inr ⟨[], bytes, ttl, history, rfl, hunset⟩
      · refine .inl fun bytes ttl hmem => ?_
        rcases List.mem_cons.mp hmem with hmem | hmem
        · exact hq ⟨bytes, ttl, hmem.symm⟩
        · exact hunset bytes ttl hmem
    · exact .inr ⟨q :: before, bytes, ttl, after, rfl, hafter⟩

/-! ### Room -/

/-- The keys that something is put under. -/
def setKeys (history : List Request) : Finset String :=
  (history.filterMap fun
    | .set key _ _ => some key
    | _ => none).toFinset

theorem mem_setKeys (h : .set key bytes ttl ∈ history) : key ∈ setKeys history := by
  rw [setKeys, List.mem_toFinset, List.mem_filterMap]
  exact ⟨_, h, rfl⟩

theorem mem_keys_next (h : j ∈ (m.next q).entries.keys) :
    j ∈ m.entries.keys ∨ ∃ bytes ttl, q = .set j bytes ttl := by
  simp only [← Dictionary.contains_iff_mem_keys, Dictionary.contains, Option.isSome_iff_exists]
    at h ⊢
  obtain ⟨t, ht⟩ := h
  cases q with
  | set key bytes ttl =>
    rcases Placement.get?_insert _ ht with ⟨rfl, -⟩ | ht
    · exact .inr ⟨bytes, ttl, rfl⟩
    · exact .inl ⟨t, ht⟩
  | delete key =>
    by_cases hj : j = key
    · rw [next, delete, hj, Dictionary.get?_erase_self] at ht
      cases ht
    · rw [next, delete, Dictionary.get?_erase_of_ne _ hj] at ht
      exact .inl ⟨t, ht⟩
  | get | contains | wait | settle => exact .inl ⟨t, ht⟩

/-- A cache holds each key once, and only keys that were set. -/
theorem keys_foldl (n : Nat) (history : List Request) :
    (history.foldl next (ofCapacity n)).entries.keys.Nodup ∧
      ∀ j ∈ (history.foldl next (ofCapacity n)).entries.keys, j ∈ setKeys history := by
  induction history using List.reverseRecOn with
  | nil => exact ⟨List.nodup_nil, fun j h => absurd h List.not_mem_nil⟩
  | append_singleton history q ih =>
    rw [List.foldl_append, List.foldl_cons, List.foldl_nil]
    obtain ⟨hnodup, hkeys⟩ := ih
    refine ⟨?_, fun j hj => ?_⟩
    · cases q with
      | set key bytes ttl => exact Placement.nodup_keys_insert _ hnodup key _
      | delete key => exact Dictionary.nodup_keys_erase hnodup key
      | get | contains | wait | settle => exact hnodup
    · rcases mem_keys_next hj with hj | ⟨bytes, ttl, rfl⟩
      · have hmem := hkeys j hj
        simp only [setKeys, List.mem_toFinset, List.filterMap_append, List.mem_append] at hmem ⊢
        exact .inl hmem
      · exact mem_setKeys (List.mem_append_right _ (List.mem_singleton_self _))

/-- Of some keys fewer are in the cache than there are, if one of them is not. -/
theorem size_lt_card {keys : Finset String} (hnodup : m.entries.keys.Nodup)
    (hsub : ∀ j ∈ m.entries.keys, j ∈ keys) (hkey : key ∈ keys) (hgone : m.contains key = false) :
    m.size < keys.card := by
  let live := (m.entries.pairs.filter fun p => Timed.isAlive m.now p.2).map Prod.fst
  have hlive : live.Nodup := hnodup.sublist (List.filter_sublist.map _)
  have hkeys : live.toFinset ⊆ keys.erase key := by
    intro j hj
    obtain ⟨⟨k, t⟩, hpair, rfl⟩ := List.mem_map.mp (List.mem_toFinset.mp hj)
    obtain ⟨hmem, halive⟩ := List.mem_filter.mp hpair
    refine Finset.mem_erase.mpr ⟨?_, hsub k (List.mem_map_of_mem hmem)⟩
    rintro rfl
    simp [contains, get?, Dictionary.get?_of_mem hnodup hmem, halive] at hgone
  calc m.size = live.toFinset.card := by
        rw [List.toFinset_card_of_nodup hlive, List.length_map, size]
    _ ≤ (keys.erase key).card := Finset.card_le_card hkeys
    _ < keys.card := Finset.card_erase_lt_of_mem hkey

/-- There is always room in a cache that could hold all the keys that are set. -/
theorem hadRoom_of_card_le (h : (setKeys history).card ≤ n) : HadRoom n history := by
  intro before key bytes ttl after hsplit
  cases hheld : (before.foldl next (ofCapacity n)).contains key with
  | true => exact .inl hheld
  | false =>
    have hsub : setKeys before ⊆ setKeys history := by
      intro j hj
      simp only [setKeys, hsplit, List.mem_toFinset, List.filterMap_append, List.mem_append]
        at hj ⊢
      exact .inl hj
    have hset : .set key bytes ttl ∈ history := by simp [hsplit]
    obtain ⟨hnodup, hkeys⟩ := keys_foldl n before
    have hsize := size_lt_card hnodup (fun j hj => hsub (hkeys j hj)) (mem_setKeys hset) hheld
    refine .inr (Nat.lt_of_lt_of_le hsize ?_)
    rwa [capacity_foldl]

end MemoryCache

/-! ### A cache that never expires anything -/

namespace TrialCache

open MemoryCache (Request HadRoom ofCapacity)

variable {t : TrialCache} {q : Request} {history : List Request} {key : String} {n : Nat}

/-- The cache after a request; time does nothing to it. -/
def next (t : TrialCache) : Request → TrialCache
  | .set key bytes ttl => (t.set key bytes ttl).2
  | .get key => (t.get key).2
  | .contains _ => t
  | .delete key => (t.delete key).2
  | .wait _ => t
  | .settle => t

theorem failures_foldl (history : List Request) :
    (history.foldl next empty).failures = ⟨false, false, false⟩ := by
  induction history using List.reverseRecOn with
  | nil => rfl
  | append_singleton history q ih =>
    rw [List.foldl_append, List.foldl_cons, List.foldl_nil]
    cases q with
    | set key bytes ttl => simp [next, set, ih, place]
    | get key => simp [next, get, ih]
    | delete key => simp [next, delete, ih]
    | contains | wait | settle => exact ih

theorem peek_next (h : t.failures = ⟨false, false, false⟩) {kept : Option Timed}
    (hkept : t.peek key = kept.map (·.bytes)) (now : Nat) :
    (t.next q).peek key = (q.entry now key kept).map (·.bytes) := by
  cases q with
  | set k bytes ttl =>
    by_cases hk : k = key
    · simp [next, set, h, place, peek, Request.entry, hk]
    · rw [peek] at hkept
      simp [next, set, h, place, peek, Request.entry, hk, hkept,
        Dictionary.get?_insert_of_ne _ _ (Ne.symm hk)]
  | delete k =>
    by_cases hk : k = key
    · simp [next, delete, h, peek, Request.entry, hk]
    · rw [peek] at hkept
      simp [next, delete, h, peek, Request.entry, hk, hkept,
        Dictionary.get?_erase_of_ne _ (Ne.symm hk)]
  | get k => simpa [next, get, h, peek, Request.entry] using hkept
  | contains | wait | settle => exact hkept

/-- A trial cache holds the entries of a cache that was asked the same, expired or not. -/
theorem peek_foldl (hroom : HadRoom n history) : (history.foldl next empty).peek key =
    ((history.foldl MemoryCache.next (ofCapacity n)).entries.get? key).map (·.bytes) := by
  induction history using List.reverseRecOn with
  | nil => rfl
  | append_singleton history q ih =>
    rw [MemoryCache.entries_append hroom, List.foldl_append]
    exact peek_next (failures_foldl history) (ih hroom.of_append) _

end TrialCache

namespace MemoryCache

variable {history : List Request} {key : String} {n : Nat}

/-- The time that a key was last set for is not up. -/
def Unelapsed (history : List Request) (key : String) : Prop :=
  ∀ before bytes ttl after, history = before ++ .set key bytes ttl :: after → Unset after key →
    ttl = 0 ∨ waited after < ttl

theorem trial_get_eq (hroom : HadRoom n history) (h : Unelapsed history key) :
    ((history.foldl TrialCache.next .empty).get key).1 =
      .ok ((history.foldl next (ofCapacity n)).get? key) := by
  have hpeek : ((history.foldl TrialCache.next .empty).get key).1 =
      .ok ((history.foldl TrialCache.next .empty).peek key) := by
    simp [TrialCache.get, TrialCache.failures_foldl, TrialCache.peek]
  rw [hpeek, TrialCache.peek_foldl hroom]
  rcases unset_or_set history key with hunset | ⟨before, bytes, ttl, after, rfl, hunset⟩
  · rw [entries_of_unset hroom hunset, get?_of_unset hroom hunset]
    rfl
  · rw [entries_of_set hroom hunset, get?_of_set hroom hunset]
    have httl := h before bytes ttl after rfl hunset
    by_cases hdeleted : .delete key ∈ after
    · simp [hdeleted]
    · simp [hdeleted, httl]

/-- What a cache answers after any run, through any of its handles, if it had room for what was set
through them. A look-up finds what the key was last set to, unless it was deleted since or that
call's time to live has gone by since; zero is for ever. A key that was never set is not found. So
nothing that a key was set to before counts. While the time of the last call is not up, a cache that
never expires anything answers the same. -/
theorem get_iff_unexpired (capacity : Nat) (steps : List (Handles.Step Request))
    {hs : Handles MemoryCache} (hrun : hs = Handles.runNew ofCapacity next capacity steps)
    {h i : Nat} (hh : hs.targets[h]? = some i)
    (hhistory : history = Handles.requestsNew ofCapacity next capacity steps i)
    (hroom : HadRoom (hs.values i).capacity history) :
    hs.get? h = some (hs.values i) ∧
    (∀ before key bytes ttl after, history = before ++ .set key bytes ttl :: after →
      Unset after key → ((hs.values i).get key).1 =
        if .delete key ∉ after ∧ (ttl = 0 ∨ waited after < ttl) then some bytes else none) ∧
    (∀ key, Unset history key → ((hs.values i).get key).1 = none) ∧
    ∀ key, Unelapsed history key →
      ((history.foldl TrialCache.next .empty).get key).1 = .ok ((hs.values i).get key).1 := by
  obtain ⟨n, hvalue⟩ : ∃ n, hs.values i = history.foldl next (ofCapacity n) := by
    subst hrun hhistory
    exact Handles.exists_eq_foldl hh
  rw [hvalue, capacity_foldl] at hroom
  refine ⟨Handles.get?_eq hh, ?_, ?_, ?_⟩
  · intro before key bytes ttl after hsplit hunset
    subst hsplit
    rw [hvalue]
    exact get?_of_set hroom hunset
  · intro key hunset
    rw [hvalue]
    exact get?_of_unset hroom hunset
  · intro key hunelapsed
    rw [hvalue]
    exact trial_get_eq hroom hunelapsed

/-- A key set for ever and then, through a second handle, for 100 ms: it is found 99 ms later, and
gone after one more. -/
theorem get_iff_unexpired_overwritten : ∃ hs hs' : Handles MemoryCache,
    hs = Handles.runNew ofCapacity next 1 [.request 0 (.set "k" [1] 0), .share 0,
      .request 1 (.set "k" [2] 100), .request 0 (.wait 99)] ∧
    hs' = hs.step ofCapacity next (.request 1 (.wait 1)) ∧
    hs.targets[0]? = some 0 ∧ ((hs.values 0).get "k").1 = some [2] ∧
    hs'.targets[0]? = some 0 ∧ ((hs'.values 0).get "k").1 = none := by
  let steps : List (Handles.Step Request) := [.request 0 (.set "k" [1] 0), .share 0,
    .request 1 (.set "k" [2] 100), .request 0 (.wait 99)]
  obtain ⟨-, hfound, -⟩ := get_iff_unexpired 1 steps (h := 0) (i := 0) rfl rfl rfl
    (hadRoom_of_card_le (by decide +kernel))
  obtain ⟨-, hgone, -⟩ := get_iff_unexpired 1 (steps ++ [.request 1 (.wait 1)]) (h := 0) (i := 0)
    rfl rfl rfl (hadRoom_of_card_le (by decide +kernel))
  have hunset : Unset [.wait 99] "k" := by simp [Unset]
  have hunset' : Unset [.wait 99, .wait 1] "k" := by simp [Unset]
  exact ⟨_, _, rfl, rfl, rfl, hfound [.set "k" [1] 0] "k" [2] 100 _ rfl hunset, rfl,
    hgone [.set "k" [1] 0] "k" [2] 100 _ rfl hunset'⟩

end MemoryCache

end ObjectTiers
