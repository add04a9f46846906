/-
A memory as a map from keys to values of any types. A value is live under a key from its insertion
until another takes its place, the key is removed, the memory is cleared, or the key is looked up at
another type (`Memory.Live`); a memory with room for all keys that are inserted finds the live
values and nothing else, through whichever of its handles it is asked, and whatever becomes of other
memories in between (`Memory.answers_iff_live`).
-/
import ObjectTiers.Proofs.Handles
import ObjectTiers.Proofs.Tier.Places

namespace ObjectTiers.Memory

/-- What a memory is asked; `settle` is its own upkeep, which may be done at any time. -/
inductive Request (V τ : Type)
  | insert (key : String) (c : V)
  | get (t : τ) (key : String)
  | remove (key : String)
  | contains (key : String)
  | clear
  | settle

variable {V τ : Type}

section

variable {history : List (Request V τ)} {key : String} {c : V}

/-- The keys that something is put under. -/
def insertedKeys (history : List (Request V τ)) : Finset String :=
  (history.filterMap fun
    | .insert key _ => some key
    | _ => none).toFinset

theorem mem_insertedKeys (h : .insert key c ∈ history) : key ∈ insertedKeys history := by
  rw [insertedKeys, List.mem_toFinset, List.mem_filterMap]
  exact ⟨_, h, rfl⟩

/-- What ends the life of a value of a type under a key. -/
def Request.Ends (key : String) (t : τ) : Request V τ → Prop
  | .insert k _ => k = key
  | .get u k => k = key ∧ u ≠ t
  | .remove k => k = key
  | .contains _ => False
  | .clear => True
  | .settle => False

variable [Typed V τ] {q : Request V τ}

/-- The value was put under the key, and nothing has ended its life since. -/
def Live (history : List (Request V τ)) (key : String) (c : V) : Prop :=
  ∃ before after, history = before ++ .insert key c :: after ∧
    ∀ q ∈ after, ¬ q.Ends key (Typed.type c)

theorem not_live_nil : ¬ Live ([] : List (Request V τ)) key c := by
  rintro ⟨before, after, h, -⟩
  simp at h

/-- A value is live after a request that has put it there, or that has not ended its life. -/
theorem live_append : Live (history ++ [q]) key c ↔
    q = .insert key c ∨ (Live history key c ∧ ¬ q.Ends key (Typed.type c)) := by
  constructor
  · rintro ⟨before, after, hsplit, hafter⟩
    rcases List.eq_nil_or_concat after with rfl | ⟨after, last, rfl⟩
    · exact .inl (List.singleton_inj.mp (List.append_inj' hsplit rfl).2)
    · rw [List.concat_eq_append, ← List.cons_append, ← List.append_assoc] at hsplit
      obtain ⟨rfl, hlast⟩ := List.append_inj' hsplit rfl
      cases hlast
      simp only [List.concat_eq_append, List.mem_append, List.mem_singleton] at hafter
      exact .inr ⟨⟨before, after, rfl, fun q hq => hafter q (.inl hq)⟩, hafter _ (.inr rfl)⟩
  · rintro (rfl | ⟨⟨before, after, rfl, hafter⟩, hq⟩)
    · exact ⟨history, [], rfl, by simp⟩
    · refine ⟨before, after ++ [q], by simp, fun p hp => ?_⟩
      rcases List.mem_append.mp hp with hp | hp
      · exact hafter p hp
      · rwa [List.mem_singleton.mp hp]

end

/-! ### One request -/

variable [Typed V τ] [DecidableEq τ] {m : Memory V} {q : Request V τ}
  {history : List (Request V τ)} {key j : String} {c : V} {t : τ} {keys : Finset String} {n : Nat}

/-- The memory after a request. -/
def next (m : Memory V) : Request V τ → Memory V
  | .insert key c => m.insert key c
  | .get t key => (m.get t key).2.1
  | .remove key => (m.remove key).2
  | .contains _ => m
  | .clear => m.clear
  | .settle => m.settle

theorem capacity_next (m : Memory V) (q : Request V τ) : (m.next q).capacity = m.capacity := by
  cases q with
  | get t key => exact m.capacity_get t key
  | insert | remove | contains | clear | settle => rfl

/-- What stands under a key after a request was put there by it, or has survived it. -/
theorem get?_next (hroom : ∀ key c, q = .insert key c → m.HasRoom key) :
    (m.next q).cells.get? j = some c ↔
      q = .insert j c ∨ (m.cells.get? j = some c ∧ ¬ q.Ends j (Typed.type c)) := by
  cases q with
  | insert key d =>
    rw [next, cells_insert (hroom key d rfl)]
    by_cases hj : j = key
    · subst hj
      simp [Request.Ends]
    · simp [Dictionary.get?_insert_of_ne _ _ hj, Request.Ends, Ne.symm hj]
  | get t key =>
    rw [next, get?_get]
    by_cases hj : j = key
    · subst hj
      simp [Request.Ends, Option.filter_eq_some_iff, eq_comm (a := t)]
    · simp [Request.Ends, hj, Ne.symm hj]
  | remove key =>
    by_cases hj : j = key
    · subst hj
      simp [next, remove, erase, Request.Ends]
    · simp [next, remove, erase, Dictionary.get?_erase_of_ne _ hj, Request.Ends, Ne.symm hj]
  | contains key => simp [next, Request.Ends]
  | clear => simp [next, clear, Request.Ends]
  | settle => simp [next, settle, Request.Ends]

/-- Places are kept in a memory that could hold all the keys by themselves. -/
theorem HasPlaces.next (h : m.HasPlaces keys) (hcard : keys.card ≤ m.capacity)
    (hkeys : ∀ key c, q = .insert key c → key ∈ keys) : (m.next q).HasPlaces keys := by
  cases q with
  | insert key c => exact h.insert (hkeys key c rfl) c
  | get t key => exact h.get t key
  | remove key => exact h.erase key
  | contains key => exact h
  | clear =>
    refine ObjectTiers.HasPlaces.of_card_le ?_
    have hempty : m.clear.size = 0 := rfl
    rw [Memory.next, hempty, Nat.zero_add]
    exact hcard
  | settle => exact h.congr rfl rfl

/-! ### Many requests -/

theorem capacity_foldl (m : Memory V) (history : List (Request V τ)) :
    (history.foldl next m).capacity = m.capacity :=
  List.foldlRecOn (motive := fun m' => m'.capacity = m.capacity) history next rfl
    fun m' h q _ => (m'.capacity_next q).trans h

theorem hasPlaces_foldl (hcard : keys.card ≤ n)
    (hkeys : ∀ key c, .insert key c ∈ history → key ∈ keys) :
    (history.foldl next (ofCapacity n)).HasPlaces keys := by
  induction history using List.reverseRecOn with
  | nil =>
    refine ObjectTiers.HasPlaces.of_card_le ?_
    rw [List.foldl_nil]
    simpa [ofCapacity, size, Dictionary.size, Dictionary.empty] using hcard
  | append_singleton history q ih =>
    rw [List.foldl_append]
    have hbefore := ih fun key c h => hkeys key c (List.mem_append_left _ h)
    refine hbefore.next ?_ ?_
    · rwa [capacity_foldl]
    · rintro key c rfl
      exact hkeys key c (by simp)

/-- In a memory with room for all keys that are inserted stands what is live. -/
theorem get?_foldl (hcard : keys.card ≤ n) (hkeys : ∀ key c, .insert key c ∈ history → key ∈ keys) :
    (history.foldl next (ofCapacity n)).cells.get? key = some c ↔ Live history key c := by
  induction history using List.reverseRecOn with
  | nil => simp [ofCapacity, not_live_nil]
  | append_singleton history q ih =>
    have hbefore : ∀ key c, .insert key c ∈ history → key ∈ keys :=
      fun key c h => hkeys key c (List.mem_append_left _ h)
    have hroom : ∀ key c, q = .insert key c →
        (history.foldl next (ofCapacity n)).HasRoom key := by
      rintro key c rfl
      exact (hasPlaces_foldl hcard hbefore).hasRoom (hkeys key c (by simp))
    rw [List.foldl_append, List.foldl_cons, List.foldl_nil, get?_next hroom, live_append,
      ih hbefore]

theorem contains_iff (m : Memory V) (key : String) :
    m.contains key = true ↔ ∃ c, m.cells.get? key = some c := by
  rw [contains, Dictionary.contains, Option.isSome_iff_exists]

theorem get_fst_iff (m : Memory V) : (m.get t key).1 = some c ↔
    m.cells.get? key = some c ∧ Typed.type c = t := by
  simp [get_fst, Option.filter_eq_some_iff]

theorem get_other_type (h : m.cells.get? key = some c) (ht : Typed.type c ≠ t) :
    (m.get t key).1 = none ∧ (m.get t key).2.2 = [.otherType] ∧
      (m.get t key).2.1.contains key = false ∧
      ∀ u, ((m.get t key).2.1.get u key).1 = none := by
  have hgone : (m.get t key).2.1.cells.get? key = none := by
    simp [get?_get, h, Option.filter, ht]
  refine ⟨?_, ?_, (contains_eq_false_iff _ _).mpr hgone, ?_⟩
  · simp [get_fst, h, Option.filter, ht]
  · rw [warnings_get h, if_neg ht]
  · intro u
    simp [get_fst, hgone]

/-- What a memory answers after any run, through any of its handles, if it has room for all keys
that were inserted through them. A look-up finds what is live under the key at exactly its type. If
that has another type, the look-up finds nothing and warns, and from then on nothing is under the
key. There is a value under a key, to be seen or removed, exactly if one is live. What is asked
through one handle shows through all handles of the memory, and what is done with handles of other
memories changes nothing. -/
theorem answers_iff_live (capacity : Nat) (steps : List (Handles.Step (Request V τ)))
    {hs : Handles (Memory V)} (hrun : hs = Handles.runNew ofCapacity next capacity steps)
    {h i : Nat} (hh : hs.targets[h]? = some i)
    (hhistory : history = Handles.requestsNew ofCapacity next capacity steps i)
    (hcard : (insertedKeys history).card ≤ (hs.values i).capacity) :
    hs.get? h = some (hs.values i) ∧
    (∀ t key c, ((hs.values i).get t key).1 = some c ↔ Live history key c ∧ Typed.type c = t) ∧
    (∀ t key c, Live history key c → Typed.type c ≠ t →
      ((hs.values i).get t key).1 = none ∧ ((hs.values i).get t key).2.2 = [.otherType] ∧
      ((hs.values i).get t key).2.1.contains key = false ∧
      ∀ u, (((hs.values i).get t key).2.1.get u key).1 = none) ∧
    (∀ key, (hs.values i).contains key = true ↔ ∃ c, Live history key c) ∧
    (∀ key, ((hs.values i).remove key).1 = true ↔ ∃ c, Live history key c) ∧
    (∀ k, hs.targets[k]? = some i → ∀ q,
      (hs.step ofCapacity next (.request h q)).get? k = some ((hs.values i).next q)) ∧
    ∀ st, (∀ k q, st = .request k q → hs.targets[k]? ≠ some i) →
      (hs.step ofCapacity next st).get? h = hs.get? h := by
  obtain ⟨n, hvalue⟩ : ∃ n, hs.values i = history.foldl next (ofCapacity n) := by
    subst hrun hhistory
    exact Handles.exists_eq_foldl hh
  have hnumbered : hs.Numbered := by
    subst hrun
    exact (Handles.traces_runNew ofCapacity next capacity steps).numbered
  have hlive (key : String) (c : V) :
      (hs.values i).cells.get? key = some c ↔ Live history key c := by
    rw [hvalue, capacity_foldl] at hcard
    rw [hvalue]
    exact get?_foldl hcard fun _ _ => mem_insertedKeys
  refine ⟨Handles.get?_eq hh, ?_, ?_, ?_, ?_, ?_, ?_⟩
  · intro t key c
    rw [get_fst_iff, hlive]
  · intro t key c hc ht
    exact get_other_type ((hlive key c).mpr hc) ht
  · intro key
    simp only [contains_iff, hlive]
  · intro key
    simp only [remove, contains_iff, hlive]
  · intro k hk q
    exact Handles.get?_step_request hnumbered hh hk q
  · intro st hst
    refine Handles.get?_step_of_none hnumbered hh ?_
    cases st with
    | request k q => exact if_neg (hst k q rfl)
    | share k => rfl
    | fresh n => rfl

/-- A word under a key, seen through a second handle of a memory with room for no more, beside a
memory with a text under the same key. -/
theorem answers_iff_live_shared : ∃ hs : Handles Memory,
    hs = Handles.runNew ofCapacity next 1 [.request 0 (.insert "k" (.word 7)), .share 0, .fresh 1,
      .request 2 (.insert "k" (.text "v"))] ∧
    hs.targets[1]? = some 0 ∧ hs.targets[2]? = some 2 ∧
    ((hs.values 0).get .word "k").1 = some (.word 7) ∧ ((hs.values 0).get .text "k").1 = none ∧
    (∀ u, (((hs.values 0).get .text "k").2.1.get u "k").1 = none) ∧
    ((hs.values 2).get .text "k").1 = some (.text "v") := by
  let steps : List (Handles.Step (Request Cell CellType)) := [.request 0 (.insert "k" (.word 7)),
    .share 0, .fresh 1, .request 2 (.insert "k" (.text "v"))]
  have hword : Live (Handles.requestsNew ofCapacity next 1 steps 0) "k" (.word 7) :=
    ⟨[], [], rfl, by simp⟩
  have htext : Live (Handles.requestsNew ofCapacity next 1 steps 2) "k" (.text "v") :=
    ⟨[], [], rfl, by simp⟩
  obtain ⟨-, hfound, hother, -⟩ :=
    answers_iff_live 1 steps (h := 1) (i := 0) rfl rfl rfl (by decide +kernel)
  obtain ⟨-, hfound₂, -⟩ :=
    answers_iff_live 1 steps (h := 2) (i := 2) rfl rfl rfl (by decide +kernel)
  obtain ⟨hnone, -, -, hgone⟩ := hother .text "k" (.word 7) hword (by decide)
  exact ⟨_, rfl, rfl, rfl, (hfound .word "k" _).mpr ⟨hword, rfl⟩, hnone, hgone,
    (hfound₂ .text "k" _).mpr ⟨htext, rfl⟩⟩

end ObjectTiers.Memory
