/-
Runs over handles. A step is a request through a handle, one more handle of the same value, or a
handle of a new value. What stands behind a handle is what the requests that came through any of
the value's handles have made of a new value, in their order, and nothing else has a part in it
(`Handles.exists_eq_foldl`, `Handles.get?_step_of_none`).
-/
import Mathlib.Data.List.Induction
import ObjectTiers.Handles

namespace ObjectTiers.Handles

variable {α ρ : Type}

/-- What is done with handles. A new value is made with a capacity. -/
inductive Step (ρ : Type)
  | request (h : Nat) (q : ρ)
  | share (h : Nat)
  | fresh (capacity : Nat)

section

variable (new : Nat → α) (next : α → ρ → α)

/-- The handles after a step. There is nothing behind a handle that was not given out yet. -/
def step (hs : Handles α) : Step ρ → Handles α
  | .request h q =>
    match hs.get? h with
    | some a => hs.set h (next a q)
    | none => hs
  | .share h => hs.share h
  | .fresh n => hs.fresh (new n)

/-- The handles after steps. -/
def run (hs : Handles α) (steps : List (Step ρ)) : Handles α := steps.foldl (step new next) hs

/-- What a step asks of the value with a number. -/
def request? (hs : Handles α) (i : Nat) : Step ρ → Option ρ
  | .request h q => if hs.targets[h]? = some i then some q else none
  | .share _ => none
  | .fresh _ => none

/-- What a run asks of the value with a number, through whichever of its handles. -/
def requests (hs : Handles α) (i : Nat) : List (Step ρ) → List ρ
  | [] => []
  | st :: steps => (hs.request? i st).toList ++ requests (hs.step new next st) i steps

/-- The handles after a run that starts with one handle of one new value. -/
def runNew (capacity : Nat) (steps : List (Step ρ)) : Handles α :=
  (single (new capacity)).run new next steps

/-- What such a run asks of the value with a number. -/
def requestsNew (capacity : Nat) (steps : List (Step ρ)) (i : Nat) : List ρ :=
  (single (new capacity)).requests new next i steps

end

variable {new : Nat → α} {next : α → ρ → α} {hs : Handles α} {st : Step ρ} {h i k : Nat}

theorem run_append (hs : Handles α) (steps : List (Step ρ)) (st : Step ρ) :
    hs.run new next (steps ++ [st]) = (hs.run new next steps).step new next st := by
  simp [run]

theorem requests_append (hs : Handles α) (i : Nat) (steps : List (Step ρ)) (st : Step ρ) :
    hs.requests new next i (steps ++ [st]) =
      hs.requests new next i steps ++ ((hs.run new next steps).request? i st).toList := by
  induction steps generalizing hs with
  | nil => simp [requests, run]
  | cons first steps ih =>
    simp only [List.cons_append, requests, ih, List.append_assoc]
    rfl

/-! ### One step -/

@[simp] theorem targets_set (hs : Handles α) (h : Nat) (a : α) :
    (hs.set h a).targets = hs.targets := by
  unfold set
  split <;> rfl

theorem get?_eq (hi : hs.targets[h]? = some i) : hs.get? h = some (hs.values i) := by
  simp [get?, hi]

theorem values_set (hs : Handles α) (h i : Nat) (a : α) :
    (hs.set h a).values i = if hs.targets[h]? = some i then a else hs.values i := by
  unfold set
  cases ht : hs.targets[h]? with
  | none => simp
  | some t =>
    by_cases hit : i = t
    · simp [hit, replaceAt_self]
    · simp [replaceAt_of_ne hs.values a hit, Ne.symm hit]

theorem targets_step (hi : hs.targets[h]? = some i) :
    (hs.step new next st).targets[h]? = some i := by
  have hlt : h < hs.targets.length := (List.getElem?_eq_some_iff.mp hi).1
  cases st with
  | request k q =>
    simp only [step]
    split
    · rw [targets_set, hi]
    · exact hi
  | share k => rw [step, share, List.getElem?_append_left hlt, hi]
  | fresh n => rw [step, fresh, List.getElem?_append_left hlt, hi]

/-- Values have numbers below the number of handles, so a new value gets one of its own. -/
def Numbered (hs : Handles α) : Prop := ∀ i ∈ hs.targets, i < hs.size

theorem mem_targets_step (hi : i ∈ (hs.step new next st).targets) :
    i ∈ hs.targets ∨ (i = hs.size ∧ ∃ n, st = .fresh n) := by
  cases st with
  | request k q =>
    simp only [step] at hi
    split at hi
    · exact .inl (by simpa using hi)
    · exact .inl hi
  | share k =>
    simp only [step, share, List.mem_append, Option.mem_toList] at hi
    exact .inl (hi.elim id List.mem_of_getElem?)
  | fresh n =>
    simp only [step, fresh, List.mem_append, List.mem_singleton] at hi
    exact hi.imp_right fun h => ⟨h, n, rfl⟩

theorem size_le_step (new : Nat → α) (next : α → ρ → α) (hs : Handles α) (st : Step ρ) :
    hs.size ≤ (hs.step new next st).size := by
  cases st with
  | request k q =>
    simp only [step]
    split
    · simp [size]
    · exact Nat.le_refl _
  | share k => simp [step, share, size]
  | fresh n => simp [step, fresh, size]

theorem Numbered.step (hn : hs.Numbered) : (hs.step new next st).Numbered := by
  intro i hi
  have hsize := size_le_step new next hs st
  rcases mem_targets_step hi with hi | ⟨rfl, n, rfl⟩
  · exact Nat.lt_of_lt_of_le (hn i hi) hsize
  · simp [Handles.step, fresh, size]

/-- A value is changed by what is asked of it, and by nothing else. -/
theorem values_step (hn : hs.Numbered) (hi : i ∈ hs.targets) :
    (hs.step new next st).values i = (hs.request? i st).toList.foldl next (hs.values i) := by
  cases st with
  | request k q =>
    simp only [step, request?]
    cases ht : hs.targets[k]? with
    | none => simp [get?, ht]
    | some t =>
      rw [get?_eq ht]
      dsimp only
      rw [values_set, ht]
      by_cases hti : t = i
      · simp [hti]
      · simp [hti]
  | share k => rfl
  | fresh n =>
    have hne : i ≠ hs.size := Nat.ne_of_lt (hn i hi)
    simp [step, fresh, request?, replaceAt_of_ne _ _ hne]

theorem get?_step_of_none (hn : hs.Numbered) (hi : hs.targets[h]? = some i)
    (hst : hs.request? i st = none) : (hs.step new next st).get? h = hs.get? h := by
  rw [get?_eq hi, get?_eq (targets_step hi), values_step hn (List.mem_of_getElem? hi), hst]
  rfl

/-- What is asked through one handle shows through every handle of the value. -/
theorem get?_step_request (hn : hs.Numbered) (hh : hs.targets[h]? = some i)
    (hk : hs.targets[k]? = some i) (q : ρ) :
    (hs.step new next (.request h q)).get? k = some (next (hs.values i) q) := by
  rw [get?_eq (targets_step hk), values_step hn (List.mem_of_getElem? hk), request?, if_pos hh]
  rfl

/-! ### Runs -/

/-- The handles are numbered, and behind them stands what the logged requests have made of new
values. Nothing was asked yet of a value that is not there. -/
structure Traces (new : Nat → α) (next : α → ρ → α) (hs : Handles α) (log : Nat → List ρ) :
    Prop where
  numbered : hs.Numbered
  values_eq : ∀ i ∈ hs.targets, ∃ capacity, hs.values i = (log i).foldl next (new capacity)
  unasked : ∀ i, hs.size ≤ i → log i = []

theorem traces_single (new : Nat → α) (next : α → ρ → α) (capacity : Nat) :
    (single (new capacity)).Traces new next fun _ => [] where
  numbered := by simp [Numbered, single, size]
  values_eq := fun _ _ => ⟨capacity, rfl⟩
  unasked := fun _ _ => rfl

theorem Traces.step {log : Nat → List ρ} (h : hs.Traces new next log) (st : Step ρ) :
    (hs.step new next st).Traces new next fun i => log i ++ (hs.request? i st).toList where
  numbered := h.numbered.step
  values_eq := by
    intro i hi
    rcases mem_targets_step hi with hi | ⟨rfl, n, rfl⟩
    · obtain ⟨capacity, hvalue⟩ := h.values_eq i hi
      exact ⟨capacity, by rw [values_step h.numbered hi, hvalue, List.foldl_append]⟩
    · -- the number is new, so nothing was asked under it
      refine ⟨n, ?_⟩
      rw [h.unasked hs.size (Nat.le_refl _)]
      simp [Handles.step, fresh, request?, replaceAt_self]
  unasked := by
    intro i hi
    have hsize : hs.size ≤ i := Nat.le_trans (size_le_step new next hs st) hi
    have hnone : hs.request? i st = none := by
      cases st with
      | request k q =>
        refine if_neg fun ht => ?_
        have := h.numbered i (List.mem_of_getElem? ht)
        omega
      | share k => rfl
      | fresh n => rfl
    simp [h.unasked i hsize, hnone]

theorem traces_runNew (new : Nat → α) (next : α → ρ → α) (capacity : Nat)
    (steps : List (Step ρ)) : (runNew new next capacity steps).Traces new next
      (requestsNew new next capacity steps) := by
  induction steps using List.reverseRecOn with
  | nil => exact traces_single new next capacity
  | append_singleton steps st ih =>
    have hlog : requestsNew new next capacity (steps ++ [st]) = fun i =>
        requestsNew new next capacity steps i ++
          ((runNew new next capacity steps).request? i st).toList := by
      funext i
      exact requests_append _ i steps st
    rw [hlog, runNew, run_append]
    exact ih.step st

theorem exists_eq_foldl {capacity : Nat} {steps : List (Step ρ)}
    (hi : (runNew new next capacity steps).targets[h]? = some i) :
    ∃ n, (runNew new next capacity steps).values i =
      (requestsNew new next capacity steps i).foldl next (new n) :=
  (traces_runNew new next capacity steps).values_eq i (List.mem_of_getElem? hi)

end ObjectTiers.Handles
