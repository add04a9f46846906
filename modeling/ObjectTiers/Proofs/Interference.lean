/-
Commands at different keys do not interfere.

Given one after the other in either order, each comes to the same result, whatever they are and
whatever the tiers fail at, and what the tiers hold in the end is the same as well, up to the times
of rows (`Step.InEitherOrder.commutes`). For each command finds under its key what it would have
found without the other, and then changes nothing but that.
-/
import ObjectTiers.Proofs.Footprint

namespace ObjectTiers

/-- Calls at different places come to the same in either order. -/
theorem foldl_swap {α : Type} {p q : Prop} [Decidable p] [Decidable q] (h : ¬ (p ∧ q))
    (f g : α → Call → α) (a b : List Call) (x : α) :
    (if p then a.foldl f (if q then b.foldl g x else x) else if q then b.foldl g x else x) =
      if q then b.foldl g (if p then a.foldl f x else x) else if p then a.foldl f x else x := by
  by_cases hp : p
  · have hq : ¬ q := fun hq => h ⟨hp, hq⟩
    simp only [hp, hq, if_true, if_false]
  · simp only [hp, if_false]

theorem map_add_comm (o : Option Nat) (a b : Nat) :
    (o.map (· + a)).map (· + b) = (o.map (· + b)).map (· + a) := by
  cases o with
  | none => rfl
  | some n => exact congrArg some (Nat.add_right_comm n a b)

/-- The tiers of two clusters hold the same values and entries, and the same rows up to their times,
and have counted the same calls. -/
structure Cluster.HoldsAs (c c' : Cluster) : Prop where
  memories : ∀ i j, (c'.memories i).cells.get? j = (c.memories i).cells.get? j
  caches : ∀ i j, (c'.caches i).held? j = (c.caches i).held? j
  tables : ∀ i r v, (c'.tables i).view r v = (c.tables i).view r v
  cacheCalls : ∀ i op, (c'.caches i).count? op = (c.caches i).count? op
  tableCalls : ∀ i op, (c'.tables i).count? op = (c.tables i).count? op

namespace Step

/-- A command at another key comes to the same after a step as before it, and makes the same
calls. -/
theorem alike_of_next {st u w : Step} {key other : Key} {keys : Finset String}
    (hkey : st.command.key? = some key) (hplaces : st.tiers.HasPlaces keys)
    (hmem : key.text ∈ keys) (hu : u.found = st.found) (hw : w.found = st.next)
    (hsite : w.site = u.site) (hcommand : w.command.dated 0 = u.command.dated 0)
    (hother : u.command.key? = some other) (hne : other ≠ key) :
    w.result.map (·.dated 0) = u.result.map (·.dated 0) ∧
      (w.calls other).map (·.dated 0) = (u.calls other).map (·.dated 0) := by
  obtain ⟨n, hn⟩ := Command.exists_eq_dated hcommand
  have hother' : w.command.key? = some other := (Command.key?_of_dated hcommand).trans hother
  have halike : Store.AlikeAt other u.tiers w.tiers := by
    rw [tiers, tiers, hu, hw, hsite]
    exact alikeAt_next hkey hplaces hmem hne u.site
  have hoffer (row : Row) : (w.tiers.table.insert row).1 = (u.tiers.table.insert row).1 := by
    rw [tiers, tiers, hu, hw, hsite]
    exact insert_tables_next hkey u.site.table row
  rw [(eq_plan hother).1, (eq_plan hother').1, calls, calls, hn, hsite]
  exact Store.plan_dated hother halike (fun row _ => hoffer row) n

/-- Two commands at different keys, each at its site, given in both orders to the same cluster:
`first` and then `second`, and `second'` and then `first'`, at any times. There are places for both
keys at both sites. -/
structure InEitherOrder (first second second' first' : Step) (k₁ k₂ : Key) : Prop where
  after : second.found = first.next
  start : second'.found = first.found
  after' : first'.found = second'.next
  site₁ : first'.site = first.site
  site₂ : second'.site = second.site
  command₁ : first'.command.dated 0 = first.command.dated 0
  command₂ : second'.command.dated 0 = second.command.dated 0
  key₁ : first.command.key? = some k₁
  key₂ : second.command.key? = some k₂
  ne : k₁ ≠ k₂
  places₁ : (first.found.tiers first.site).HasPlaces {k₁.text, k₂.text}
  places₂ : (first.found.tiers second.site).HasPlaces {k₁.text, k₂.text}

namespace InEitherOrder

variable {first second second' first' : Step} {k₁ k₂ : Key}

theorem mem₁ (k₁ k₂ : Key) : k₁.text ∈ ({k₁.text, k₂.text} : Finset String) := by simp

theorem mem₂ (k₁ k₂ : Key) : k₂.text ∈ ({k₁.text, k₂.text} : Finset String) := by simp

section

variable (h : InEitherOrder first second second' first' k₁ k₂)

include h

theorem key₁' : first'.command.key? = some k₁ :=
  (Command.key?_of_dated h.command₁).trans h.key₁

theorem key₂' : second'.command.key? = some k₂ :=
  (Command.key?_of_dated h.command₂).trans h.key₂

theorem placesSecond : second.tiers.HasPlaces {k₁.text, k₂.text} := by
  have hplaces := hasPlaces_next h.key₁ (mem₁ k₁ k₂) h.places₂
  rwa [← h.after] at hplaces

theorem placesSecond' : second'.tiers.HasPlaces {k₁.text, k₂.text} := by
  have hplaces := h.places₂
  rwa [← h.start, ← h.site₂] at hplaces

theorem placesFirst' : first'.tiers.HasPlaces {k₁.text, k₂.text} := by
  have hplaces := h.places₁
  rw [← h.start] at hplaces
  have hplaces := hasPlaces_next h.key₂' (mem₂ k₁ k₂) hplaces
  rwa [← h.after', ← h.site₁] at hplaces

theorem alike₁ : first'.result.map (·.dated 0) = first.result.map (·.dated 0) ∧
    (first'.calls k₁).map (·.dated 0) = (first.calls k₁).map (·.dated 0) :=
  alike_of_next h.key₂' h.placesSecond' (mem₂ k₁ k₂) h.start.symm h.after' h.site₁ h.command₁
    h.key₁ h.ne

theorem alike₂ : second.result.map (·.dated 0) = second'.result.map (·.dated 0) ∧
    (second.calls k₂).map (·.dated 0) = (second'.calls k₂).map (·.dated 0) :=
  alike_of_next h.key₁ h.places₁ (mem₁ k₁ k₂) h.start h.after h.site₂.symm h.command₂.symm
    h.key₂' h.ne.symm

theorem holdsAs : second.next.HoldsAs first'.next := by
  have htexts (a b : Prop) (j : String) : ¬ ((a ∧ j = k₁.text) ∧ b ∧ j = k₂.text) :=
    fun hj => h.ne (Key.text_injective (hj.1.2.symm.trans hj.2.2))
  have hids (a b : Prop) (r : String) (v : UInt16) :
      ¬ ((a ∧ r = k₁.objectRef ∧ v = k₁.version) ∧ b ∧ r = k₂.objectRef ∧ v = k₂.version) := by
    rintro ⟨⟨-, hr₁, hv₁⟩, -, hr₂, hv₂⟩
    exact h.ne (Key.eq_of_parts (hr₁.symm.trans hr₂) (hv₁.symm.trans hv₂))
  have hcalls₁ := h.alike₁.2
  have hcalls₂ := h.alike₂.2
  constructor
  · intro i j
    rw [get?_next h.key₁' h.placesFirst' (mem₁ k₁ k₂), h.after',
      get?_next h.key₂' h.placesSecond' (mem₂ k₁ k₂), h.start,
      get?_next h.key₂ h.placesSecond (mem₂ k₁ k₂), h.after,
      get?_next h.key₁ h.places₁ (mem₁ k₁ k₂), h.site₁, h.site₂]
    rw [Call.foldl_cell_of_dated hcalls₁, Call.foldl_cell_of_dated hcalls₂]
    exact foldl_swap (htexts _ _ j) _ _ _ _ _
  · intro i j
    rw [held?_next h.key₁' h.placesFirst' (mem₁ k₁ k₂), h.after',
      held?_next h.key₂' h.placesSecond' (mem₂ k₁ k₂), h.start,
      held?_next h.key₂ h.placesSecond (mem₂ k₁ k₂), h.after,
      held?_next h.key₁ h.places₁ (mem₁ k₁ k₂), h.site₁, h.site₂,
      fails_caches_next h.key₂', ending_caches_next h.key₂', h.start,
      fails_caches_next h.key₁, ending_caches_next h.key₁]
    rw [Call.foldl_entry_of_dated hcalls₁, Call.foldl_entry_of_dated hcalls₂]
    exact foldl_swap (htexts _ _ j) _ _ _ _ _
  · intro i r v
    rw [view_next h.key₁', h.after', view_next h.key₂', h.start, view_next h.key₂, h.after,
      view_next h.key₁, h.site₁, h.site₂]
    simp only [insert_tables_next h.key₂', h.start, insert_tables_next h.key₁]
    rw [Call.foldl_view_of_dated hcalls₁, Call.foldl_view_of_dated hcalls₂]
    exact foldl_swap (hids _ _ r v) _ _ _ _ _
  · intro i op
    rw [count?_caches_next h.key₁', h.after', count?_caches_next h.key₂', h.start,
      count?_caches_next h.key₂, h.after, count?_caches_next h.key₁, h.site₁, h.site₂,
      Call.countP_cacheOperation_of_dated hcalls₁, Call.countP_cacheOperation_of_dated hcalls₂]
    exact map_add_comm _ _ _
  · intro i op
    rw [count?_tables_next h.key₁', h.after', count?_tables_next h.key₂', h.start,
      count?_tables_next h.key₂, h.after, count?_tables_next h.key₁, h.site₁, h.site₂,
      Call.countP_tableOperation_of_dated hcalls₁, Call.countP_tableOperation_of_dated hcalls₂]
    exact map_add_comm _ _ _

end

/-- In either order two commands at different keys come to the same results, up to the times of
rows, and leave tiers that hold the same. Each of them changes nothing at any other key. -/
theorem commutes (h : InEitherOrder first second second' first' k₁ k₂) :
    first'.result.map (·.dated 0) = first.result.map (·.dated 0) ∧
    second'.result.map (·.dated 0) = second.result.map (·.dated 0) ∧
    second.next.HoldsAs first'.next ∧
    first.found.SparesOthers k₁ first.next ∧ second.found.SparesOthers k₂ second.next ∧
    second'.found.SparesOthers k₂ second'.next ∧ first'.found.SparesOthers k₁ first'.next :=
  ⟨h.alike₁.1, h.alike₂.1.symm, h.holdsAs, sparesOthers h.key₁ h.places₁ (mem₁ k₁ k₂),
    sparesOthers h.key₂ h.placesSecond (mem₂ k₁ k₂),
    sparesOthers h.key₂' h.placesSecond' (mem₂ k₁ k₂),
    sparesOthers h.key₁' h.placesFirst' (mem₁ k₁ k₂)⟩

end InEitherOrder

open Cluster (trial trialSite trialSecret trialItem trialPut trialRead)

/-- A write of one object and a read of another, which is written already. -/
theorem commutes_trial : ∃ (x : Item) (c : Cluster) (first second second' first' : Step),
    x = ⟨"b", 1, .smtp "h" 25⟩ ∧ c = (trialPut x trial).next ∧ first = trialPut trialItem c ∧
    second = trialRead x first.next ∧ second' = trialRead x c ∧
    first' = ⟨trialSite, .put trialItem (some trialSecret) (List.replicate 12 1) 5, second'.next⟩ ∧
    first.result.isOk = true ∧ second.result.isOk = true ∧
    first'.result.map (·.dated 0) = first.result.map (·.dated 0) ∧
    second'.result.map (·.dated 0) = second.result.map (·.dated 0) ∧
    second.next.HoldsAs first'.next := by
  obtain ⟨x, hx⟩ : ∃ x : Item, x = ⟨"b", 1, .smtp "h" 25⟩ := ⟨_, rfl⟩
  obtain ⟨c, hc⟩ : ∃ c, c = (trialPut x trial).next := ⟨_, rfl⟩
  obtain ⟨first, hfirst⟩ : ∃ first, first = trialPut trialItem c := ⟨_, rfl⟩
  obtain ⟨second, hsecond⟩ : ∃ second, second = trialRead x first.next := ⟨_, rfl⟩
  obtain ⟨second', hsecond'⟩ : ∃ second', second' = trialRead x c := ⟨_, rfl⟩
  obtain ⟨first', hfirst'⟩ : ∃ first' : Step, first' =
    ⟨trialSite, .put trialItem (some trialSecret) (List.replicate 12 1) 5, second'.next⟩ :=
    ⟨_, rfl⟩
  have hkey : (trialPut x trial).command.key? = some ⟨"b", 1⟩ := by
    rw [hx]
    decide +kernel
  have hplaces : (c.tiers trialSite).HasPlaces {(Key.mk "b" 1).text, (Key.mk "a" 1).text} := by
    have hsize : (trial.tiers trialSite).memory.size +
        ({(Key.mk "b" 1).text, (Key.mk "a" 1).text} : Finset String).card ≤
          (trial.tiers trialSite).memory.capacity :=
      Nat.le_trans (Nat.add_le_add_left Finset.card_le_two 0) (by decide)
    rw [hc]
    exact hasPlaces_next hkey (by simp)
      ⟨.of_card_le hsize, trivial⟩
  have horder : InEitherOrder first second second' first' ⟨"a", 1⟩ ⟨"b", 1⟩ := {
    after := by rw [hsecond]; rfl
    start := by rw [hsecond', hfirst]; rfl
    after' := by rw [hfirst']
    site₁ := by rw [hfirst', hfirst]; rfl
    site₂ := by rw [hsecond', hsecond]; rfl
    command₁ := by rw [hfirst', hfirst]; rfl
    command₂ := by rw [hsecond', hsecond]; rfl
    key₁ := by
      rw [hfirst]
      show Command.key? (.put trialItem (some trialSecret) (List.replicate 12 1) 0) = _
      decide +kernel
    key₂ := by
      rw [hsecond]
      exact hkey
    ne := by decide
    places₁ := by
      rw [hfirst, Finset.pair_comm]
      exact hplaces
    places₂ := by
      rw [hfirst, hsecond, Finset.pair_comm]
      exact hplaces }
  obtain ⟨h₁, h₂, hholds, -⟩ := horder.commutes
  refine ⟨x, c, first, second, second', first', hx, hc, hfirst, hsecond, hsecond', hfirst', ?_, ?_,
    h₁, h₂, hholds⟩
  · rw [hfirst, hc, hx]
    decide +kernel
  · rw [hsecond, hfirst, hc, hx]
    decide +kernel

end Step

end ObjectTiers
