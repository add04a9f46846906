/-
What operations leave behind that fail.

A write that fails changes nothing, and a removal that fails has at most taken the object out of
the memory. A read that fails has at most dropped a value of another type under its key, unless it
fails for the cache, which it could not write: by then it has put the item into the memory, as far
as that had room for it (`Store.tiers_of_error`).
-/
import ObjectTiers.Proofs.Degraded

namespace ObjectTiers

/-- Whether an error is a failure to write into the cache. -/
def StoreError.isUnwritten : StoreError → Bool
  | .cache (.operation .set _ _) => true
  | _ => false

/-- Whether an error is one of opening a payload: it lacks its secret, or is not what it should
be. -/
def StoreError.isOfPayload : StoreError → Bool
  | .envelope _ | .secretRequired _ _ _ | .secret _ => true
  | _ => false

theorem StoreError.isUnwritten_of_isOfPayload {e : StoreError} (h : e.isOfPayload = true) :
    e.isUnwritten = false := by
  cases e <;> first | rfl | cases h

/-- Only a policy that gives errors to the caller makes one of a failure of the cache. -/
theorem Policy.of_outcome_error {p : Policy} {failure : CacheError} {e : StoreError}
    (h : p.outcome failure = .error e) : p = .throw ∧ e = .cache failure := by
  cases p with
  | throw => cases h; exact ⟨rfl, rfl⟩
  | log | ignore => cases h

/-- The cells once an item of a kind was looked for under an identity. -/
def Memory.sought (m : Memory) (k : Kind) (r : String) (v : UInt16) : Dictionary String Cell :=
  match Identity.validate r v with
  | .ok key => m.sifted k key.text
  | .error _ => m.cells

namespace Store

variable {s : Store} {k : Kind} {key : Key} {useCache : Bool} {secret : Option Secret}
  {t t' : Tiers} {c c' : Cache} {r : String} {v : UInt16} {o : ReadOptions} {σ : Session}
  {e : StoreError}

/-! ### Errors -/

theorem isOfPayload_of_resolveSecret {keyId : String}
    (h : s.resolveSecret key keyId secret = .error e) : e.isOfPayload = true := by
  unfold resolveSecret at h
  split at h
  · cases h
  split at h
  · cases h; rfl
  split at h
  · cases h
  · cases h; rfl

theorem isOfPayload_of_materialize {row : Row} (h : s.materialize k key row secret = .error e) :
    e.isOfPayload = true := by
  unfold materialize at h
  split at h
  · split at h
    · next e' hsecret =>
      cases h
      exact isOfPayload_of_resolveSecret hsecret
    split at h
    · cases h
    · cases h; rfl
  · split at h
    · cases h
    · cases h; rfl

theorem isOfPayload_of_judge {b : Bytes} (h : s.judge k key secret b = .fail e) :
    e.isOfPayload = true := by
  unfold judge at h
  split at h
  · cases h
  split at h
  · cases h
  split at h
  · cases h
  unfold judgePayload at h
  split at h
  · split at h
    · cases h
    split at h <;> cases h
  · split at h
    · cases h
    split at h
    · next e' hsecret =>
      cases h
      exact isOfPayload_of_resolveSecret hsecret
    split at h
    · cases h
    · cases h; rfl

/-! ### Steps of a read -/

theorem Probes.fresh_eq {found : Except StoreError (Option Item)}
    (h : Probes s k key secret useCache c found c') : c'.fresh = c.fresh := by
  rcases h.cache_eq with rfl | rfl
  · rfl
  · exact c.fresh_get key.text

theorem Probes.isUnwritten (h : Probes s k key secret useCache c (.error e) c') :
    e.isUnwritten = false := by
  generalize hres : (Except.error e : Except StoreError (Option Item)) = res at h
  cases h with
  | unused c => cases hres
  | absent h => cases hres
  | @failed c c' failure h =>
    cases hout : s.config.policy.outcome failure with
    | ok u => rw [hout] at hres; cases hres
    | error e' =>
      rw [hout] at hres
      cases hres
      obtain ⟨-, rfl⟩ := Policy.of_outcome_error hout
      rw [Cache.eq_injected_of_get h]
      rfl
  | @found c c' b h =>
    cases hj : s.judge k key secret b with
    | hit x => rw [hj] at hres; cases hres
    | discard w => rw [hj] at hres; cases hres
    | fail e' =>
      rw [hj] at hres
      cases hres
      exact StoreError.isUnwritten_of_isOfPayload (isOfPayload_of_judge hj)

theorem Writes.of_error {entry : Entry} (h : Writes s key entry c (.error e) c') :
    e.isUnwritten = true ∧ s.config.policy = .throw ∧ c'.fresh = c.fresh := by
  generalize hres : (Except.error e : Except StoreError Unit) = res at h
  cases h with
  | oversize hb =>
    obtain ⟨hpolicy, rfl⟩ := Policy.of_outcome_error hres.symm
    exact ⟨rfl, hpolicy, rfl⟩
  | failed hb h =>
    obtain ⟨hpolicy, rfl⟩ := Policy.of_outcome_error hres.symm
    obtain ⟨rfl, hfresh⟩ := Cache.fresh_set_error h
    exact ⟨rfl, hpolicy, hfresh⟩
  | written hb h => cases hres

/-- What a read that fails at the table, or behind it, has done to the memory: nothing, or the item
was put there and could not be written into the cache. -/
inductive Backfills (s : Store) (k : Kind) (key : Key) (secret : Option Secret) (t : Tiers)
    (e : StoreError) (m : Memory) : Prop
  | before (he : e.isUnwritten = false) (hm : m = t.memory)
  | behind {row : Row} {x : Item} (he : e.isUnwritten = true) (hpolicy : s.config.policy = .throw)
    (hrow : t.table.peek key.objectRef key.version = .ok (some row))
    (hx : s.materialize k key row secret = .ok x)
    (hm : m = t.memory.insert key.text (.item x))

theorem Loads.of_error (h : Loads s k key useCache secret t (.error e) t') :
    t'.table.peek = t.table.peek ∧ t'.cache.fresh = t.cache.fresh ∧
      Backfills s k key secret t e t'.memory := by
  have htable := Table.peek_find t.table key.objectRef key.version
  generalize hres : (Except.error e : Except StoreError Fetched) = res at h
  cases h with
  | failed h =>
    cases hres
    exact ⟨htable, rfl, .before rfl rfl⟩
  | absent h =>
    cases hres
    exact ⟨htable, rfl, .before rfl rfl⟩
  | unreadable h hx =>
    cases hres
    exact ⟨htable, rfl,
      .before (StoreError.isUnwritten_of_isOfPayload (isOfPayload_of_materialize hx)) rfl⟩
  | uncacheable h hx huse hform =>
    cases hres
    refine ⟨htable, rfl, .before ?_ rfl⟩
    unfold cacheForm at hform
    split at hform <;> cases hform
    rfl
  | uncached h hx hform => cases hres
  | @cached row x p r c h hx huse hform hwrite =>
    cases r with
    | ok u => cases hres
    | error e' =>
      cases hres
      obtain ⟨he, hpolicy, hfresh⟩ := hwrite.of_error
      exact ⟨htable, hfresh, .behind he hpolicy (Table.peek_of_find h) hx rfl⟩

/-! ### Reads -/

/-- What a read leaves that fails. The table and the cache are as they were. In the memory a value
of another type is gone from under the key; only if the item that was read could not be written
into the cache is it put there, beside everything else if there is room, and if not, in the place of
another value or not at all. -/
structure FailedRead (s : Store) (k : Kind) (r : String) (v : UInt16) (secret : Option Secret)
    (e : StoreError) (t t' : Tiers) : Prop where
  table : t'.table.peek = t.table.peek
  cache : t'.cache.fresh = t.cache.fresh
  capacity : t'.memory.capacity = t.memory.capacity
  cells : e.isUnwritten = false → t'.memory.cells = t.memory.sought k r v
  backfill : e.isUnwritten = true → s.config.policy = .throw ∧ ∃ row x p,
    t.table.peek r v = .ok (some row) ∧ s.materialize k ⟨r, v⟩ row secret = .ok x ∧
      t'.memory.cells =
        Placement.insert p (t.memory.sought k r v) (Key.mk r v).text (.item x) ∧
      (p = .added ↔ (t.memory.sought k r v).size < t.memory.capacity) ∧
      ∀ old, p = .replaces old → (t.memory.sought k r v).contains old = true

theorem Fetches.of_error (h : Fetches s k r v o t (.error e) t') :
    s.FailedRead k r v o.secret e t t' := by
  generalize hres : (Except.error e : Except StoreError Fetched) = res at h
  cases h with
  | invalid hkey =>
    cases hres
    have hsought : t.memory.sought k r v = t.memory.cells := by rw [Memory.sought, hkey]
    exact ⟨rfl, rfl, rfl, fun _ => hsought.symm, nofun⟩
  | memory hkey hm => cases hres
  | cache hkey hm hc => cases hres
  | refused hkey hm hc =>
    cases hres
    obtain ⟨hcells, hcapacity, -⟩ := Memory.cells_getItem hm
    refine ⟨rfl, hc.fresh_eq, hcapacity, fun _ => ?_, fun he => ?_⟩
    · rw [Memory.sought, hkey]
      exact hcells
    · rw [hc.isUnwritten] at he
      cases he
  | table hkey hm hc hload =>
    subst hres
    cases Identity.eq_of_validate hkey
    obtain ⟨hcells, hcapacity, hnone⟩ := Memory.cells_getItem hm
    obtain ⟨htable, hfresh, hmemory⟩ := hload.of_error
    have hsought : t.memory.sought k r v = t.memory.sifted k (Key.mk r v).text := by
      rw [Memory.sought, hkey]
    cases hmemory with
    | before he hm' =>
      refine ⟨htable, hfresh.trans hc.fresh_eq, ?_, fun _ => ?_, fun he' => ?_⟩
      · rw [hm', hcapacity]
      · rw [hm', hsought, hcells]
      · rw [he] at he'
        cases he'
    | @behind row x he hpolicy hrow hx hm' =>
      refine ⟨htable, hfresh.trans hc.fresh_eq, ?_, fun he' => ?_, fun _ => ?_⟩
      · rw [hm']
        exact hcapacity
      · rw [he] at he'
        cases he'
      · obtain ⟨p, hp, hadded, hold⟩ := Memory.cells_insert_of_none hnone (.item x)
        rw [hsought, ← hcells]
        refine ⟨hpolicy, row, x, p, hrow, hx, ?_, ?_, hold⟩
        · rw [hm', hp]
        · rw [hadded, ← hcapacity]
          rfl

theorem failedRead_of_fetch (h : (s.fetch k r v o σ).1 = .error e) :
    s.FailedRead k r v o.secret e σ.tiers (s.fetch k r v o σ).2.tiers :=
  Fetches.of_error (h ▸ s.fetch_cases k r v o σ)

/-! ### Removals -/

theorem Purges.of_error (h : Purges s r v t (.error e) t') :
    t'.table = t.table ∧ t'.cache.fresh = t.cache.fresh ∧
      (t'.memory = t.memory ∨ s.config.policy = .throw ∧
        e = .cache (TrialCache.injected .delete (Key.mk r v).text) ∧
        t'.memory = t.memory.erase (Key.mk r v).text) := by
  generalize hres : (Except.error e : Except StoreError Unit) = res at h
  cases h with
  | invalid hkey => exact ⟨rfl, rfl, .inl rfl⟩
  | failed hkey h =>
    cases Identity.eq_of_validate hkey
    obtain ⟨hpolicy, rfl⟩ := Policy.of_outcome_error hres.symm
    obtain ⟨rfl, hfresh⟩ := Cache.fresh_delete_error h
    exact ⟨rfl, hfresh, .inr ⟨hpolicy, rfl, rfl⟩⟩
  | purged hkey h => cases hres

/-! ### Operations that fail -/

/-- A write that fails leaves all tiers as they were. A read that fails leaves the table and the
cache, and the memory but for what `FailedRead` says. A removal that fails leaves the table and the
cache, and has taken the key out of the memory only if the cache could not delete it and the policy
gives that to the caller. -/
theorem tiers_of_error (s : Store) (σ : Session) :
    (∀ x secret nonce now e, (s.put x secret nonce now σ).1 = .error e →
      (s.put x secret nonce now σ).2.tiers.memory = σ.tiers.memory ∧
      (s.put x secret nonce now σ).2.tiers.cache = σ.tiers.cache ∧
      (s.put x secret nonce now σ).2.tiers.table.peek = σ.tiers.table.peek) ∧
    (∀ k r v o e, (s.fetch k r v o σ).1 = .error e →
      s.FailedRead k r v o.secret e σ.tiers (s.fetch k r v o σ).2.tiers) ∧
    (∀ k r v o e, (s.get k r v o σ).1 = .error e →
      s.FailedRead k r v o.secret e σ.tiers (s.get k r v o σ).2.tiers) ∧
    ∀ r v e, (s.purge r v σ).1 = .error e →
      (s.purge r v σ).2.tiers.table = σ.tiers.table ∧
      (s.purge r v σ).2.tiers.cache.fresh = σ.tiers.cache.fresh ∧
      ((s.purge r v σ).2.tiers.memory = σ.tiers.memory ∨ s.config.policy = .throw ∧
        e = .cache (TrialCache.injected .delete (Key.mk r v).text) ∧
        (s.purge r v σ).2.tiers.memory = σ.tiers.memory.erase (Key.mk r v).text) := by
  refine ⟨fun x secret nonce now e h => ?_, fun k r v o e h => failedRead_of_fetch h,
    fun k r v o e h => ?_, fun r v e h => ?_⟩
  · exact (s.put_cases x secret nonce now σ).of_error h
  · rw [get, map_action] at h ⊢
    cases hres : (s.fetch k r v o σ).1 with
    | ok f => rw [hres] at h; cases h
    | error e' =>
      rw [hres] at h
      cases h
      exact failedRead_of_fetch hres
  · exact Purges.of_error (h ▸ s.purge_cases r v σ)

open Cluster (trialSite trialSecret trialItem)

theorem error_of_map {α β : Type} {res : Except StoreError α} {f : α → β}
    (h : res.map f = .error e) : res = .error e := by
  cases res with
  | ok a => cases h
  | error e' => cases h; rfl

/-- An item that could not be written into the cache is in the memory, which had room for it; what
was to be written without a secret, and what was to be removed from the cache, changed nothing
there. -/
theorem tiers_of_error_trial : ∃ s σ o, s = trialSite.store ∧
    σ = degraded trialItem ⟨false, true, true⟩ ∧ o = ⟨none, some trialSecret⟩ ∧
    (s.put trialItem none [] 0 σ).2.tiers.table.peek = σ.tiers.table.peek ∧
    (∃ x, (s.fetch .creds "a" 1 o σ).2.tiers.memory.cells.get? (Key.mk "a" 1).text =
      some (.item x)) ∧
    (s.get .creds "a" 1 o σ).2.tiers.cache.fresh = σ.tiers.cache.fresh ∧
    (s.purge "a" 1 σ).2.tiers.cache.fresh = σ.tiers.cache.fresh := by
  obtain ⟨s, hs⟩ : ∃ s, s = trialSite.store := ⟨_, rfl⟩
  obtain ⟨σ, hσ⟩ : ∃ σ, σ = degraded trialItem ⟨false, true, true⟩ := ⟨_, rfl⟩
  obtain ⟨o, ho⟩ : ∃ o : ReadOptions, o = ⟨none, some trialSecret⟩ := ⟨_, rfl⟩
  have hfetch : (s.fetch .creds "a" 1 o σ).1 =
      .error (.cache (TrialCache.injected .set (Key.mk "a" 1).text)) := by
    refine error_of_map (f := Fetched.tier) ?_
    rw [hs, hσ, ho]
    decide +kernel
  have hget : (s.get .creds "a" 1 o σ).1 =
      .error (.cache (TrialCache.injected .set (Key.mk "a" 1).text)) := by
    rw [get, map_action, hfetch]
    rfl
  have hput : (s.put trialItem none [] 0 σ).1 = .error (.secretRequired "a" 1 none) := by
    rw [hs, hσ]
    rfl
  have hpurge : (s.purge "a" 1 σ).1 =
      .error (.cache (TrialCache.injected .delete (Key.mk "a" 1).text)) := by
    rw [hs, hσ]
    rfl
  obtain ⟨hputs, hreads, hgets, hpurges⟩ := tiers_of_error s σ
  refine ⟨s, σ, o, hs, hσ, ho, (hputs _ _ _ _ _ hput).2.2, ?_, (hgets _ _ _ _ _ hget).cache,
    (hpurges _ _ _ hpurge).2.1⟩
  obtain ⟨-, row, x, p, -, -, hcells, hadded, -⟩ := (hreads _ _ _ _ _ hfetch).backfill rfl
  have hp : p = .added := by
    rw [hadded, hσ]
    decide
  refine ⟨x, ?_⟩
  rw [hcells, hp, Placement.insert, Dictionary.get?_insert_self]

/-! ### Full memories -/

/-- The trial site with two objects in the table, one of which takes all the room in the memory, and
a cache that cannot be written. -/
def crowded : Session :=
  let s := trialSite.store
  let empty : Session := ⟨⟨.ofCapacity 1, .trial .empty, .memory .empty⟩, []⟩
  let first := (s.put ⟨"a", 1, .smtp "h" 25⟩ none [] 0 empty).2
  let second := (s.put ⟨"b", 1, .smtp "h" 25⟩ none [] 0 first).2
  let read := (s.fetch .smtp "b" 1 ⟨none, none⟩ second).2
  { read with tiers := { read.tiers with
      cache := .trial { TrialCache.empty with failures := ⟨false, true, false⟩ } } }

/-- An item that is read and cannot be written into the cache is not always in the memory: a full
one does not take it. -/
theorem unheld_of_crowded : ∃ s σ, s = trialSite.store ∧ σ = crowded ∧
    s.config.policy = .throw ∧
    (s.fetch .smtp "a" 1 ⟨none, none⟩ σ).1 =
      .error (.cache (.operation .set (Key.mk "a" 1).text "injected failure")) ∧
    (∃ row x, σ.tiers.table.peek "a" 1 = .ok (some row) ∧
      s.materialize .smtp ⟨"a", 1⟩ row none = .ok x) ∧
    (s.fetch .smtp "a" 1 ⟨none, none⟩ σ).2.tiers.memory.cells.get? (Key.mk "a" 1).text = none := by
  have hres : (trialSite.store.fetch .smtp "a" 1 ⟨none, none⟩ crowded).1 =
      .error (.cache (.operation .set (Key.mk "a" 1).text "injected failure")) :=
    error_of_map (f := Fetched.tier) (by decide +kernel)
  obtain ⟨-, row, x, -, hrow, hx, -⟩ := (failedRead_of_fetch hres).backfill rfl
  exact ⟨_, _, rfl, rfl, rfl, hres, ⟨row, x, hrow, hx⟩,
    Option.isNone_iff_eq_none.mp (by decide +kernel)⟩

end Store

end ObjectTiers
