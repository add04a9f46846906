/-
Runs of a cluster with their histories. A run is commands at sites, one after another, with
whatever `Outside` allows in between; its log lists the commands, each with the cluster it found,
so that what a command answered can be told from the log.

Two things may be allowed outside. Under `Fades` nothing is written past the stores, but tiers may
lose what they hold, fail from now on or work again. Under `Rests` nothing that a store could see
changes.
-/
import ObjectTiers.Proofs.Reading

namespace ObjectTiers

/-- A command of a run: where it was given, and what it found. -/
structure Step where
  site : Site
  command : Command
  found : Cluster

/-- What a read asks for. -/
structure Request where
  kind : Kind
  objectRef : String
  version : UInt16
  options : ReadOptions

/-- What a command asks for, if it is a read. -/
def Command.request? : Command → Option Request
  | .fetch k r v o => some ⟨k, r, v, o⟩
  | .get k r v o => some ⟨k, r, v, o⟩
  | _ => none

/-- The identity a command is given; a clearing of the memory is given none. -/
def Command.identity? : Command → Option (String × UInt16)
  | .put x _ _ _ => some (x.objectRef, x.version)
  | .fetch _ r v _ => some (r, v)
  | .get _ r v _ => some (r, v)
  | .purge r v => some (r, v)
  | .clearMemory => none

namespace Step

/-- The tiers a step works on. -/
def tiers (st : Step) : Tiers := st.found.tiers st.site

/-- What a step answered. -/
def result (st : Step) : Except StoreError Reply := (st.found.perform st.site st.command).1

/-- The cluster after a step. -/
def next (st : Step) : Cluster := (st.found.perform st.site st.command).2.2

/-- What a read is answered where the step is taken. -/
def answer (st : Step) (q : Request) : Except StoreError Fetched :=
  (st.site.store.fetch q.kind q.objectRef q.version q.options ⟨st.tiers, []⟩).1

/-- The answer to a `fetch` is its result, and that to a `get` its item. -/
theorem result_of_request {st : Step} {q : Request} (h : st.command.request? = some q) :
    st.result = (st.answer q).map .fetched ∨
      st.result = (st.answer q).map fun f => .item f.item := by
  obtain ⟨site, command, found⟩ := st
  cases command with
  | fetch k r v o =>
    cases h
    simp only [result, Cluster.perform, Store.perform, Store.map_action]
    exact .inl rfl
  | get k r v o =>
    cases h
    refine .inr ?_
    simp only [result, Cluster.perform, Store.perform, Store.get, Store.map_action, answer, tiers]
    cases (site.store.fetch k r v o ⟨found.tiers site, []⟩).1 <;> rfl
  | put x secret nonce now => cases h
  | purge r v => cases h
  | clearMemory => cases h

theorem result_of_fetch {st : Step} {k : Kind} {r : String} {v : UInt16} {o : ReadOptions}
    (h : st.command = .fetch k r v o) : st.result = (st.answer ⟨k, r, v, o⟩).map .fetched := by
  obtain ⟨site, command, found⟩ := st
  cases h
  simp only [result, Cluster.perform, Store.perform, Store.map_action]
  rfl

theorem cases (st : Step) : ∃ t, st.site.store.Performs st.tiers st.command st.result t ∧
    st.next = st.found.withTiers st.site t.settle :=
  st.found.perform_cases st.site st.command

theorem request_cases {st : Step} {q : Request} (h : st.command.request? = some q) : ∃ t,
    st.site.store.Fetches q.kind q.objectRef q.version q.options st.tiers (st.answer q) t ∧
      st.next = st.found.withTiers st.site t.settle := by
  obtain ⟨site, command, found⟩ := st
  have hfetch := site.store.fetch_cases q.kind q.objectRef q.version q.options
    ⟨found.tiers site, []⟩
  cases command with
  | fetch k r v o =>
    cases h
    refine ⟨_, hfetch, ?_⟩
    simp only [next, Cluster.perform, Store.perform, Store.map_action]
  | get k r v o =>
    cases h
    refine ⟨_, hfetch, ?_⟩
    simp only [next, Cluster.perform, Store.perform, Store.get, Store.map_action]
  | put x secret nonce now => cases h
  | purge r v => cases h
  | clearMemory => cases h

end Step

/-! ### Writes -/

theorem Store.encode_ok {s : Store} {x : Item} {secret : Option Secret} {nonce : Bytes}
    {p : Payload} (h : s.encode x secret nonce = .ok p) :
    (x.kind.isEncrypted = false ∧ Payload.encodePlain x = .ok p) ∨
    ∃ t, x.kind.isEncrypted = true ∧ secret = some t ∧
      Payload.encodeSealed s.cipher t nonce x.objectRef x.version x = .ok p := by
  unfold encode at h
  split at h
  · next hkind =>
    cases secret with
    | none => cases h
    | some t =>
      simp only at h
      split at h
      · next p hp => cases h; exact .inr ⟨t, hkind, rfl, hp⟩
      · cases h
  · next hkind =>
    split at h
    · next p hp => cases h; exact .inl ⟨by simpa using hkind, hp⟩
    · cases h

/-- A row that a write answers with holds the payload of the item under its identity. -/
theorem Step.row_of_put {st : Step} {x : Item} {secret : Option Secret} {nonce : Bytes}
    {now : Int64} {row : Row} (hcmd : st.command = .put x secret nonce now)
    (hres : st.result = .ok (.row row)) :
    ∃ p, Identity.validate x.objectRef x.version = .ok ⟨x.objectRef, x.version⟩ ∧
      st.site.store.encode x secret nonce = .ok p ∧
      row = ⟨x.objectRef, x.version, p.bytes, p.keyId, now⟩ := by
  obtain ⟨t, ht, -⟩ := st.cases
  rw [hcmd] at ht
  generalize st.result = res at ht hres
  cases ht with
  | put h =>
    cases h with
    | invalid hkey => cases hres
    | unencodable hkey hp => cases hres
    | refused hkey hp h => cases hres
    | stored hkey hp h =>
      cases hres
      cases Identity.eq_of_validate hkey
      exact ⟨_, hkey, hp, rfl⟩

/-! ### Runs -/

namespace Cluster

/-- The clusters that a run from `start` can come to, with what was done on the way. -/
inductive Reaches (Outside : Cluster → Cluster → Prop) (start : Cluster) :
    List Step → Cluster → Prop
  | start : Reaches Outside start [] start
  | call {log : List Step} {c : Cluster} (h : Reaches Outside start log c) (site : Site)
    (command : Command) :
    Reaches Outside start (log ++ [⟨site, command, c⟩]) (Step.mk site command c).next
  | outside {log : List Step} {c c' : Cluster} (h : Reaches Outside start log c)
    (hc : Outside c c') : Reaches Outside start log c'

variable {Outside : Cluster → Cluster → Prop} {start c c' : Cluster} {log before after : List Step}
  {st : Step}

theorem Reaches.step (h : Reaches Outside start log c) (hst : st.found = c) :
    Reaches Outside start (log ++ [st]) st.next := by
  subst hst
  exact h.call st.site st.command

/-- What holds at the start and is kept by every step and by what happens outside holds of every
cluster a run comes to. -/
theorem Reaches.invariant {I : List Step → Cluster → Prop} (h : Reaches Outside start log c)
    (hstart : I [] start) (hcall : ∀ log st, I log st.found → I (log ++ [st]) st.next)
    (houtside : ∀ log c c', Outside c c' → I log c → I log c') : I log c := by
  induction h with
  | start => exact hstart
  | @call log c _ site command ih => exact hcall log ⟨site, command, c⟩ ih
  | outside _ hc ih => exact houtside _ _ _ hc ih

/-- A step of a run found a cluster that the run had come to. -/
theorem Reaches.found (h : Reaches Outside start log c) (hlog : log = before ++ st :: after) :
    Reaches Outside start before st.found := by
  induction h generalizing after with
  | start => simp at hlog
  | outside _ _ ih => exact ih hlog
  | @call log c h site command ih =>
    rcases List.eq_nil_or_concat after with rfl | ⟨after', last, rfl⟩
    · obtain ⟨rfl, hlast⟩ := List.append_inj' hlog rfl
      cases hlast
      exact h
    · have hsplit : log ++ [⟨site, command, c⟩] = before ++ st :: after' ++ [last] := by
        rw [hlog, List.concat_eq_append]
        simp
      exact ih (List.append_inj' hsplit rfl).1

/-- A run of commands is one of these runs, with the same results. -/
theorem reaches_run (Outside : Cluster → Cluster → Prop) (c : Cluster)
    (calls : List (Site × Command)) : ∃ log, Reaches Outside c log (c.run calls).2 ∧
      log.map (fun st => (st.site, st.command)) = calls ∧
      log.map Step.result = (c.run calls).1 := by
  suffices h : ∀ log₀ c₀, Reaches Outside c log₀ c₀ → ∃ log,
      Reaches Outside c (log₀ ++ log) (c₀.run calls).2 ∧
      log.map (fun st => (st.site, st.command)) = calls ∧
      log.map Step.result = (c₀.run calls).1 from h [] c .start
  induction calls with
  | nil => exact fun log₀ c₀ h => ⟨[], by simpa [run] using h, rfl, rfl⟩
  | cons call calls ih =>
    intro log₀ c₀ h
    obtain ⟨site, command⟩ := call
    obtain ⟨log, hlog, hcalls, hresults⟩ := ih _ _ (h.call site command)
    refine ⟨⟨site, command, c₀⟩ :: log, ?_, ?_, ?_⟩
    · rw [List.append_assoc] at hlog
      exact hlog
    · rw [List.map_cons, hcalls]
    · rw [List.map_cons, hresults]
      rfl

/-! ### The tiers of a step -/

theorem memories_withTiers (c : Cluster) (site : Site) (t : Tiers) (i : Nat) :
    (c.withTiers site t).memories i = if i = site.memory then t.memory else c.memories i := rfl

theorem caches_withTiers (c : Cluster) (site : Site) (t : Tiers) (i : Nat) :
    (c.withTiers site t).caches i = if i = site.cache then t.cache else c.caches i := rfl

theorem tables_withTiers (c : Cluster) (site : Site) (t : Tiers) (i : Nat) :
    (c.withTiers site t).tables i = if i = site.table then t.table else c.tables i := rfl

theorem tiers_withTiers (c : Cluster) (site : Site) (t : Tiers) :
    (c.withTiers site t).tiers site = t := by
  simp only [tiers, memories_withTiers, caches_withTiers, tables_withTiers, if_true]

/-! ### Outside -/

/-- The tiers hold nothing. -/
structure IsEmpty (c : Cluster) : Prop where
  memories : ∀ i key, (c.memories i).cells.get? key = none
  caches : ∀ i key, (c.caches i).peek key = none
  tables : ∀ i r v key, Identity.validate r v = .ok key → (c.tables i).peek r v = .ok none

/-- Tiers may lose what they hold, and may begin or cease to fail. -/
structure Fades (c c' : Cluster) : Prop where
  memories : ∀ i key cell, (c'.memories i).cells.get? key = some cell →
    (c.memories i).cells.get? key = some cell
  caches : ∀ i key b, (c'.caches i).peek key = some b → (c.caches i).peek key = some b
  tables : ∀ i r v row, (c'.tables i).peek r v = .ok (some row) →
    (c.tables i).peek r v = .ok (some row)

/-- The tiers answer as before, and have the same room. -/
structure Rests (c c' : Cluster) : Prop where
  memories : ∀ i, (c'.memories i).cells = (c.memories i).cells ∧
    (c'.memories i).capacity = (c.memories i).capacity
  caches : ∀ i, (c'.caches i).peek = (c.caches i).peek ∧ (c'.caches i).fails = (c.caches i).fails
  tables : ∀ i, (c'.tables i).peek = (c.tables i).peek ∧ (c'.tables i).fails = (c.tables i).fails

/-! ### Clusters to try runs on -/

/-- A site whose memory has room for four objects and whose cache keeps everything. -/
def trialSite : Site := ⟨⟨.chaCha, none, ⟨0, .throw, 4, true⟩⟩, 0, 0, 0⟩

/-- The site with empty tiers. -/
def trial : Cluster :=
  ⟨[trialSite], fun _ => .ofCapacity 4, fun _ => .trial .empty, fun _ => .memory .empty⟩

theorem isEmpty_trial : trial.IsEmpty := ⟨fun _ _ => rfl, fun _ _ => rfl, fun _ _ _ _ _ => rfl⟩

/-- The secret of what is written and read at the trial site. -/
def trialSecret : Secret := ⟨"k", List.replicate 32 7, rfl⟩

/-- An item of an encrypted kind. -/
def trialItem : Item := ⟨"a", 1, .creds "id" "pw"⟩

/-- A write of an item at the site. -/
def trialPut (x : Item) (c : Cluster) : Step :=
  ⟨trialSite, .put x (some trialSecret) (List.replicate 12 1) 0, c⟩

/-- A read of an item at the site. -/
def trialRead (x : Item) (c : Cluster) : Step :=
  ⟨trialSite, .fetch x.kind x.objectRef x.version ⟨none, some trialSecret⟩, c⟩

/-- A removal of an item at the site. -/
def trialPurge (x : Item) (c : Cluster) : Step := ⟨trialSite, .purge x.objectRef x.version, c⟩

/-- A clearing of the memory of the site. -/
def trialClear (c : Cluster) : Step := ⟨trialSite, .clearMemory, c⟩

end Cluster

/-- The row that a step answered with. -/
def Step.row? (st : Step) : Option Row :=
  match st.result with
  | .ok (.row row) => some row
  | _ => none

theorem Step.row?_eq_some {st : Step} {row : Row} :
    st.row? = some row ↔ st.result = .ok (.row row) := by
  unfold Step.row?
  constructor
  · intro h
    split at h
    · next hres => cases h; exact hres
    · cases h
  · intro h
    rw [h]

theorem Step.tiers_next (st : Step) : ∃ t,
    st.site.store.Performs st.tiers st.command st.result t ∧ st.next.tiers st.site = t.settle := by
  obtain ⟨t, ht, hnext⟩ := st.cases
  refine ⟨t, ht, ?_⟩
  rw [hnext, Cluster.tiers_withTiers]

end ObjectTiers
