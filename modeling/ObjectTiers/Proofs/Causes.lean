/-
What reads fail with.

A read of a valid identity fails for the cache, for the table, for an object that is not there, for
want of a secret, for an envelope that is not opened, for a frame that is not read, or for a row
that may not be cached (`Store.Fetches.causes`). The envelopes it opens are those of an entry under
its key and of the row under its identity (`Store.InReach`).
-/
import ObjectTiers.Proofs.Failure

namespace ObjectTiers

namespace Store

variable {s : Store} {k : Kind} {key : Key} {useCache : Bool} {secret : Option Secret}
  {t t' : Tiers} {c c' : Cache} {r : String} {v : UInt16} {o : ReadOptions} {e : StoreError}

/-- The envelopes that a read of a key may open. -/
inductive InReach (key : Key) (t : Tiers) : String → Bytes → Prop
  | entry {b : Bytes} {entry : Entry} {keyId : String} {envelope : Bytes}
    (hb : t.cache.peek key.text = some b) (he : Entry.ofBytes? b = some entry)
    (hp : entry.payload = .sealed keyId envelope) : InReach key t keyId envelope
  | row {row : Row} {keyId : String}
    (hrow : t.table.peek key.objectRef key.version = .ok (some row))
    (hid : row.keyId = some keyId) : InReach key t keyId row.payload

/-- Why a read of a key as a kind fails. -/
inductive Causes (s : Store) (k : Kind) (key : Key) (secret : Option Secret) (t : Tiers) :
    StoreError → Prop
  | cache (e : CacheError) : Causes s k key secret t (.cache e)
  | table (e : TableError) : Causes s k key secret t (.table e)
  | notFound : Causes s k key secret t (.notFound key.objectRef key.version)
  | secret {keyId : String} {e : StoreError} (h : s.resolveSecret key keyId secret = .error e) :
    Causes s k key secret t e
  | envelope {keyId : String} {envelope : Bytes} {u : Secret} {r : String} {v : UInt16}
    {e : EnvelopeError} (hreach : InReach key t keyId envelope)
    (h : Payload.decodeSealed s.cipher k u r v envelope = .error e) :
    Causes s k key secret t (.envelope e)
  | frame {frame : Bytes} {e : EnvelopeError} (h : Payload.decodePlain k frame = .error e) :
    Causes s k key secret t (.envelope e)
  | uncacheable : Causes s k key secret t (.uncacheable k key.text)

theorem InReach.congr {keyId : String} {envelope : Bytes} (h : InReach key t' keyId envelope)
    (hcache : t'.cache.peek = t.cache.peek) (htable : t'.table = t.table) :
    InReach key t keyId envelope := by
  cases h with
  | entry hb he hp => exact .entry (by rwa [hcache] at hb) he hp
  | row hrow hid => exact .row (by rwa [htable] at hrow) hid

theorem Causes.congr (h : Causes s k key secret t' e) (hcache : t'.cache.peek = t.cache.peek)
    (htable : t'.table = t.table) : Causes s k key secret t e := by
  cases h with
  | cache e => exact .cache e
  | table e => exact .table e
  | notFound => exact .notFound
  | secret h => exact .secret h
  | envelope hreach h => exact .envelope (hreach.congr hcache htable) h
  | frame h => exact .frame h
  | uncacheable => exact .uncacheable

/-! ### Steps of a read -/

/-- A look-up that is given up for what stands in the cache has met an envelope. -/
theorem causes_of_judge {b : Bytes} (hb : t.cache.peek key.text = some b)
    (h : s.judge k key secret b = .fail e) : Causes s k key secret t e := by
  unfold judge at h
  split at h
  · cases h
  next entry he =>
  split at h
  · cases h
  split at h
  · cases h
  unfold judgePayload at h
  split at h
  · split at h
    · cases h
    split at h <;> cases h
  · next keyId envelope hp =>
    split at h
    · cases h
    split at h
    · next e' hsecret =>
      cases h
      exact .secret hsecret
    split at h
    · cases h
    · next e' hopen =>
      cases h
      exact .envelope (.entry hb he hp) hopen

theorem causes_of_materialize {row : Row}
    (hrow : t.table.peek key.objectRef key.version = .ok (some row))
    (h : s.materialize k key row secret = .error e) : Causes s k key secret t e := by
  unfold materialize at h
  split at h
  · next keyId hid =>
    split at h
    · next e' hsecret =>
      cases h
      exact .secret hsecret
    split at h
    · cases h
    · next e' hopen =>
      cases h
      exact .envelope (.row hrow hid) hopen
  · split at h
    · cases h
    · next e' hread =>
      cases h
      exact .frame hread

theorem Probes.causes (h : Probes s k key secret useCache t.cache (.error e) c') :
    Causes s k key secret t e := by
  generalize hres : (Except.error e : Except StoreError (Option Item)) = res at h
  cases h with
  | unused c => cases hres
  | absent h => cases hres
  | @failed c c' failure h =>
    cases hout : s.config.policy.outcome failure with
    | ok u => rw [hout] at hres; cases hres
    | error e' =>
      rw [hout] at hres
      cases hres
      obtain ⟨-, rfl⟩ := Policy.of_outcome_error hout
      exact .cache failure
  | @found c c' b h =>
    cases hj : s.judge k key secret b with
    | hit x => rw [hj] at hres; cases hres
    | discard w => rw [hj] at hres; cases hres
    | fail e' =>
      rw [hj] at hres
      cases hres
      exact causes_of_judge (Cache.get_ok h).1.symm hj

theorem Loads.causes (h : Loads s k key useCache secret t (.error e) t') :
    Causes s k key secret t e := by
  generalize hres : (Except.error e : Except StoreError Fetched) = res at h
  cases h with
  | failed h => cases hres; exact .table _
  | absent h => cases hres; exact .notFound
  | unreadable h hx => cases hres; exact causes_of_materialize (Table.peek_of_find h) hx
  | uncacheable h hx huse hform =>
    cases hres
    unfold cacheForm at hform
    split at hform <;> cases hform
    exact .uncacheable
  | uncached h hx hform => cases hres
  | @cached row x p r c h hx huse hform hwrite =>
    cases r with
    | ok u => cases hres
    | error e' =>
      cases hres
      obtain ⟨he, -, -⟩ := hwrite.of_error
      cases e with
      | cache e => exact .cache e
      | _ => cases he

/-- Whatever a read of a valid identity fails with has one of these causes. -/
theorem Fetches.causes (h : Fetches s k r v o t (.error e) t')
    (hkey : Identity.validate r v = .ok key) : Causes s k key o.secret t e := by
  generalize hres : (Except.error e : Except StoreError Fetched) = res at h
  cases h with
  | invalid hkey' => cases hkey.symm.trans hkey'
  | memory hkey' hm => cases hres
  | cache hkey' hm hc => cases hres
  | refused hkey' hm hc =>
    cases hkey.symm.trans hkey'
    cases hres
    exact hc.causes
  | table hkey' hm hc hload =>
    cases hkey.symm.trans hkey'
    subst hres
    exact hload.causes.congr hc.peek_eq rfl

end Store

end ObjectTiers
