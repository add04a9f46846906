/-
The gate before every operation.

All operations of a store check the identity they are given before they do anything else, by the
one function `Identity.validate`, and give its error to the caller with nothing done. The tables
that take rows, and directories at every look-up, refuse the same identities
(`Store.perform_eq_invalid_iff`). So nothing is ever written that could not be asked for.
-/
import ObjectTiers.Proofs.Causes
import ObjectTiers.Proofs.History

namespace ObjectTiers

/-! ### Tables -/

theorem Row.check_eq_identity_iff (row : Row) (e : ValidationError) :
    row.check = .error (.identity e) ↔ Identity.validate row.objectRef row.version = .error e := by
  unfold check
  cases Identity.validate row.objectRef row.version with
  | error e' => simp
  | ok key =>
    simp only [reduceCtorEq, iff_false]
    split
    · nofun
    split
    · nofun
    split <;> nofun

theorem Directory.rowPath_eq_identity_iff (r : String) (v : UInt16) (e : ValidationError) :
    rowPath r v = .error (.invariant (.identity e)) ↔ Identity.validate r v = .error e := by
  unfold rowPath
  cases Identity.validate r v <;> simp

/-- A directory is not even looked into for an identity that is refused. -/
theorem Directory.find_eq_identity_iff (d : Directory) (r : String) (v : UInt16)
    (e : ValidationError) :
    (d.find r v).1 = .error (.invariant (.identity e)) ↔ Identity.validate r v = .error e := by
  rw [← rowPath_eq_identity_iff]
  unfold find
  cases rowPath r v with
  | error e' => simp
  | ok path =>
    simp only [reduceCtorEq, iff_false]
    split
    · nofun
    · nofun
    split
    · nofun
    split <;> nofun

theorem Table.insert_eq_identity_iff (t : Table) (row : Row) (e : ValidationError) :
    (t.insert row).1 = .error (.invariant (.identity e)) ↔
      Identity.validate row.objectRef row.version = .error e := by
  rw [← Row.check_eq_identity_iff]
  have hmemory (m : MemoryTable) :
      (m.insert row).1 = .error (.invariant (.identity e)) ↔ row.check = .error (.identity e) := by
    unfold MemoryTable.insert
    cases row.check <;> simp
  cases t with
  | memory m => exact hmemory m
  | trial t => exact hmemory t.inner
  | directory d =>
    show (d.insert row).1 = _ ↔ _
    rw [Directory.insert_fst]
    cases row.check with
    | error fault => simp
    | ok u =>
      simp only [reduceCtorEq, iff_false]
      split
      · nofun
      split
      · nofun
      split <;> nofun

/-! ### Operations -/

namespace Store

variable {s : Store} {cmd : Command} {t t' : Tiers} {r : String} {v : UInt16} {σ : Session}
  {e : ValidationError}

/-- An operation with an invalid identity does nothing at all. -/
theorem perform_of_invalid (hid : cmd.identity? = some (r, v))
    (hkey : Identity.validate r v = .error e) : s.perform cmd σ = (.error (.validation e), σ) := by
  have hlift : Action.lift .validation (Identity.validate r v) σ = (.error (.validation e), σ) := by
    rw [hkey]
    rfl
  have hfetch (k : Kind) (o : ReadOptions) :
      s.fetch k r v o σ = (.error (.validation e), σ) := by
    rw [fetch]
    exact Action.bind_error hlift
  cases cmd with
  | put x secret nonce now =>
    cases hid
    rw [perform, put]
    exact Action.bind_error (Action.bind_error hlift)
  | fetch k r v o =>
    cases hid
    rw [perform]
    exact Action.bind_error (hfetch k o)
  | get k r v o =>
    cases hid
    rw [perform, get]
    exact Action.bind_error (Action.bind_error (hfetch k o))
  | purge r v =>
    cases hid
    rw [perform, purge]
    exact Action.bind_error (Action.bind_error hlift)
  | clearMemory => cases hid

theorem ne_validation_of_resolveSecret {key : Key} {keyId : String} {secret : Option Secret} :
    s.resolveSecret key keyId secret ≠ .error (.validation e) := by
  intro h
  cases isOfPayload_of_resolveSecret h

theorem ne_validation_of_encode {x : Item} {secret : Option Secret} {nonce : Bytes} :
    s.encode x secret nonce ≠ .error (.validation e) := by
  intro h
  unfold encode at h
  split at h
  · split at h
    · cases h
    split at h <;> cases h
  · split at h <;> cases h

/-- No operation with a valid identity ends in an error of validation. -/
theorem Performs.ne_validation {res : Except StoreError Reply} {key : Key}
    (h : Performs s t cmd res t') (hid : cmd.identity? = some (r, v))
    (hkey : Identity.validate r v = .ok key) : res ≠ .error (.validation e) := by
  have hfetch {k : Kind} {o : ReadOptions} {f : Except StoreError Fetched}
      (h : Fetches s k r v o t f t') : f ≠ .error (.validation e) := by
    rintro rfl
    have hcause := h.causes hkey
    cases hcause with
    | secret h => exact ne_validation_of_resolveSecret h
  rintro rfl
  generalize hres : (Except.error (.validation e) : Except StoreError Reply) = res at h
  cases h with
  | put h =>
    cases hid
    cases h with
    | invalid hkey' => cases hkey.symm.trans hkey'
    | unencodable hkey' hp =>
      cases hres
      exact ne_validation_of_encode hp
    | refused hkey' hp h => cases hres
    | stored hkey' hp h => cases hres
  | fetch h =>
    cases hid
    exact hfetch h (error_of_map hres.symm)
  | get h =>
    cases hid
    exact hfetch h (error_of_map hres.symm)
  | purge h =>
    cases hid
    cases h with
    | invalid hkey' => cases hkey.symm.trans hkey'
    | failed hkey' h => cases (Policy.of_outcome_error (error_of_map hres.symm)).2
    | purged hkey' h => cases hres
  | clearMemory => cases hid

/-- Every operation that is given an identity answers with an error of validation exactly if the
identity is invalid, and with the error that says why; then it neither reads nor writes any tier,
whatever else would have been in its way. Tables take no row of such an identity, and a directory
has no place for one, and the fault they name is the same. -/
theorem perform_eq_invalid_iff (r : String) (v : UInt16) (e : ValidationError) :
    (∀ (s : Store) (cmd : Command) (σ : Session), cmd.identity? = some (r, v) →
      ((s.perform cmd σ).1 = .error (.validation e) ↔ Identity.validate r v = .error e) ∧
      (Identity.validate r v = .error e → s.perform cmd σ = (.error (.validation e), σ))) ∧
    (∀ (t : Table) (row : Row), row.objectRef = r → row.version = v →
      ((t.insert row).1 = .error (.invariant (.identity e)) ↔
        Identity.validate r v = .error e)) ∧
    (∀ d : Directory, (d.find r v).1 = .error (.invariant (.identity e)) ↔
      Identity.validate r v = .error e) ∧
    (Directory.rowPath r v = .error (.invariant (.identity e)) ↔
      Identity.validate r v = .error e) ∧
    (RowFault.identity e).message = e.message := by
  refine ⟨fun s cmd σ hid => ⟨⟨fun h => ?_, fun h => ?_⟩, perform_of_invalid hid⟩, ?_,
    fun d => d.find_eq_identity_iff r v e, Directory.rowPath_eq_identity_iff r v e, rfl⟩
  · cases hkey : Identity.validate r v with
    | ok key => exact absurd h ((s.perform_cases cmd σ).ne_validation hid hkey)
    | error e' =>
      rw [perform_of_invalid hid hkey] at h
      cases h
      rfl
  · rw [perform_of_invalid hid h]
  · rintro t row rfl rfl
    exact t.insert_eq_identity_iff row e

open Cluster (trialSite trialItem)

/-- A write without the secret it takes, and a read over a cache that fails, of a reference that is
no name. -/
theorem perform_eq_invalid_trial : ∃ e s σ x row, e = .invalidCharacter '/' 1 ∧
    s = trialSite.store ∧ σ = degraded trialItem ⟨true, true, true⟩ ∧
    x = ⟨"a/b", 1, .creds "id" "pw"⟩ ∧ row = ⟨"a/b", 1, [], none, 0⟩ ∧
    s.perform (.put x none [] 0) σ = (.error (.validation e), σ) ∧
    s.perform (.fetch .creds "a/b" 1 ⟨none, none⟩) σ = (.error (.validation e), σ) ∧
    (σ.tiers.table.insert row).1 = .error (.invariant (.identity e)) ∧
    (Directory.empty.find "a/b" 1).1 = .error (.invariant (.identity e)) ∧
    Directory.rowPath "a/b" 1 = .error (.invariant (.identity e)) := by
  have hkey : Identity.validate "a/b" 1 = .error (.invalidCharacter '/' 1) := by
    decide +kernel
  obtain ⟨hperform, hinsert, hfind, hpath, -⟩ :=
    perform_eq_invalid_iff "a/b" 1 (.invalidCharacter '/' 1)
  exact ⟨_, _, _, _, _, rfl, rfl, rfl, rfl, rfl, (hperform _ _ _ rfl).2 hkey,
    (hperform _ _ _ rfl).2 hkey, (hinsert _ _ rfl rfl).mpr hkey, (hfind _).mpr hkey,
    hpath.mpr hkey⟩

end Store

end ObjectTiers
