/-
What writes fail with.

A write fails for its identity, for want of a secret, for an item that does not let itself be
written, for the cipher, for an iv or a tag that does not fit an envelope, or for the table
(`Store.Refuses`). It looks at no stored data, and yet one of these failures passes for damage to
them: that of the item, which shares its error with frames that cannot be read
(`Store.isIntegrityFailure_of_put`).
-/
import ObjectTiers.Proofs.History
import ObjectTiers.Proofs.Payload

namespace ObjectTiers

/-- The failure of an item that does not let itself be written. -/
def StoreError.unwritable : StoreError := .envelope (.serialization (.record .refused))

namespace Payload

variable {x : Item} {c : Cipher} {u : Secret} {nonce : Bytes} {r : String} {v : UInt16}
  {e : EnvelopeError}

/-- The text `refuse` keeps an item from being written. -/
theorem frame_of_eq (h : x.content = .refuses "refuse") :
    frame x = .error (.serialization (.record .refused)) := by
  rw [frame, Item.toJson?, h]
  rfl

theorem frame_eq_error_iff : frame x = .error e ↔
    x.content = .refuses "refuse" ∧ e = .serialization (.record .refused) := by
  constructor
  · intro h
    by_cases hcontent : x.content = .refuses "refuse"
    · rw [frame_of_eq hcontent] at h
      cases h
      exact ⟨hcontent, rfl⟩
    · rw [frame_of_ne hcontent] at h
      cases h
  · rintro ⟨hcontent, rfl⟩
    exact frame_of_eq hcontent

theorem encodePlain_eq_error (h : encodePlain x = .error e) : frame x = .error e := by
  unfold encodePlain at h
  cases hframe : frame x with
  | error e' =>
    rw [hframe] at h
    cases h
    rfl
  | ok b =>
    rw [hframe] at h
    cases h

/-- A sealed payload is not made if its frame is not, if the cipher fails, or if a part does not fit
the envelope. -/
theorem encodeSealed_eq_error (h : encodeSealed c u nonce r v x = .error e) :
    frame x = .error e ∨ (∃ cause, e = .encryption cause) ∨ ∃ field n, e = .tooLarge field n := by
  unfold encodeSealed at h
  split at h
  · next hframe =>
    cases h
    exact .inl hframe
  split at h
  · next cause _ =>
    cases h
    exact .inr (.inl ⟨cause, rfl⟩)
  · next parts _ =>
    unfold Envelope.build at h
    split at h
    · cases h
      exact .inr (.inr ⟨.iv, parts.iv.length, rfl⟩)
    split at h
    · cases h
      exact .inr (.inr ⟨.tag, parts.tag.length, rfl⟩)
    · cases h

end Payload

namespace Store

variable {s : Store} {x : Item} {secret : Option Secret} {nonce : Bytes} {now : Int64}
  {t t' : Tiers} {e : StoreError}

/-- Why a write of an item with a secret fails. -/
inductive Refuses (x : Item) (secret : Option Secret) : StoreError → Prop
  | invalid {e : ValidationError} (h : Identity.validate x.objectRef x.version = .error e) :
    Refuses x secret (.validation e)
  | secretless (hkind : x.kind.isEncrypted = true) (hsecret : secret = none) :
    Refuses x secret (.secretRequired x.objectRef x.version none)
  | unwritable {key : Key} (hkey : Identity.validate x.objectRef x.version = .ok key)
    (hcontent : x.content = .refuses "refuse") (hsecret : secret.isSome = true) :
    Refuses x secret .unwritable
  | encryption (e : CipherError) : Refuses x secret (.envelope (.encryption e))
  | tooLarge (field : EnvelopeField) (n : Nat) : Refuses x secret (.envelope (.tooLarge field n))
  | table (e : TableError) : Refuses x secret (.table e)

theorem refuses_of_encode {key : Key} (hkey : Identity.validate x.objectRef x.version = .ok key)
    (h : s.encode x secret nonce = .error e) : Refuses x secret e := by
  unfold encode at h
  split at h
  · next hkind =>
    cases secret with
    | none =>
      cases h
      exact .secretless hkind rfl
    | some u =>
      dsimp only at h
      split at h
      · cases h
      next e' hsealed =>
      cases h
      obtain hframe | ⟨cause, rfl⟩ | ⟨field, n, rfl⟩ := Payload.encodeSealed_eq_error hsealed
      · obtain ⟨hcontent, rfl⟩ := Payload.frame_eq_error_iff.mp hframe
        exact .unwritable hkey hcontent rfl
      · exact .encryption cause
      · exact .tooLarge field n
  · next hkind =>
    split at h
    · cases h
    next e' hplain =>
    -- The items that do not let themselves be written are of an encrypted kind.
    obtain ⟨hcontent, -⟩ := Payload.frame_eq_error_iff.mp (Payload.encodePlain_eq_error hplain)
    refine absurd ?_ hkind
    rw [Item.kind, hcontent]
    rfl

theorem Puts.refuses (h : Puts s x secret nonce now t (.error e) t') : Refuses x secret e := by
  cases h with
  | invalid hkey => exact .invalid hkey
  | unencodable hkey hp => exact refuses_of_encode hkey hp
  | @refused key p e table hkey hp h => exact .table e

theorem encode_of_unwritable (hcontent : x.content = .refuses "refuse")
    (hsecret : secret.isSome = true) : s.encode x secret nonce = .error .unwritable := by
  obtain ⟨u, rfl⟩ := Option.isSome_iff_exists.mp hsecret
  have hkind : x.kind.isEncrypted = true := by
    rw [Item.kind, hcontent]
    rfl
  simp only [encode, hkind, if_true, Payload.encodeSealed, Payload.frame_of_eq hcontent]
  rfl

theorem Puts.of_unwritable {res : Except StoreError Row} (h : Puts s x secret nonce now t res t')
    (hkey : (Identity.validate x.objectRef x.version).isOk = true)
    (hcontent : x.content = .refuses "refuse") (hsecret : secret.isSome = true) :
    res = .error .unwritable := by
  have hencode : s.encode x secret nonce = .error .unwritable :=
    encode_of_unwritable hcontent hsecret
  cases h with
  | invalid hinvalid =>
    rw [hinvalid] at hkey
    cases hkey
  | unencodable hvalid hp =>
    rw [hencode] at hp
    cases hp
    rfl
  | refused hvalid hp h | stored hvalid hp h =>
    rw [hencode] at hp
    cases hp

theorem Refuses.isNotFound (h : Refuses x secret e) : e.isNotFound = false := by
  cases h <;> rfl

theorem Refuses.isIntegrityFailure_iff (h : Refuses x secret e) :
    e.isIntegrityFailure = true ↔ e = .unwritable := by
  cases h with
  | unwritable hkey hcontent hsecret => exact ⟨fun _ => rfl, fun _ => rfl⟩
  | _ => exact ⟨nofun, nofun⟩

theorem Refuses.of_unwritable (h : Refuses x secret .unwritable) :
    (Identity.validate x.objectRef x.version).isOk = true ∧ x.content = .refuses "refuse" ∧
      secret.isSome = true := by
  generalize hres : StoreError.unwritable = e at h
  cases h with
  | unwritable hkey hcontent hsecret => exact ⟨by rw [hkey]; rfl, hcontent, hsecret⟩
  | _ => cases hres

/-- The error of a write is never that of a missing object. It passes for damage to stored data
just if the item has a valid identity, a secret to be written with, and does not let itself be
written: no other write blames data that it has not read. -/
theorem isIntegrityFailure_of_put (s : Store) (x : Item) (secret : Option Secret) (nonce : Bytes)
    (now : Int64) (σ : Session) :
    (∀ e, (s.put x secret nonce now σ).1 = .error e →
      e.isNotFound = false ∧ (e.isIntegrityFailure = true ↔ e = .unwritable)) ∧
    ((s.put x secret nonce now σ).1 = .error .unwritable ↔
      (Identity.validate x.objectRef x.version).isOk = true ∧ x.content = .refuses "refuse" ∧
        secret.isSome = true) := by
  have hputs := s.put_cases x secret nonce now σ
  refine ⟨fun e h => ?_, fun h => ?_, fun ⟨hkey, hcontent, hsecret⟩ => ?_⟩
  · rw [h] at hputs
    exact ⟨hputs.refuses.isNotFound, hputs.refuses.isIntegrityFailure_iff⟩
  · rw [h] at hputs
    exact hputs.refuses.of_unwritable
  · exact hputs.of_unwritable hkey hcontent hsecret

open Cluster (trialSite trialSecret trial)

/-- A write that lacks its secret, and one of an item that does not let itself be written. -/
theorem isIntegrityFailure_of_put_trial :
    (∃ e, (trialSite.store.put ⟨"a", 1, .creds "id" "pw"⟩ none [] 0
        ⟨trial.tiers trialSite, []⟩).1 = .error e ∧
      e.isNotFound = false ∧ e.isIntegrityFailure = false) ∧
    (trialSite.store.put ⟨"a", 1, .refuses "refuse"⟩ (some trialSecret) [] 0
      ⟨trial.tiers trialSite, []⟩).1 = .error .unwritable := by
  refine ⟨⟨.secretRequired "a" 1 none, by decide +kernel, ?_⟩, ?_⟩
  · obtain ⟨hnotFound, hdamage⟩ := (isIntegrityFailure_of_put trialSite.store
      ⟨"a", 1, .creds "id" "pw"⟩ none [] 0 ⟨trial.tiers trialSite, []⟩).1
      (.secretRequired "a" 1 none) (by decide +kernel)
    refine ⟨hnotFound, ?_⟩
    rw [Bool.eq_false_iff, Ne, hdamage]
    nofun
  · exact (isIntegrityFailure_of_put trialSite.store ⟨"a", 1, .refuses "refuse"⟩
      (some trialSecret) [] 0 ⟨trial.tiers trialSite, []⟩).2.mpr ⟨by decide, rfl, rfl⟩

/-- Nothing is stored here, and yet the error of the write stands for damaged data. -/
theorem isIntegrityFailure_of_unwritten : ∃ e,
    (trialSite.store.put ⟨"a", 1, .refuses "refuse"⟩ (some trialSecret) (List.replicate 12 1) 0
      ⟨trial.tiers trialSite, []⟩).1 = .error e ∧ e.isIntegrityFailure = true :=
  ⟨.unwritable, by decide +kernel, rfl⟩

end Store

end ObjectTiers
