/-
Payloads read back: envelopes and the frames inside.

`Payload.readFrame_frame`: an item that is no document is what its frame is read as.
`Payload.isSorted_of_readFrame`: whatever document is read, its objects have their members in order.
`Payload.eq_of_readFrame`: whatever kind a frame is read as, the item that is read has the identity
of the item that was written.
`Payload.decodeSealed_encodeSealed`: under ChaCha20-Poly1305 a sealed payload is opened by every
secret with the same key, and what is inside is the frame of the item.
-/
import ObjectTiers.Envelope
import ObjectTiers.Proofs.Cipher
import ObjectTiers.Proofs.Frame
import ObjectTiers.Proofs.Item

namespace ObjectTiers

/-! ### Envelopes -/

namespace Envelope

/-- How the parts of an envelope lie in its bytes: the lengths of iv and tag in a byte each, then
iv, tag and ciphertext. -/
def LiesIn (parts : Sealed) (b : Bytes) : Prop :=
  ∃ i t : UInt8, i.toNat = parts.iv.length ∧ t.toNat = parts.tag.length ∧
    b = i :: t :: (parts.iv ++ parts.tag ++ parts.ciphertext)

section Layout

variable {parts : Sealed} {b : Bytes} {e : EnvelopeError}

theorem build_of_lengths (hiv : parts.iv.length ≤ 255) (htag : parts.tag.length ≤ 255) :
    build parts = .ok (.ofNat parts.iv.length :: .ofNat parts.tag.length ::
      (parts.iv ++ parts.tag ++ parts.ciphertext)) := by
  rw [build, if_neg (Nat.not_lt.mpr hiv), if_neg (Nat.not_lt.mpr htag)]
  simp

theorem build_eq_error_iff : build parts = .error e ↔
    (255 < parts.iv.length ∧ e = .tooLarge .iv parts.iv.length) ∨
      (parts.iv.length ≤ 255 ∧ 255 < parts.tag.length ∧
        e = .tooLarge .tag parts.tag.length) := by
  unfold build
  split
  · next hiv => simp [hiv, Nat.not_le.mpr hiv, eq_comm]
  · next hiv =>
    split
    · next htag => simp [hiv, htag, Nat.not_lt.mp hiv, eq_comm]
    · next htag => simp [hiv, htag]

/-- The lengths of iv and tag are written as they are, since they fit a byte. -/
theorem build_eq_ok_iff : build parts = .ok b ↔ LiesIn parts b := by
  constructor
  · intro h
    have hlengths : parts.iv.length ≤ 255 ∧ parts.tag.length ≤ 255 := by
      constructor
      · refine Nat.not_lt.mp fun hiv => ?_
        cases h.symm.trans (build_eq_error_iff.mpr (.inl ⟨hiv, rfl⟩))
      · refine Nat.not_lt.mp fun htag => ?_
        rcases Nat.lt_or_ge 255 parts.iv.length with hiv | hiv
        · cases h.symm.trans (build_eq_error_iff.mpr (.inl ⟨hiv, rfl⟩))
        · cases h.symm.trans (build_eq_error_iff.mpr (.inr ⟨hiv, htag, rfl⟩))
    rw [build_of_lengths hlengths.1 hlengths.2] at h
    cases h
    refine ⟨_, _, ?_, ?_, rfl⟩
    · rw [UInt8.toNat_ofNat']
      omega
    · rw [UInt8.toNat_ofNat']
      omega
  · rintro ⟨i, t, hi, ht, rfl⟩
    have hiv := i.toNat_lt
    have htag := t.toNat_lt
    rw [build_of_lengths (by omega) (by omega), ← hi, ← ht, UInt8.ofNat_toNat, UInt8.ofNat_toNat]

theorem parse_eq_error_iff : parse b = .error e ↔
    (b.length < 2 ∧ e = .corrupt (.header b.length)) ∨
      ∃ i t body, b = i :: t :: body ∧ body.length < i.toNat + t.toNat ∧
        e = .corrupt (.body body.length i.toNat t.toNat) := by
  rcases b with _ | ⟨i, _ | ⟨t, body⟩⟩
  · simp [parse, eq_comm]
  · simp [parse, eq_comm]
  · have hlong : ¬ (i :: t :: body).length < 2 := by simp
    simp only [parse, hlong, false_and, false_or]
    split
    · next hshort =>
      constructor
      · intro h
        cases h
        exact ⟨i, t, body, rfl, hshort, rfl⟩
      · rintro ⟨i', t', body', hb, -, rfl⟩
        cases hb
        rfl
    · next hfits =>
      refine ⟨nofun, ?_⟩
      rintro ⟨i', t', body', hb, hshort, -⟩
      cases hb
      exact absurd hshort hfits

/-- The parts that are read are whole: no slice ends before its length. -/
theorem parse_eq_ok_iff : parse b = .ok parts ↔ LiesIn parts b := by
  constructor
  · intro h
    unfold parse at h
    split at h
    · next i t body =>
      simp only at h
      split at h
      · cases h
      · next hfits =>
        cases h
        refine ⟨i, t, ?_, ?_, ?_⟩
        · simp only [List.length_take]
          omega
        · simp only [List.length_take, List.length_drop]
          omega
        · rw [List.append_assoc, ← List.drop_drop, List.take_append_drop, List.take_append_drop]
    · cases h
  · rintro ⟨i, t, hi, ht, rfl⟩
    have hdrop : (parts.iv ++ parts.tag ++ parts.ciphertext).drop
        (parts.iv.length + parts.tag.length) = parts.ciphertext := by
      rw [← List.length_append, List.drop_left]
    simp only [parse, hi, ht, hdrop]
    rw [if_neg (by simp only [List.length_append]; omega), List.append_assoc, List.take_left,
      List.drop_left, List.take_left]

end Layout

theorem parse_build {parts : Sealed} {b : Bytes} (h : build parts = .ok b) :
    parse b = .ok parts :=
  parse_eq_ok_iff.mpr (build_eq_ok_iff.mp h)

/-- Bytes are the envelope of parts exactly if they are read as these parts, and then the parts lie
in them one behind the other, so that no two envelopes have the same parts and no two parts the
same envelope. Parts have an envelope if the lengths of iv and tag fit a byte; of the two the iv is
blamed first. Bytes are an envelope if they have the two bytes of lengths and as many more as these
say. -/
theorem build_iff_parse :
    (∀ parts b, build parts = .ok b ↔ parse b = .ok parts) ∧
    (∀ parts b, parse b = .ok parts ↔ LiesIn parts b) ∧
    (∀ parts, ((∃ b, build parts = .ok b) ↔ parts.iv.length ≤ 255 ∧ parts.tag.length ≤ 255) ∧
      ∀ e, build parts = .error e ↔
        (255 < parts.iv.length ∧ e = .tooLarge .iv parts.iv.length) ∨
          (parts.iv.length ≤ 255 ∧ 255 < parts.tag.length ∧
            e = .tooLarge .tag parts.tag.length)) ∧
    ∀ b, ((∃ parts, parse b = .ok parts) ↔
        ∃ i t body, b = i :: t :: body ∧ i.toNat + t.toNat ≤ body.length) ∧
      ∀ e, parse b = .error e ↔
        (b.length < 2 ∧ e = .corrupt (.header b.length)) ∨
          ∃ i t body, b = i :: t :: body ∧ body.length < i.toNat + t.toNat ∧
            e = .corrupt (.body body.length i.toNat t.toNat) := by
  refine ⟨fun parts b => build_eq_ok_iff.trans parse_eq_ok_iff.symm, fun parts b => parse_eq_ok_iff,
    fun parts => ⟨⟨?_, fun h => ⟨_, build_of_lengths h.1 h.2⟩⟩, fun e => build_eq_error_iff⟩,
    fun b => ⟨⟨?_, ?_⟩, fun e => parse_eq_error_iff⟩⟩
  · rintro ⟨b, h⟩
    obtain ⟨i, t, hi, ht, -⟩ := build_eq_ok_iff.mp h
    have hiv := i.toNat_lt
    have htag := t.toNat_lt
    exact ⟨by omega, by omega⟩
  · rintro ⟨parts, h⟩
    obtain ⟨i, t, hi, ht, rfl⟩ := parse_eq_ok_iff.mp h
    exact ⟨i, t, _, rfl, by simp only [List.length_append]; omega⟩
  · rintro ⟨i, t, body, rfl, hfits⟩
    exact ⟨_, if_neg (Nat.not_lt.mpr hfits)⟩

end Envelope

theorem Kind.accepts_tag (k : Kind) : k.accepts k.tag = true := by
  simp [Kind.accepts]

namespace Payload

/-! ### Frames -/

theorem frame_ok {x : Item} {b : Bytes} (h : frame x = .ok b) :
    b = Frame.write ⟨x.kind.tag, x.kind.schema, x.toJson⟩ := by
  unfold frame Item.toJson? at h
  split at h
  · next body hbody =>
    split at hbody
    · cases hbody
    · cases hbody
      cases h
      rfl
  · cases h

theorem readFrame_ok {k : Kind} {b : Bytes} {x : Item} (h : readFrame k b = .ok x) :
    ∃ f, Frame.parse b = .ok f ∧ k.accepts f.tag = true ∧ f.schema ≤ k.schema ∧
      Item.ofJson k f.body = .ok x := by
  unfold readFrame at h
  split at h
  · cases h
  · next f hf =>
    split at h
    · cases h
    · next haccepts =>
      split at h
      · cases h
      · next hschema =>
        split at h
        · next y hy =>
          cases h
          exact ⟨f, hf, by simpa using haccepts, UInt16.not_lt.mp hschema, hy⟩
        · cases h

theorem kind_of_readFrame {k : Kind} {b : Bytes} {x : Item} (h : readFrame k b = .ok x) :
    x.kind = k := by
  obtain ⟨f, -, -, -, hx⟩ := readFrame_ok h
  exact Item.kind_of_ofJson hx

/-- The objects in a document that is read have their members in order. -/
theorem isSorted_of_readFrame {k : Kind} {b : Bytes} {x : Item} {data : Json}
    (h : readFrame k b = .ok x) (hdata : x.content = .document data) : data.isSorted = true := by
  obtain ⟨f, hf, -, -, hx⟩ := readFrame_ok h
  obtain ⟨input, rest, hread⟩ := Frame.isRead_of_parse hf
  exact Item.isSorted_of_ofJson (Json.isSorted_of_readValue hread) hx hdata

/-- An item is what its frame is read as, if its record nests within the limit of a body and what
a document holds is in normal form. -/
theorem readFrame_nested {x : Item} {b : Bytes} (hwords : x.toJson.holdsWords = true)
    (hdepth : x.toJson.nesting ≤ Frame.bodyDepth)
    (hnormal : ∀ data, x.content = .document data → data.normal = data)
    (h : frame x = .ok b) : readFrame x.kind b = .ok x := by
  have hparse : Frame.parse b = .ok ⟨x.kind.tag, x.kind.schema, x.toJson.normal⟩ := by
    rw [frame_ok h]
    exact Frame.parse_write hwords hdepth
  simp only [readFrame, hparse]
  rw [if_neg (by simp [Kind.accepts_tag]), if_neg (UInt16.not_lt.mpr (UInt16.le_refl _)),
    Item.ofJson_toJson hnormal]

/-- An item that is no document is what its frame is read as. -/
theorem readFrame_frame {x : Item} {b : Bytes} (hkind : x.kind ≠ .document)
    (h : frame x = .ok b) : readFrame x.kind b = .ok x := by
  have hnone {P : Json → Prop} (data : Json) (hx : x.content = .document data) : P data :=
    absurd (congrArg Content.kind hx) hkind
  exact readFrame_nested (Item.holdsWords_toJson hnone)
    (Nat.le_trans (Item.nesting_toJson_le hkind) (by decide)) hnone h

/-- A frame is read as no kind of item if its record nests above the limit of a body. -/
theorem readFrame_tooDeep {x : Item} {b : Bytes} (hwords : x.toJson.holdsWords = true)
    (hdepth : Frame.bodyDepth < x.toJson.nesting) (h : frame x = .ok b) (k : Kind) :
    ∃ place : Json.Located,
      readFrame k b = .error (.serialization (.text place)) ∧ place.fault = .tooDeep := by
  have hstops : Json.Stops [0x7d] := .inr (.inr rfl)
  obtain ⟨r, hr⟩ := Json.readValue_tooDeep hwords hdepth hstops
  rw [readFrame, frame_ok h, Frame.parse_write_error hr]
  exact ⟨_, rfl, rfl⟩

/-- Whatever kind a frame is read as, the identity in it is the one that was written. -/
theorem eq_of_readFrame {x y : Item} {k : Kind} {b : Bytes} (h : frame x = .ok b)
    (hread : readFrame k b = .ok y) : y.objectRef = x.objectRef ∧ y.version = x.version := by
  obtain ⟨f, hf, -, -, hy⟩ := readFrame_ok hread
  rw [frame_ok h, Frame.parse_write_iff] at hf
  exact Item.eq_of_ofJson hf.2.2 hy

/-! ### Payloads -/

theorem encodePlain_ok {x : Item} {p : Payload} (h : encodePlain x = .ok p) :
    ∃ b, frame x = .ok b ∧ p = ⟨b, none⟩ := by
  unfold encodePlain at h
  cases hb : frame x with
  | error e => rw [hb] at h; cases h
  | ok b => rw [hb] at h; cases h; exact ⟨b, rfl, rfl⟩

theorem encodeSealed_ok {c : Cipher} {s : Secret} {nonce : Bytes} {r : String} {v : UInt16}
    {x : Item} {p : Payload} (h : encodeSealed c s nonce r v x = .ok p) :
    ∃ b parts, frame x = .ok b ∧ c.encrypt s nonce b (associatedData r v) = .ok parts ∧
      Envelope.build parts = .ok p.bytes ∧ p.keyId = some s.reference := by
  unfold encodeSealed at h
  split at h
  · cases h
  · next b hb =>
    split at h
    · cases h
    · next parts hparts =>
      cases hbuild : Envelope.build parts with
      | error e => rw [hbuild] at h; cases h
      | ok bytes => rw [hbuild] at h; cases h; exact ⟨b, parts, hb, hparts, hbuild, rfl⟩

theorem encodeSealed_of_build {c : Cipher} {s : Secret} {nonce : Bytes} {r : String} {v : UInt16}
    {x : Item} {b envelope : Bytes} {parts : Sealed} (hframe : frame x = .ok b)
    (hseal : c.encrypt s nonce b (associatedData r v) = .ok parts)
    (hbuild : Envelope.build parts = .ok envelope) :
    encodeSealed c s nonce r v x = .ok ⟨envelope, some s.reference⟩ := by
  simp only [encodeSealed, hframe, hseal, hbuild]
  rfl

theorem decodeSealed_of_build {c : Cipher} {s : Secret} {r : String} {v : UInt16}
    {b envelope : Bytes} {parts : Sealed} (hbuild : Envelope.build parts = .ok envelope)
    (hopen : c.decrypt s parts (associatedData r v) = .ok b) (k : Kind) :
    decodeSealed c k s r v envelope = readFrame k b := by
  simp only [decodeSealed, Envelope.parse_build hbuild, hopen]

theorem decodeSealed_ok {c : Cipher} {k : Kind} {s : Secret} {r : String} {v : UInt16} {b : Bytes}
    {x : Item} (h : decodeSealed c k s r v b = .ok x) :
    ∃ parts plaintext, Envelope.parse b = .ok parts ∧
      c.decrypt s parts (associatedData r v) = .ok plaintext ∧ readFrame k plaintext = .ok x := by
  unfold decodeSealed at h
  split at h
  · cases h
  · next parts hparts =>
    split at h
    · cases h
    · next plaintext hplaintext => exact ⟨parts, plaintext, hparts, hplaintext, h⟩

theorem kind_of_decodeSealed {c : Cipher} {k : Kind} {s : Secret} {r : String} {v : UInt16}
    {b : Bytes} {x : Item} (h : decodeSealed c k s r v b = .ok x) : x.kind = k := by
  obtain ⟨-, plaintext, -, -, hread⟩ := decodeSealed_ok h
  exact kind_of_readFrame hread

/-- A payload sealed under ChaCha20-Poly1305 is opened by every secret with the same key, whatever
its reference, and what is read then is the frame of the item; under a nonce of another length
nothing is ever opened. -/
theorem decodeSealed_encodeSealed {s t : Secret} {nonce : Bytes} {r : String} {v : UInt16}
    {x : Item} {p : Payload} (hkey : t.key = s.key)
    (h : encodeSealed .chaCha s nonce r v x = .ok p) : ∃ b, frame x = .ok b ∧ ∀ k,
      decodeSealed .chaCha k t r v p.bytes =
        if nonce.length = nonceSize then readFrame k b
        else .error (.decryptionFailed r v (.nonceLength nonce.length)) := by
  obtain ⟨b, parts, hb, hparts, hbuild, -⟩ := encodeSealed_ok h
  refine ⟨b, hb, fun k => ?_⟩
  simp only [decodeSealed, Envelope.parse_build hbuild, Cipher.chaCha_decrypt_encrypt hkey hparts]
  by_cases hn : nonce.length = nonceSize
  · rw [if_pos hn, if_pos hn]
  · rw [if_neg hn, if_neg hn]

end Payload

end ObjectTiers
