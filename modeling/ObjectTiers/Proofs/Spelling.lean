/-
One object, many records.

What is written is read back, and it is the shortest of the byte strings that are read as the same
row or entry (`Row.toBytes_shortest`, `Entry.toBytes_marked`). It is not the only one: bytes between
the parts of a record and the padding in its root are never looked at, so that everything that is
read has a twin of the same length (`Entry.ofBytes?_respelled`).
-/
import ObjectTiers.Proofs.Record

namespace ObjectTiers

open Layout

namespace Row

variable {r : Row} {b : Bytes} {low high here : Nat} {keyId : Option String}

theorem HoldsKey.room (hle : low ≤ high) (h : HoldsKey b low high here keyId) :
    low + (outside ((keyId.map Bytes.ofText).getD [])).length ≤ high ∧
      ∀ k ∈ keyId, (Bytes.ofText k).length < textLimit := by
  cases h with
  | absent hmark => exact ⟨hle, nofun⟩
  | present hmark h =>
    obtain ⟨hnext, hend, hlimit⟩ := h.room hle
    refine ⟨Nat.le_trans hnext hend, ?_⟩
    rintro k ⟨⟩
    exact hlimit

/-- Whatever spells a row has room for its content before the root. -/
theorem SpelledBy.room (h : r.SpelledBy b) : ∃ root, b.length = root + rootSize ∧
    root % rootAlignment = 0 ∧ r.content.length ≤ root ∧
    ∀ t ∈ r.texts, (Bytes.ofText t).length < textLimit := by
  obtain @⟨root, payloadLow, keyLow, hlength, hmod, href, hversion, hpayload, hkey, hupdated⟩ := h
  obtain ⟨hrefEnd, hrefHigh, hrefLimit⟩ := href.room (Nat.zero_le _)
  obtain ⟨hpayloadEnd, hpayloadHigh⟩ := hpayload.room
  obtain ⟨hkeyEnd, hkeyLimit⟩ := hkey.room hpayloadHigh
  refine ⟨root, hlength, hmod, ?_, ?_⟩
  · simp only [content, List.length_append]
    omega
  · intro t ht
    rw [texts, List.mem_cons] at ht
    rcases ht with rfl | ht
    · exact hrefLimit
    · exact hkeyLimit t (Option.mem_toList.mp ht)

/-- No spelling of a row is shorter than its record. -/
theorem SpelledBy.length_toBytes_le (h : r.SpelledBy b) : r.toBytes.length ≤ b.length := by
  obtain ⟨root, hlength, hmod, hcontent, -⟩ := h.room
  rw [r.toBytes_eq]
  exact length_record_le (by decide) (r.length_fields _) hlength hmod hcontent

theorem SpelledBy.encode?_eq_some (h : r.SpelledBy b) (hsize : b.length < sizeLimit) :
    r.encode? = some r.toBytes := by
  obtain ⟨root, -, -, -, htexts⟩ := h.room
  exact if_pos (fits_iff.mpr ⟨htexts, Nat.lt_of_le_of_lt h.length_toBytes_le hsize⟩)

/-- A row below the limit has a record, which is read as the row; and of all byte strings below the
limit that are read as the row this record is the shortest. -/
theorem toBytes_shortest (r : Row) :
    (r.toBytes.length < textLimit →
      r.encode? = some r.toBytes ∧ ofBytes? r.toBytes = some r) ∧
    ∀ b, b.length < textLimit → ofBytes? b = some r →
      r.encode? = some r.toBytes ∧ r.toBytes.length ≤ b.length ∧ ofBytes? r.toBytes = some r := by
  refine ⟨fun h => ?_, fun b hsize h => ?_⟩
  · have hencode := encode?_eq_some h
    exact ⟨hencode, ofBytes?_of_encode? hencode⟩
  · have hsize : b.length < sizeLimit := Nat.lt_trans hsize (by decide)
    have hspelled := (ofBytes?_eq_some_iff hsize).mp h
    have hencode := hspelled.encode?_eq_some hsize
    exact ⟨hencode, hspelled.length_toBytes_le, ofBytes?_of_encode? hencode⟩

/-- A long reference, an empty key id, and a record with bytes in front of it. -/
theorem toBytes_shortest_behind : ∃ r b,
    r = ⟨"app.mailer.smtp", 7, [1, 2, 3], some "", -1⟩ ∧ b = List.replicate 8 9 ++ r.toBytes ∧
    ofBytes? r.toBytes = some r ∧ ofBytes? b = some r ∧ r.encode? = some r.toBytes ∧
    r.toBytes.length ≤ b.length := by
  obtain ⟨r, hr⟩ : ∃ r : Row, r = ⟨"app.mailer.smtp", 7, [1, 2, 3], some "", -1⟩ := ⟨_, rfl⟩
  obtain ⟨b, hb⟩ : ∃ b, b = List.replicate 8 9 ++ r.toBytes := ⟨_, rfl⟩
  have hsize : b.length < textLimit := by
    rw [hb, hr]
    decide +kernel
  have hread : ofBytes? b = some r := by
    rw [hb, hr]
    decide +kernel
  have hsmall : r.toBytes.length < textLimit := by
    rw [hr]
    decide +kernel
  obtain ⟨hwritten, hshortest⟩ := r.toBytes_shortest
  obtain ⟨hencode, hle, -⟩ := hshortest b hsize hread
  exact ⟨r, b, hr, hb, (hwritten hsmall).2, hread, hencode, hle⟩

end Row

namespace Entry

variable {e : Entry} {b : Bytes} {low high here : Nat} {p : EntryPayload}

theorem HoldsPayload.room (hle : low ≤ high) (h : HoldsPayload b low high here p) :
    low + ((outside (payloadParts p).1).length + (payloadParts p).2.length) ≤ high ∧
      (payloadParts p).1.length < textLimit := by
  cases h with
  | plain hmark h =>
    obtain ⟨hnext, hend⟩ := h.room
    rw [payloadParts, show outside [] = [] from rfl, List.length_nil, Nat.zero_add]
    exact ⟨Nat.le_trans hnext hend, by decide⟩
  | box hmark hkey h =>
    obtain ⟨hkeyEnd, hkeyHigh, hlimit⟩ := hkey.room hle
    obtain ⟨hnext, hend⟩ := h.room
    exact ⟨by simp only [payloadParts]; omega, hlimit⟩

/-- Whatever spells an entry has room for its content before the root. -/
theorem SpelledBy.room (h : e.SpelledBy b) : ∃ root, b.length = root + rootSize ∧
    root % rootAlignment = 0 ∧ e.content.length ≤ root ∧
    ∀ t ∈ e.texts, (Bytes.ofText t).length < textLimit := by
  obtain @⟨root, tagLow, payloadLow, hlength, hmod, href, hversion, htag, hpayload⟩ := h
  obtain ⟨hrefEnd, hrefHigh, hrefLimit⟩ := href.room (Nat.zero_le _)
  obtain ⟨htagEnd, htagHigh, htagLimit⟩ := htag.room hrefHigh
  obtain ⟨hpayloadEnd, hkeyLimit⟩ := hpayload.room htagHigh
  refine ⟨root, hlength, hmod, ?_, ?_⟩
  · simp only [content, List.length_append]
    omega
  · intro t ht
    rcases mem_texts_cases ht with rfl | rfl | ht
    · exact hrefLimit
    · exact htagLimit
    · rwa [ht]

theorem SpelledBy.length_body_le (h : e.SpelledBy b) : e.body.length ≤ b.length := by
  obtain ⟨root, hlength, hmod, hcontent, -⟩ := h.room
  rw [e.body_eq]
  exact length_record_le (by decide) (e.length_fields _) hlength hmod hcontent

theorem SpelledBy.encode?_eq_some (h : e.SpelledBy b) (hsize : b.length < sizeLimit) :
    e.encode? = some e.toBytes := by
  obtain ⟨root, -, -, -, htexts⟩ := h.room
  exact if_pos (fits_iff.mpr ⟨htexts, Nat.lt_of_le_of_lt h.length_body_le hsize⟩)

theorem length_outside_le {t : String} (ht : t ∈ e.texts) :
    (outside (Bytes.ofText t)).length ≤ e.content.length := by
  simp only [content, List.length_append]
  rcases mem_texts_cases ht with rfl | rfl | ht
  · omega
  · omega
  · rw [ht]
    omega

theorem encode?_of_length_lt (h : e.toBytes.length < textLimit) : e.encode? = some e.toBytes := by
  have hbody : e.body.length < textLimit := by
    rw [toBytes, List.length_append] at h
    omega
  have hcontent := length_le_rootOf rootAlignment e.content
  have hlength := e.length_body
  refine if_pos (fits_iff.mpr ⟨fun t ht => ?_, Nat.lt_trans hbody (by decide)⟩)
  have hout := length_outside_le ht
  exact length_lt_of_outside (by omega)

theorem magic_eq : magic = Bytes.ofText "TSE1" := by
  decide +kernel

theorem isPrefixOf_magic_iff : magic.isPrefixOf b = true ↔ Bytes.ofText "TSE1" <+: b := by
  rw [List.isPrefixOf_iff_prefix, magic_eq]

/-- An entry below the limit has a record, which is read as the entry; all records of entries start
with the magic bytes, and nothing is read that does not. -/
theorem toBytes_marked :
    (∀ e : Entry, e.toBytes.length < textLimit →
      e.encode? = some e.toBytes ∧ ofBytes? e.toBytes = some e) ∧
    (∀ (e : Entry) (b : Bytes), e.encode? = some b → Bytes.ofText "TSE1" <+: b) ∧
    ∀ b, ¬ Bytes.ofText "TSE1" <+: b → ofBytes? b = none := by
  refine ⟨fun e h => ?_, fun e b h => ?_, fun b h => ?_⟩
  · have hencode := encode?_of_length_lt h
    exact ⟨hencode, ofBytes?_of_encode? hencode⟩
  · unfold encode? at h
    split at h
    · cases h
      exact ⟨e.body, by rw [toBytes, magic_eq]⟩
    · cases h
  · rw [← isPrefixOf_magic_iff] at h
    unfold ofBytes?
    rw [if_neg h]

/-- An empty plain entry, a sealed one with a long key id and nothing in the envelope, and bytes
with another mark. -/
theorem toBytes_marked_trial : ∃ e₁ e₂ b, e₁ = ⟨"", 0, "", .plain []⟩ ∧
    e₂ = ⟨"app.mailer", 65535, "app.Refuses", .sealed "a key of nineteen b" []⟩ ∧
    b = Bytes.ofText "TSE2" ++ e₁.body ∧ ofBytes? e₁.toBytes = some e₁ ∧
    ofBytes? e₂.toBytes = some e₂ ∧ Bytes.ofText "TSE1" <+: e₂.toBytes ∧ ofBytes? b = none := by
  obtain ⟨e₁, h₁⟩ : ∃ e : Entry, e = ⟨"", 0, "", .plain []⟩ := ⟨_, rfl⟩
  obtain ⟨e₂, h₂⟩ : ∃ e : Entry,
      e = ⟨"app.mailer", 65535, "app.Refuses", .sealed "a key of nineteen b" []⟩ := ⟨_, rfl⟩
  have hsmall₁ : e₁.toBytes.length < textLimit := by
    rw [h₁]
    decide +kernel
  have hsmall₂ : e₂.toBytes.length < textLimit := by
    rw [h₂]
    decide +kernel
  have hforeign : ¬ Bytes.ofText "TSE1" <+: Bytes.ofText "TSE2" ++ e₁.body := by
    rw [h₁]
    decide +kernel
  obtain ⟨hread, hmarked, hnone⟩ := toBytes_marked
  exact ⟨e₁, e₂, _, h₁, h₂, rfl, (hread e₁ hsmall₁).2, (hread e₂ hsmall₂).2,
    hmarked e₂ _ (hread e₂ hsmall₂).1, hnone _ hforeign⟩

/-! ### Twins -/

theorem ofBytes?_eq_some_iff (hsize : b.length < sizeLimit) :
    ofBytes? b = some e ↔ ∃ body, b = magic ++ body ∧ e.SpelledBy body := by
  unfold ofBytes?
  constructor
  · intro h
    split at h
    · next hmagic =>
      obtain ⟨body, rfl⟩ := List.isPrefixOf_iff_prefix.mp hmagic
      rw [List.drop_left] at h
      rw [List.length_append] at hsize
      exact ⟨body, rfl, (ofBody?_eq_some_iff (by omega)).mp h⟩
    · cases h
  · rintro ⟨body, rfl, h⟩
    rw [List.length_append] at hsize
    rw [if_pos (List.isPrefixOf_iff_prefix.mpr ⟨body, rfl⟩), List.drop_left]
    exact (ofBody?_eq_some_iff (by omega)).mpr h

theorem HoldsPayload.set {j : Nat} (h : HoldsPayload b low high here p) (a : UInt8) (hj : high ≤ j)
    (hfield : j < here) : HoldsPayload (b.set j a) low high here p := by
  cases h with
  | plain hmark h => exact .plain (hmark.set a (.inl hfield)) (h.set a hj (.inl (by omega)))
  | box hmark hkey h =>
    exact .box (hmark.set a (.inl hfield)) (hkey.set a hj (.inl (by omega)))
      (h.set a hj (.inl (by omega)))

/-- The byte behind the version may be any. -/
theorem SpelledBy.set_padding (h : e.SpelledBy b) :
    ∃ i, i < b.length ∧ ∀ a, e.SpelledBy (b.set i a) := by
  obtain @⟨root, tagLow, payloadLow, hlength, hmod, href, hversion, htag, hpayload⟩ := h
  have hlength' : b.length = root + 40 := hlength
  refine ⟨root + 10, by omega, fun a => ?_⟩
  exact .intro (by rw [List.length_set, hlength]) hmod (href.set a (by omega) (.inr (by omega)))
    (hversion.set a (.inr (by simp [Bytes.length_littleBytes])))
    (htag.set a (by omega) (.inl (by omega))) (hpayload.set a (by omega) (by omega))

/-- The byte strings that are read as an entry are the magic bytes with any spelling of it behind
them. The record of the entry is the shortest of them; but each has a twin of its own length, which
is read as the same entry, so that at most one of the two is what would be written. -/
theorem ofBytes?_respelled (e : Entry) (b : Bytes) (hsize : b.length < sizeLimit) :
    (ofBytes? b = some e ↔ ∃ body, b = Bytes.ofText "TSE1" ++ body ∧ e.SpelledBy body) ∧
    (ofBytes? b = some e →
      e.encode? = some e.toBytes ∧ ofBytes? e.toBytes = some e ∧ e.toBytes.length ≤ b.length ∧
      ∃ twin, twin ≠ b ∧ twin.length = b.length ∧ ofBytes? twin = some e) := by
  rw [← magic_eq]
  refine ⟨ofBytes?_eq_some_iff hsize, fun h => ?_⟩
  obtain ⟨body, rfl, hspelled⟩ := (ofBytes?_eq_some_iff hsize).mp h
  rw [List.length_append] at hsize
  have hencode := hspelled.encode?_eq_some (by omega)
  have hle := hspelled.length_body_le
  refine ⟨hencode, ofBytes?_of_encode? hencode, ?_, ?_⟩
  · rw [toBytes, List.length_append, List.length_append]
    omega
  · obtain ⟨i, hi, hany⟩ := hspelled.set_padding
    refine ⟨magic ++ body.set i (body[i] + 1), ?_, ?_, ?_⟩
    · intro heq
      have hbyte := congrArg (·[i]?) (List.append_cancel_left heq)
      simp only [List.getElem?_set_self hi, List.getElem?_eq_getElem hi, Option.some.injEq] at hbyte
      simp at hbyte
    · simp
    · exact (ofBytes?_eq_some_iff (by simpa using hsize)).mpr ⟨_, rfl, hany _⟩

/-- A record with bytes in front of it, which are not read, and a twin of that. -/
theorem ofBytes?_respelled_behind : ∃ e b, e = ⟨"a", 1, "app.SmtpConfig", .plain [0xaa, 0xbb]⟩ ∧
    b = Bytes.ofText "TSE1" ++ (List.replicate 4 9 ++ e.body) ∧ b.length < sizeLimit ∧
    ofBytes? b = some e ∧ e.encode? = some e.toBytes ∧ e.toBytes.length ≤ b.length ∧
    ∃ twin, twin ≠ b ∧ twin.length = b.length ∧ ofBytes? twin = some e := by
  obtain ⟨e, he⟩ : ∃ e : Entry, e = ⟨"a", 1, "app.SmtpConfig", .plain [0xaa, 0xbb]⟩ := ⟨_, rfl⟩
  obtain ⟨b, hb⟩ : ∃ b, b = Bytes.ofText "TSE1" ++ (List.replicate 4 9 ++ e.body) := ⟨_, rfl⟩
  have hsize : b.length < sizeLimit := by
    rw [hb, he]
    decide +kernel
  have hread : ofBytes? b = some e := by
    rw [hb, he]
    decide +kernel
  obtain ⟨hencode, -, hle, htwin⟩ := (ofBytes?_respelled e b hsize).2 hread
  exact ⟨e, b, he, hb, hsize, hread, hencode, hle, htwin⟩

/-- Not everything that is read is what would be written: here a byte of the padding is set. -/
theorem ofBytes?_padded : ∃ b e,
    b = [0x54, 0x53, 0x45, 0x31, 0xaa, 0xbb, 0, 0,
      0x61, 0xff, 0xff, 0xff, 0xff, 0xff, 0xff, 0xff, 1, 0, 0xff, 0,
      0x74, 0xff, 0xff, 0xff, 0xff, 0xff, 0xff, 0xff, 0, 0, 0, 0,
      0xe4, 0xff, 0xff, 0xff, 2, 0, 0, 0, 0, 0, 0, 0, 0, 0, 0, 0] ∧
    e = ⟨"a", 1, "t", .plain [0xaa, 0xbb]⟩ ∧ ofBytes? b = some e ∧ e.encode? ≠ some b := by
  refine ⟨_, _, rfl, rfl, ?_, ?_⟩
  · decide +kernel
  · decide +kernel

end Entry

end ObjectTiers
