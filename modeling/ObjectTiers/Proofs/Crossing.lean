/-
Frames read as a kind that need not be their own.

Three things are looked at in their order, the tag, the schema version and the record, and each
only if those before it pass (`Gated`). Two kinds read the items of an older one, and a record of
the older kind is then read as the item that succeeds it (`Succeeds`). Everything else is refused
by its tag, in a plain payload and in a sealed one (`Payload.gated_crosses`).
-/
import ObjectTiers.Proofs.Payload

namespace ObjectTiers

/-! ### Kinds and their successors -/

/-- Which item an item of an older kind is read as: the same fields, and a rotation that was never
set. -/
inductive Succeeds : Item → Item → Prop
  | mailer (r : String) (v : UInt16) (host : String) (port : UInt16) :
      Succeeds ⟨r, v, .smtp host port⟩ ⟨r, v, .mailer host port⟩
  | vault (r : String) (v : UInt16) (id secret : String) :
      Succeeds ⟨r, v, .creds id secret⟩ ⟨r, v, .vault id secret none⟩

/-- A tag is accepted by its own kind and by the one that succeeds it. -/
theorem Kind.accepts_tag_iff (k j : Kind) :
    k.accepts j.tag = true ↔ k = j ∨ (k = .mailer ∧ j = .smtp) ∨ (k = .vault ∧ j = .creds) := by
  cases k <;> cases j <;> decide

namespace Succeeds

variable {x y : Item}

theorem of_accepts {k : Kind} (h : k.accepts x.kind.tag = true) (hne : k ≠ x.kind) :
    ∃ y, Succeeds x y ∧ y.kind = k := by
  obtain ⟨r, v, c⟩ := x
  rcases (Kind.accepts_tag_iff k _).mp h with hself | ⟨rfl, hsmtp⟩ | ⟨rfl, hcreds⟩
  · exact absurd hself hne
  · cases c with
    | smtp host port => exact ⟨_, .mailer r v host port, rfl⟩
    | _ => cases hsmtp
  · cases c with
    | creds id secret => exact ⟨_, .vault r v id secret, rfl⟩
    | _ => cases hcreds

theorem schema_le (h : Succeeds x y) : x.kind.schema ≤ y.kind.schema := by
  cases h with
  | mailer => exact (by decide : Kind.smtp.schema ≤ Kind.mailer.schema)
  | vault => exact (by decide : Kind.creds.schema ≤ Kind.vault.schema)

/-- A record of the older kind is read as the item that succeeds it. -/
theorem ofJson (h : Succeeds x y) : Item.ofJson y.kind (Json.normal x.toJson) = .ok y := by
  cases h with
  | mailer r v host port => exact Item.ofJson_toJson (x := ⟨r, v, .mailer host port⟩) nofun
  | vault r v id secret =>
    let x : Item := ⟨r, v, .creds id secret⟩
    let y : Item := ⟨r, v, .vault id secret none⟩
    rw [Item.normal_toJson (x := x) nofun]
    refine Item.ofJson_insertAll x.nodup_members (fun m hm => ?_) fun ms hlookup => ?_
    · -- the record of the successor has the same members and one more
      have hmem : m ∈ x.members ++ [("rotation", Json.null)] := List.mem_append_left _ hm
      exact Item.check_of_forall₂ y.check_members y.nodup_members m hmem
    · simp [Item.ofMembers, Item.readContent, Item.field, Item.optionalField, hlookup, x,
        Item.members, Item.contentFields, Item.kind, Content.kind, Json.lookup_cons_ite,
        Item.readText, Item.readWord16_ofNat, bind, Except.bind, pure, Except.pure]

end Succeeds

namespace Payload

/-- What comes of a frame that is read as a kind: its body matters only to a kind that accepts the
tag and knows the schema version. -/
structure Gated (k : Kind) (f : Frame) (result : Except EnvelopeError Item) : Prop where
  unexpected (htag : k.accepts f.tag = false) : result = .error (.unexpectedType k.tag f.tag)
  newer (htag : k.accepts f.tag = true) (hschema : k.schema < f.schema) :
    result = .error (.unsupportedSchema f.tag f.schema k.schema)
  read (htag : k.accepts f.tag = true) (hschema : f.schema ≤ k.schema) :
    result = (Item.ofJson k f.body).mapError fun fault => .serialization (.record fault)

/-- What comes of an item that is read as another kind. -/
structure Crosses (x : Item) (k : Kind) (result : Except EnvelopeError Item) : Prop where
  accepted (htag : k.accepts x.kind.tag = true) :
    ∃ y, Succeeds x y ∧ y.kind = k ∧ result = .ok y
  unexpected (htag : k.accepts x.kind.tag = false) :
    result = .error (.unexpectedType k.tag x.kind.tag)

/-! ### Plain payloads -/

theorem gated_of_parse {b : Bytes} {f : Frame} (h : Frame.parse b = .ok f) (k : Kind) :
    Gated k f (readFrame k b) := by
  rw [readFrame, h]
  constructor
  · intro htag
    simp only [htag]
    rfl
  · intro htag hschema
    simp only [htag, if_pos hschema]
    rfl
  · intro htag hschema
    simp only [htag, if_neg (UInt16.not_lt.mpr hschema)]
    cases Item.ofJson k f.body <;> rfl

theorem gated_of_frame {x : Item} {b : Bytes} (hb : frame x = .ok b)
    (hdata : ∀ data, x.content = .document data → data.holdsWords = true ∧ data.nesting ≤ 125)
    (k : Kind) : Gated k ⟨x.kind.tag, x.kind.schema, x.toJson.normal⟩ (readFrame k b) := by
  have hdepth : x.toJson.nesting ≤ Frame.bodyDepth := by
    have hbody : Frame.bodyDepth = 126 := rfl
    cases hc : x.content with
    | document data =>
      have hdata := (hdata data hc).2
      have hnesting := Item.nesting_toJson_document hc
      omega
    | _ =>
      have hnesting := Item.nesting_toJson_le (x := x) (by simp [Item.kind, Content.kind, hc])
      omega
  refine gated_of_parse ?_ k
  rw [frame_ok hb]
  exact Frame.parse_write (Item.holdsWords_toJson fun data h => (hdata data h).1) hdepth

/-- Where it is read as another kind, a frame that holds the record of an item is read as the
successor of the item. -/
theorem Gated.crosses {x : Item} {k : Kind} {result : Except EnvelopeError Item}
    (h : Gated k ⟨x.kind.tag, x.kind.schema, x.toJson.normal⟩ result) (hne : k ≠ x.kind) :
    Crosses x k result where
  accepted htag := by
    obtain ⟨y, hy, rfl⟩ := Succeeds.of_accepts htag hne
    exact ⟨y, hy, rfl, by rw [h.read htag hy.schema_le, hy.ofJson]; rfl⟩
  unexpected := h.unexpected

/-! ### Sealed payloads -/

/-- Whatever is sealed, every secret with the same key reads it as a frame. -/
theorem exists_envelope (s : Secret) {nonce : Bytes} (hnonce : nonce.length = nonceSize) (b : Bytes)
    (r : String) (v : UInt16) : ∃ parts envelope,
      Cipher.chaCha.encrypt s nonce b (associatedData r v) = .ok parts ∧
      Envelope.build parts = .ok envelope ∧ ∀ t : Secret, t.key = s.key → ∀ k,
        decodeSealed .chaCha k t r v envelope = readFrame k b := by
  obtain ⟨parts, hparts⟩ : ∃ parts,
      Cipher.chaCha.encrypt s nonce b (associatedData r v) = .ok parts := ⟨_, rfl⟩
  obtain ⟨hiv, htag⟩ : parts.iv.length = nonceSize ∧ parts.tag.length = tagSize := by
    cases hparts
    exact ⟨hnonce, Cipher.length_chaChaTag ..⟩
  obtain ⟨envelope, henvelope⟩ : ∃ envelope, Envelope.build parts = .ok envelope :=
    ⟨_, Envelope.build_of_lengths (by rw [hiv]; decide) (by rw [htag]; decide)⟩
  refine ⟨parts, envelope, hparts, henvelope, fun t hkey => decodeSealed_of_build henvelope ?_⟩
  rw [Cipher.chaCha_decrypt_encrypt hkey hparts, if_pos hnonce]

/-- However it is spelled, a frame is refused for its tag, whatever else it holds, by a kind that
does not accept it, and for its schema version by one that does and does not know the version;
otherwise its body is read as a record of the kind. A written frame of integers that nests within
the limit is such a frame. So an item that is read as another kind gives the item of that kind that
succeeds it, with all of its fields, if the kind accepts the tag of the item, and is refused for its
tag if not. All this holds of plain payloads, and of payloads sealed under ChaCha20-Poly1305 for
every secret with the key they are sealed with. -/
theorem gated_crosses :
    (∀ k b f, Frame.parse b = .ok f → Gated k f (decodePlain k b) ∧
      ∀ (s t : Secret) (nonce : Bytes) r v, t.key = s.key → nonce.length = nonceSize →
        ∃ parts envelope,
          Cipher.chaCha.encrypt s nonce b (associatedData r v) = .ok parts ∧
          Envelope.build parts = .ok envelope ∧
          Gated k f (decodeSealed .chaCha k t r v envelope)) ∧
    (∀ f : Frame, f.toJson.holdsWords = true → f.toJson.nesting ≤ 127 →
      Frame.parse f.write = .ok { f with body := f.body.normal } ∧
      ∀ k, Gated k { f with body := f.body.normal } (decodePlain k f.write)) ∧
    (∀ x k p, k ≠ x.kind → encodePlain x = .ok p →
      (∀ data, x.content = .document data → data.holdsWords = true ∧ data.nesting ≤ 125) →
      Crosses x k (decodePlain k p.bytes) ∧
      ∀ (s t : Secret) (nonce : Bytes) r v, t.key = s.key → nonce.length = nonceSize →
        ∃ q, encodeSealed .chaCha s nonce r v x = .ok q ∧
          Crosses x k (decodeSealed .chaCha k t r v q.bytes)) := by
  refine ⟨?gate, ?written, ?cross⟩
  case gate =>
    intro k b f hf
    have hgated : Gated k f (readFrame k b) := gated_of_parse hf k
    refine ⟨hgated, fun s t nonce r v hkey hnonce => ?_⟩
    obtain ⟨parts, envelope, hparts, henvelope, hopen⟩ := exists_envelope s hnonce b r v
    exact ⟨parts, envelope, hparts, henvelope, hopen t hkey k ▸ hgated⟩
  case written =>
    intro f hwords hdepth
    have hbody : Frame.bodyDepth = 126 := rfl
    have hnesting := f.nesting_toJson
    have hparse := Frame.parse_write (Frame.holdsWords_of_toJson hwords) (by omega)
    exact ⟨hparse, gated_of_parse hparse⟩
  case cross =>
    intro x k p hne hp hdata
    obtain ⟨b, hb, rfl⟩ := encodePlain_ok hp
    have hcrosses : Crosses x k (readFrame k b) := (gated_of_frame hb hdata k).crosses hne
    refine ⟨hcrosses, fun s t nonce r v hkey hnonce => ?_⟩
    obtain ⟨parts, envelope, hparts, henvelope, hopen⟩ := exists_envelope s hnonce b r v
    exact ⟨_, encodeSealed_of_build hb hparts henvelope, hopen t hkey k ▸ hcrosses⟩

/-- A vault reads credentials, but not the ones of a schema version that it does not know, and what
refuses them is told apart by a tag that has to be escaped. -/
theorem gated_crosses_vault :
    decodePlain .vault (Frame.write ⟨"app.ApiCredentials", 4, .null⟩) =
      .error (.unsupportedSchema "app.ApiCredentials" 4 3) ∧
    decodePlain .vault (Frame.write ⟨"\"\n", 4, .null⟩) =
      .error (.unexpectedType "app.VaultSettings" "\"\n") ∧
    (∃ p, encodePlain ⟨"a", 1, .creds "i" "s"⟩ = .ok p ∧
      decodePlain .vault p.bytes = .ok ⟨"a", 1, .vault "i" "s" none⟩) ∧
    ∃ q, encodeSealed .chaCha Cipher.sampleSecret Cipher.sample.iv "b" 2
        ⟨"a", 1, .document (layers 125)⟩ = .ok q ∧
      decodeSealed .chaCha .flags Cipher.sampleSecret "b" 2 q.bytes =
        .error (.unexpectedType "it.FeatureFlags" "app.Document") := by
  obtain ⟨-, hwritten, hcrosses⟩ := gated_crosses
  have hnewer := (hwritten ⟨"app.ApiCredentials", 4, .null⟩ (by decide) (by decide)).2 .vault
  have hescaped := (hwritten ⟨"\"\n", 4, .null⟩ (by decide) (by decide)).2 .vault
  refine ⟨hnewer.newer (by decide) (by decide), hescaped.unexpected (by decide), ?_, ?_⟩
  · have hp := encodePlain_of_frame (frame_of_ne (x := ⟨"a", 1, .creds "i" "s"⟩) nofun)
    obtain ⟨hcrossed, -⟩ := hcrosses ⟨"a", 1, .creds "i" "s"⟩ .vault _ nofun hp nofun
    obtain ⟨y, hy, -, hread⟩ := hcrossed.accepted rfl
    cases hy
    exact ⟨_, hp, hread⟩
  · let x : Item := ⟨"a", 1, .document (layers 125)⟩
    have hp := encodePlain_of_frame (frame_of_ne (x := x) nofun)
    have hdata : ∀ data, x.content = .document data →
        data.holdsWords = true ∧ data.nesting ≤ 125 := by
      rintro _ ⟨⟩
      exact ⟨by decide +kernel, by decide +kernel⟩
    obtain ⟨-, hsealed⟩ := hcrosses x .flags _ nofun hp hdata
    obtain ⟨q, hq, hread⟩ := hsealed Cipher.sampleSecret Cipher.sampleSecret Cipher.sample.iv "b" 2
      rfl rfl
    exact ⟨q, hq, hread.unexpected rfl⟩

end Payload

end ObjectTiers
