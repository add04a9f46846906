/-
Payloads written and read back.

Every item but a document is read back from its plain payload; a document is, up to the nesting
that the limit of the reader leaves it, and the writer has no limit (`decodePlain_encodePlain`). A
sealed payload is opened by every secret with the key it was sealed with, as long as iv and tag
leave their lengths in one byte each (`reopens_chaCha_passThrough`).
-/
import ObjectTiers.Proofs.Envelope

namespace ObjectTiers

namespace Payload

variable {x : Item} {c : Cipher} {s : Secret} {nonce : Bytes} {r : String} {v : UInt16}

/-- Only the text `refuse` keeps an item from being written. -/
theorem frame_of_ne (h : x.content ≠ .refuses "refuse") :
    frame x = .ok (Frame.write ⟨x.kind.tag, x.kind.schema, x.toJson⟩) := by
  have hrefused : Item.isRefused x.content = false := by
    cases hc : x.content with
    | refuses data =>
      rw [Item.isRefused, beq_eq_false_iff_ne]
      rintro rfl
      exact h hc
    | _ => rfl
  rw [frame, Item.toJson?, hrefused]
  rfl

/-! ### Plain payloads -/

theorem encodePlain_of_frame {b : Bytes} (h : frame x = .ok b) : encodePlain x = .ok ⟨b, none⟩ := by
  rw [encodePlain, h]
  rfl

/-- An item that is no document is read back from its plain payload. A document is read back if
its data nest no more than 125 levels deep; otherwise its payload is made and cannot be read. The
objects in its data have their members in order; no other documents are read from a payload. -/
theorem decodePlain_encodePlain (x : Item) :
    (x.kind ≠ .document → x.content ≠ .refuses "refuse" →
      ∃ p, encodePlain x = .ok p ∧ p.keyId = none ∧ decodePlain x.kind p.bytes = .ok x) ∧
    (∀ data, x.content = .document data → data.isSorted = true → data.holdsWords = true →
      ∃ p, encodePlain x = .ok p ∧ p.keyId = none ∧
        (data.nesting ≤ 125 → decodePlain x.kind p.bytes = .ok x) ∧
        (125 < data.nesting → ∃ place : Json.Located, place.fault = .tooDeep ∧
          decodePlain x.kind p.bytes = .error (.serialization (.text place)))) ∧
    ∀ k b data, decodePlain k b = .ok x → x.content = .document data → data.isSorted = true := by
  refine ⟨fun hkind hcontent => ?_, fun data hdata hsorted hwords => ?_,
    fun k b data hread hdata => isSorted_of_readFrame hread hdata⟩
  · have hframe := frame_of_ne hcontent
    exact ⟨_, encodePlain_of_frame hframe, rfl, readFrame_frame hkind hframe⟩
  · have hframe := frame_of_ne (x := x) (by simp [hdata])
    have hdepth : Frame.bodyDepth = 125 + 1 := rfl
    have hnesting := Item.nesting_toJson_document hdata
    have hbody : x.toJson.holdsWords = true := by
      refine Item.holdsWords_toJson fun data' h => ?_
      cases hdata.symm.trans h
      exact hwords
    refine ⟨_, encodePlain_of_frame hframe, rfl, fun hle => ?_, fun hlt => ?_⟩
    · refine readFrame_nested hbody (by omega) (fun data' h => ?_) hframe
      cases hdata.symm.trans h
      exact Json.normal_of_isSorted hsorted
    · obtain ⟨place, hread, hfault⟩ := readFrame_tooDeep hbody (by omega) hframe x.kind
      exact ⟨place, hfault, hread⟩

/-- Arrays in one another. -/
def layers : Nat → Json
  | 0 => .null
  | n + 1 => .array [layers n]

theorem decodePlain_encodePlain_layers :
    (∃ p, encodePlain ⟨"a", 1, .flags ["\"", "\n"]⟩ = .ok p ∧ p.keyId = none ∧
      decodePlain .flags p.bytes = .ok ⟨"a", 1, .flags ["\"", "\n"]⟩) ∧
    (∃ p, encodePlain ⟨"a", 1, .document (layers 125)⟩ = .ok p ∧
      decodePlain .document p.bytes = .ok ⟨"a", 1, .document (layers 125)⟩ ∧
      (layers 125).isSorted = true) ∧
    ∃ p, encodePlain ⟨"a", 1, .document (layers 126)⟩ = .ok p ∧
      ∃ place : Json.Located, place.fault = .tooDeep ∧
        decodePlain .document p.bytes = .error (.serialization (.text place)) := by
  refine ⟨(decodePlain_encodePlain ⟨"a", 1, .flags ["\"", "\n"]⟩).1 (by decide) nofun, ?_, ?_⟩
  · obtain ⟨-, hdocument, hsorted⟩ :=
      decodePlain_encodePlain ⟨"a", 1, .document (layers 125)⟩
    obtain ⟨p, hp, -, hread, -⟩ :=
      hdocument (layers 125) rfl (by decide +kernel) (by decide +kernel)
    have hitem := hread (by decide +kernel)
    exact ⟨p, hp, hitem, hsorted _ _ _ hitem rfl⟩
  · obtain ⟨-, hdocument, -⟩ := decodePlain_encodePlain ⟨"a", 1, .document (layers 126)⟩
    obtain ⟨p, hp, -, -, hread⟩ :=
      hdocument (layers 126) rfl (by decide +kernel) (by decide +kernel)
    exact ⟨p, hp, hread (by decide +kernel)⟩

/-! ### Sealed payloads -/

/-- A payload is made that names the secret, and every secret with the same key, whatever its
reference, reads the item from it. -/
def Reopens (c : Cipher) (s : Secret) (nonce : Bytes) (r : String) (v : UInt16) (x : Item) : Prop :=
  ∃ p, encodeSealed c s nonce r v x = .ok p ∧ p.keyId = some s.reference ∧
    ∀ t : Secret, t.key = s.key → decodeSealed c x.kind t r v p.bytes = .ok x

/-- A cipher that opens what it seals, with an iv and a tag that fit an envelope. -/
theorem reopens_of_encrypt {b : Bytes} {parts : Sealed} (hkind : x.kind ≠ .document)
    (hframe : frame x = .ok b) (hseal : c.encrypt s nonce b (associatedData r v) = .ok parts)
    (hiv : parts.iv.length ≤ 255) (htag : parts.tag.length ≤ 255)
    (hopen : ∀ t : Secret, t.key = s.key → c.decrypt t parts (associatedData r v) = .ok b) :
    Reopens c s nonce r v x := by
  obtain ⟨envelope, henvelope⟩ : ∃ envelope, Envelope.build parts = .ok envelope :=
    ⟨_, Envelope.build_of_lengths hiv htag⟩
  refine ⟨_, encodeSealed_of_build hframe hseal henvelope, rfl, fun t hkey => ?_⟩
  rw [decodeSealed_of_build henvelope (hopen t hkey)]
  exact readFrame_frame hkind hframe

/-- Sealed under ChaCha20-Poly1305, or under a cipher that leaves the plaintext as it is, an item is
read back by every secret with the same key. An envelope that would not hold the length of the iv
or of the tag is not made, and of the two the iv is blamed first. -/
theorem reopens_chaCha_passThrough (x : Item) (hkind : x.kind ≠ .document)
    (hcontent : x.content ≠ .refuses "refuse") (s : Secret) (r : String) (v : UInt16)
    (nonce : Bytes) (hnonce : nonce.length = nonceSize) :
    Reopens .chaCha s nonce r v x ∧ ∀ n m,
      (n ≤ 255 → m ≤ 255 → Reopens (.passThrough n m) s nonce r v x) ∧
      (255 < n → encodeSealed (.passThrough n m) s nonce r v x = .error (.tooLarge .iv n)) ∧
      (n ≤ 255 → 255 < m →
        encodeSealed (.passThrough n m) s nonce r v x = .error (.tooLarge .tag m)) := by
  have hframe := frame_of_ne hcontent
  refine ⟨?_, fun n m => ⟨fun hn hm => ?_, fun hn => ?_, fun hn hm => ?_⟩⟩
  · refine reopens_of_encrypt hkind hframe rfl ?_ ?_ fun t hkey => ?_
    · rw [hnonce]
      decide
    · rw [Cipher.length_chaChaTag]
      decide
    · rw [Cipher.chaCha_decrypt_encrypt hkey rfl, if_pos hnonce]
  · refine reopens_of_encrypt hkind hframe rfl ?_ ?_ fun t _ => ?_
    · rwa [List.length_replicate]
    · rwa [List.length_replicate]
    · exact if_pos ⟨List.length_replicate, List.length_replicate⟩
  · have hlong : 255 < (List.replicate n (0xa1 : UInt8)).length := by rwa [List.length_replicate]
    simp only [encodeSealed, hframe, Cipher.passThrough, Envelope.build]
    rw [if_pos hlong, List.length_replicate]
    rfl
  · have hshort : ¬ 255 < (List.replicate n (0xa1 : UInt8)).length := by
      rwa [List.length_replicate, Nat.not_lt]
    have hlong : 255 < (List.replicate m (0xb2 : UInt8)).length := by rwa [List.length_replicate]
    simp only [encodeSealed, hframe, Cipher.passThrough, Envelope.build]
    rw [if_neg hshort, if_pos hlong, List.length_replicate]
    rfl

theorem reopens_chaCha_passThrough_edge : ∃ x s nonce, x = ⟨"a", 1, .flags ["\"", "\n"]⟩ ∧
    s = ⟨"k", List.replicate 32 7, rfl⟩ ∧ nonce = List.replicate 12 9 ∧
    Reopens .chaCha s nonce "b" 2 x ∧ Reopens (.passThrough 255 255) s nonce "b" 2 x ∧
    encodeSealed (.passThrough 256 256) s nonce "b" 2 x = .error (.tooLarge .iv 256) ∧
    encodeSealed (.passThrough 255 256) s nonce "b" 2 x = .error (.tooLarge .tag 256) := by
  obtain ⟨hchaCha, hpass⟩ := reopens_chaCha_passThrough ⟨"a", 1, .flags ["\"", "\n"]⟩ (by decide)
    nofun ⟨"k", List.replicate 32 7, rfl⟩ "b" 2 (List.replicate 12 9) rfl
  exact ⟨_, _, _, rfl, rfl, rfl, hchaCha, (hpass 255 255).1 (by decide) (by decide),
    (hpass 256 256).2.1 (by decide), (hpass 255 256).2.2 (by decide) (by decide)⟩

end Payload

end ObjectTiers
