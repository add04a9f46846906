/-
The cipher: what is opened is what was sealed.

The stream gives a message back when it is applied twice, so that a message is opened exactly if it
is what sealing would make of it under the same nonce, tag and all
(`Cipher.chaCha_decrypt_eq_ok_iff`). Which secret is used, only its key tells
(`Cipher.chaCha_decrypt_encrypt`).
-/
import ObjectTiers.Cipher

namespace ObjectTiers

/-! ### The stream -/

namespace ChaCha20

theorem Row.length_toBytes (x : Row) : x.toBytes.length = 16 := by
  simp [Row.toBytes, Bytes.length_littleBytes]

theorem length_block (key nonce : Bytes) (counter : Nat) :
    (block key nonce counter).length = 64 := by
  simp [block, State.toBytes, Row.length_toBytes]

theorem length_stream (key nonce : Bytes) (counter n : Nat) :
    (stream key nonce counter n).length = 64 * n := by
  simp [stream, List.length_flatMap, length_block, List.map_const', Nat.mul_comm]

theorem length_apply (key nonce message : Bytes) :
    (apply key nonce message).length = message.length := by
  rw [apply, List.length_zipWith, length_stream]
  omega

theorem zipWith_xor_twice {a b : Bytes} (h : a.length ≤ b.length) :
    List.zipWith (· ^^^ ·) (List.zipWith (· ^^^ ·) a b) b = a := by
  induction a generalizing b with
  | nil => rfl
  | cons x a ih =>
    cases b with
    | nil => cases h
    | cons y b =>
      rw [List.zipWith_cons_cons, List.zipWith_cons_cons, ih (Nat.le_of_succ_le_succ h),
        UInt8.xor_assoc, UInt8.xor_self, UInt8.xor_zero]

theorem apply_apply (key nonce message : Bytes) :
    apply key nonce (apply key nonce message) = message := by
  rw [apply, length_apply, apply]
  refine zipWith_xor_twice ?_
  rw [length_stream]
  omega

theorem apply_eq_iff {key nonce a b : Bytes} : apply key nonce a = b ↔ a = apply key nonce b := by
  constructor
  · rintro rfl
    rw [apply_apply]
  · rintro rfl
    rw [apply_apply]

end ChaCha20

/-! ### Sealing and opening -/

namespace Cipher

theorem length_chaChaTag (key nonce aad ciphertext : Bytes) :
    (chaChaTag key nonce aad ciphertext).length = tagSize :=
  Bytes.length_littleBytes 16 _

/-- What was sealed is opened under the same key and associated data, if its nonce has the right
length; otherwise it is opened under no key. -/
theorem chaCha_decrypt_encrypt {s t : Secret} {nonce plaintext aad : Bytes} {parts : Sealed}
    (hkey : t.key = s.key) (h : chaCha.encrypt s nonce plaintext aad = .ok parts) :
    chaCha.decrypt t parts aad =
      if nonce.length = nonceSize then .ok plaintext else .error (.nonceLength nonce.length) := by
  cases h
  simp only [chaCha, hkey]
  by_cases hn : nonce.length = nonceSize
  · rw [if_neg (by simpa using hn), if_neg (by simp [length_chaChaTag]), if_neg (by simp),
      ChaCha20.apply_apply, if_pos hn]
  · rw [if_pos hn, if_neg hn]

section Opening

variable {s : Secret} {parts : Sealed} {aad plaintext : Bytes}

/-- Parts of the right lengths are opened if the tag is that of the ciphertext, and refused
otherwise. -/
theorem chaCha_decrypt_of_lengths (hiv : parts.iv.length = nonceSize)
    (htag : parts.tag.length = tagSize) :
    chaCha.decrypt s parts aad =
      if parts.tag = chaChaTag s.key parts.iv aad parts.ciphertext then
        .ok (ChaCha20.apply s.key parts.iv parts.ciphertext)
      else .error .authenticationFailed := by
  simp only [chaCha]
  rw [if_neg (by simpa using hiv), if_neg (by simpa using htag), ite_not]
  simp only [eq_comm]

theorem chaCha_decrypt_of_nonce (hiv : parts.iv.length ≠ nonceSize) :
    chaCha.decrypt s parts aad = .error (.nonceLength parts.iv.length) :=
  if_pos hiv

theorem chaCha_decrypt_of_tag (hiv : parts.iv.length = nonceSize)
    (htag : parts.tag.length ≠ tagSize) :
    chaCha.decrypt s parts aad = .error (.tagLength parts.tag.length) := by
  simp only [chaCha]
  rw [if_neg (by simpa using hiv), if_pos htag]

theorem chaCha_encrypt_eq_ok_iff :
    chaCha.encrypt s parts.iv plaintext aad = .ok parts ↔
      parts.ciphertext = ChaCha20.apply s.key parts.iv plaintext ∧
        parts.tag = chaChaTag s.key parts.iv aad parts.ciphertext := by
  obtain ⟨iv, tag, ciphertext⟩ := parts
  simp only [chaCha, Except.ok.injEq, Sealed.mk.injEq, true_and]
  constructor
  · rintro ⟨rfl, rfl⟩
    exact ⟨rfl, rfl⟩
  · rintro ⟨rfl, rfl⟩
    exact ⟨rfl, rfl⟩

/-- Parts are opened exactly if sealing what is found in them, with their iv as the nonce, makes
these parts. -/
theorem opens_iff_seals :
    chaCha.decrypt s parts aad = .ok plaintext ↔
      parts.iv.length = nonceSize ∧ parts.tag.length = tagSize ∧
        chaCha.encrypt s parts.iv plaintext aad = .ok parts := by
  rw [chaCha_encrypt_eq_ok_iff]
  by_cases hiv : parts.iv.length = nonceSize
  · by_cases htag : parts.tag.length = tagSize
    · rw [chaCha_decrypt_of_lengths hiv htag]
      by_cases hauth : parts.tag = chaChaTag s.key parts.iv aad parts.ciphertext
      · rw [if_pos hauth, Except.ok.injEq, ChaCha20.apply_eq_iff]
        exact ⟨fun h => ⟨hiv, htag, h, hauth⟩, fun h => h.2.2.1⟩
      · rw [if_neg hauth]
        exact ⟨nofun, fun h => absurd h.2.2.2 hauth⟩
    · rw [chaCha_decrypt_of_tag hiv htag]
      exact ⟨nofun, fun h => absurd h.2.1 htag⟩
  · rw [chaCha_decrypt_of_nonce hiv]
    exact ⟨nofun, fun h => absurd h.1 hiv⟩

end Opening

/-- Opening accepts exactly what sealing makes: a message comes out of parts if they are what the
message is sealed as, with the same secret and associated data and their iv as the nonce; then it
is as long as the ciphertext. So of all tags one is accepted for an iv, a ciphertext and associated
data, and any other of the right length is refused for what it is. An iv of another length is
blamed before the tag, and both before the tag is compared. -/
theorem chaCha_decrypt_eq_ok_iff (s : Secret) (aad : Bytes) :
    (∀ parts plaintext, chaCha.decrypt s parts aad = .ok plaintext ↔
      parts.iv.length = nonceSize ∧ parts.tag.length = tagSize ∧
        chaCha.encrypt s parts.iv plaintext aad = .ok parts) ∧
    (∀ parts plaintext, chaCha.decrypt s parts aad = .ok plaintext →
      plaintext.length = parts.ciphertext.length) ∧
    (∀ iv ciphertext : Bytes, iv.length = nonceSize → ∃ tag : Bytes, tag.length = tagSize ∧
      (∃ plaintext, chaCha.decrypt s ⟨iv, tag, ciphertext⟩ aad = .ok plaintext) ∧
      ∀ other : Bytes, other ≠ tag → other.length = tagSize →
        chaCha.decrypt s ⟨iv, other, ciphertext⟩ aad = .error .authenticationFailed) ∧
    ∀ parts, (parts.iv.length ≠ nonceSize →
        chaCha.decrypt s parts aad = .error (.nonceLength parts.iv.length)) ∧
      (parts.iv.length = nonceSize → parts.tag.length ≠ tagSize →
        chaCha.decrypt s parts aad = .error (.tagLength parts.tag.length)) := by
  refine ⟨fun parts plaintext => opens_iff_seals, fun parts plaintext h => ?_,
    fun iv ciphertext hiv => ?_, fun parts => ⟨chaCha_decrypt_of_nonce, chaCha_decrypt_of_tag⟩⟩
  · obtain ⟨-, -, hseals⟩ := opens_iff_seals.mp h
    rw [(chaCha_encrypt_eq_ok_iff.mp hseals).1, ChaCha20.length_apply]
  · have hlength := length_chaChaTag s.key iv aad ciphertext
    refine ⟨chaChaTag s.key iv aad ciphertext, hlength, ?_, fun other hne hother => ?_⟩
    · rw [chaCha_decrypt_of_lengths hiv hlength, if_pos rfl]
      exact ⟨_, rfl⟩
    · rw [chaCha_decrypt_of_lengths hiv hother, if_neg hne]

/-- The example of RFC 8439, section 2.8.2: a message of 114 bytes, so that its last block is cut
short. -/
def sample : Sealed where
  iv := [0x07, 0, 0, 0, 0x40, 0x41, 0x42, 0x43, 0x44, 0x45, 0x46, 0x47]
  tag := [0x1a, 0xe1, 0x0b, 0x59, 0x4f, 0x09, 0xe2, 0x6a, 0x7e, 0x90, 0x2e, 0xcb, 0xd0, 0x60, 0x06,
    0x91]
  ciphertext := [
    0xd3, 0x1a, 0x8d, 0x34, 0x64, 0x8e, 0x60, 0xdb, 0x7b, 0x86, 0xaf, 0xbc, 0x53, 0xef, 0x7e, 0xc2,
    0xa4, 0xad, 0xed, 0x51, 0x29, 0x6e, 0x08, 0xfe, 0xa9, 0xe2, 0xb5, 0xa7, 0x36, 0xee, 0x62, 0xd6,
    0x3d, 0xbe, 0xa4, 0x5e, 0x8c, 0xa9, 0x67, 0x12, 0x82, 0xfa, 0xfb, 0x69, 0xda, 0x92, 0x72, 0x8b,
    0x1a, 0x71, 0xde, 0x0a, 0x9e, 0x06, 0x0b, 0x29, 0x05, 0xd6, 0xa5, 0xb6, 0x7e, 0xcd, 0x3b, 0x36,
    0x92, 0xdd, 0xbd, 0x7f, 0x2d, 0x77, 0x8b, 0x8c, 0x98, 0x03, 0xae, 0xe3, 0x28, 0x09, 0x1b, 0x58,
    0xfa, 0xb3, 0x24, 0xe4, 0xfa, 0xd6, 0x75, 0x94, 0x55, 0x85, 0x80, 0x8b, 0x48, 0x31, 0xd7, 0xbc,
    0x3f, 0xf4, 0xde, 0xf0, 0x8e, 0x4b, 0x7a, 0x9d, 0xe5, 0x76, 0xd2, 0x65, 0x86, 0xce, 0xc6, 0x4b,
    0x61, 0x16]

/-- The secret and the associated data of the example. -/
def sampleSecret : Secret := ⟨"k", (List.range 32).map fun i => .ofNat (0x80 + i), rfl⟩

/-- The associated data of the example. -/
def sampleData : Bytes := [0x50, 0x51, 0x52, 0x53, 0xc0, 0xc1, 0xc2, 0xc3, 0xc4, 0xc5, 0xc6, 0xc7]

/-- The plaintext of the example. -/
def sampleMessage : Bytes := Bytes.ofText <|
  "Ladies and Gentlemen of the class of '99: If I could offer you only one tip for the future, "
    ++ "sunscreen would be it."

/-- The example is opened, and with its iv, its tag or both made wrong it is refused. -/
theorem chaCha_decrypt_sample :
    chaCha.decrypt sampleSecret sample sampleData = .ok sampleMessage ∧
    sampleMessage.length = sample.ciphertext.length ∧
    chaCha.decrypt sampleSecret { sample with tag := List.replicate 16 0 } sampleData =
      .error .authenticationFailed ∧
    chaCha.decrypt sampleSecret { sample with tag := [] } sampleData = .error (.tagLength 0) ∧
    chaCha.decrypt sampleSecret ⟨[], [], sample.ciphertext⟩ sampleData =
      .error (.nonceLength 0) := by
  obtain ⟨hopens, hlength, htags, hrefused⟩ := chaCha_decrypt_eq_ok_iff sampleSecret sampleData
  have hseals : chaCha.encrypt sampleSecret sample.iv sampleMessage sampleData = .ok sample :=
    chaCha_encrypt_eq_ok_iff.mpr ⟨by decide +kernel, by decide +kernel⟩
  have hok := (hopens sample _).mpr ⟨rfl, rfl, hseals⟩
  obtain ⟨tag, -, -, hothers⟩ := htags sample.iv sample.ciphertext rfl
  -- the tag that is accepted for the iv and the ciphertext is the one that opened them
  have htag : sample.tag = tag := Decidable.byContradiction fun hne => by
    cases (hothers sample.tag hne rfl).symm.trans hok
  exact ⟨hok, hlength _ _ hok, hothers _ (htag ▸ by decide) rfl, (hrefused _).2 rfl (by decide),
    (hrefused _).1 (by decide)⟩

end Cipher

end ObjectTiers
