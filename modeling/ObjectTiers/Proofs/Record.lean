/-
Records and what they are read as. The byte strings that hold a row (`Row.SpelledBy`) or an entry
(`Entry.SpelledBy`) are told by where their fields stand and where what these name lies; readers
accept these and no others (`Row.ofBytes?_eq_some_iff`, `Entry.ofBody?_eq_some_iff`). The records
that are written are among them, so that what fits its record is what the record is read as
(`Row.ofBytes?_of_encode?`, `Entry.ofBytes?_of_encode?`), and a record below `2 ^ 30` bytes fits.
-/
import ObjectTiers.Record.Entry
import ObjectTiers.Record.Row
import ObjectTiers.Proofs.Layout

namespace ObjectTiers

open Layout

theorem Layout.version_eq_iff {b : Bytes} {i : Nat} {v : UInt16} (hi : i + 2 ≤ b.length) :
    .ofNat (natAt b i 2) = v ↔ StandsAt b i (Bytes.littleBytes 2 v.toNat) := by
  constructor
  · rintro rfl
    have hlt : natAt b i 2 < UInt16.size := natAt_lt hi
    rw [UInt16.toNat_ofNat_of_lt' hlt]
    exact (natAt_eq_iff hi hlt).mp rfl
  · intro h
    rw [h.natAt v.toNat_lt, UInt16.ofNat_toNat]

namespace Row

variable {r : Row} {b : Bytes} {low high here : Nat} {keyId : Option String}

/-! ### Reading a row -/

/-- The key id whose field stands at `here`, behind the mark that tells whether there is one. -/
def keyAt? (b : Bytes) (low high here : Nat) : Option (Option String) :=
  match natAt b here 1 with
  | 0 => some none
  | 1 => (textAt? b low high (here + 4)).map fun p => some p.1
  | _ => none

theorem ofBytes?_eq (b : Bytes) : ofBytes? b = (rootAt? rootAlignment b).bind fun root =>
    (textAt? b 0 root root).bind fun ref =>
    (bytesAt? b ref.2 root (root + 12)).bind fun payload =>
    (keyAt? b payload.2 root (root + 20)).map fun keyId =>
      ⟨ref.1, .ofNat (natAt b (root + 8) 2), payload.1, keyId,
        (UInt64.ofNat (natAt b (root + 32) 8)).toInt64⟩ := by
  unfold ofBytes? keyAt?
  simp only [Option.bind_eq_bind, Nat.add_assoc]
  congr 1
  funext root
  congr 1
  funext ref
  congr 1
  funext payload
  generalize natAt b (root + 20) 1 = mark
  rcases mark with _ | _ | mark
  · rfl
  · cases textAt? b payload.2 root (root + 24) <;> rfl
  · rfl

/-- The field at `here` tells whether there is a key id, and holds it. -/
inductive HoldsKey (b : Bytes) (low high here : Nat) : Option String → Prop
  | absent (hmark : StandsAt b here [0]) : HoldsKey b low high here none
  | present {keyId : String} {next : Nat} (hmark : StandsAt b here [1])
    (h : HoldsText b low high (here + 4) keyId next) : HoldsKey b low high here (some keyId)

theorem keyAt?_eq_some_iff (hhigh : high ≤ here) (hhere : here + 12 ≤ b.length)
    (hsize : b.length < sizeLimit) :
    keyAt? b low high here = some keyId ↔ HoldsKey b low high here keyId := by
  have hmark {n : Nat} := natAt_mark_iff (b := b) (i := here) (n := n) (by omega)
  have htext {s : String} {next : Nat} : textAt? b low high (here + 4) = some (s, next) ↔
      HoldsText b low high (here + 4) s next :=
    textAt?_eq_some_iff (by omega) hhere (by omega)
  unfold keyAt?
  constructor
  · intro h
    split at h
    · next h0 => cases h; exact .absent ((hmark (by decide)).mp h0)
    · next h1 =>
      obtain ⟨⟨s, next⟩, hs, h⟩ := Option.map_eq_some_iff.mp h
      cases h
      exact .present ((hmark (by decide)).mp h1) (htext.mp hs)
    · cases h
  · intro h
    cases h with
    | absent h0 => simp only [(hmark (by decide)).mpr h0]
    | present h1 hs => simp only [(hmark (by decide)).mpr h1, htext.mpr hs, Option.map_some]

/-- The byte strings that hold a row: its fields stand in an aligned root at the end, and what they
name lies before the root, in order. All other bytes are free. -/
inductive SpelledBy (r : Row) (b : Bytes) : Prop
  | intro {root payloadLow keyLow : Nat} (hlength : b.length = root + rootSize)
    (hroot : root % rootAlignment = 0)
    (href : HoldsText b 0 root root r.objectRef payloadLow)
    (hversion : StandsAt b (root + 8) (Bytes.littleBytes 2 r.version.toNat))
    (hpayload : HoldsBytes b payloadLow root (root + 12) r.payload keyLow)
    (hkey : HoldsKey b keyLow root (root + 20) r.keyId)
    (hupdated : StandsAt b (root + 32) (Bytes.littleBytes 8 r.updatedAt.toUInt64.toNat))

/-- A row is read from the byte strings that spell it, and from no others. -/
theorem ofBytes?_eq_some_iff (hsize : b.length < sizeLimit) :
    ofBytes? b = some r ↔ r.SpelledBy b := by
  rw [ofBytes?_eq]
  constructor
  · intro h
    obtain ⟨root, hroot, h⟩ := Option.bind_eq_some_iff.mp h
    obtain ⟨⟨ref, payloadLow⟩, href, h⟩ := Option.bind_eq_some_iff.mp h
    obtain ⟨⟨payload, keyLow⟩, hpayload, h⟩ := Option.bind_eq_some_iff.mp h
    obtain ⟨keyId, hkey, h⟩ := Option.map_eq_some_iff.mp h
    cases h
    obtain ⟨hlength, hmod⟩ := rootAt?_eq_some_iff.mp hroot
    have hlength' : b.length = root + 40 := hlength
    refine .intro hlength hmod
      ((textAt?_eq_some_iff (Nat.le_refl _) (by omega) (by omega)).mp href)
      ((version_eq_iff (by omega)).mp rfl)
      ((bytesAt?_eq_some_iff (by omega) (by omega) (by omega)).mp hpayload)
      ((keyAt?_eq_some_iff (by omega) (by omega) hsize).mp hkey) ?_
    have hlt : natAt b (root + 32) 8 < UInt64.size := natAt_lt (by omega)
    rw [UInt64.toUInt64_toInt64, UInt64.toNat_ofNat_of_lt' hlt]
    exact (natAt_eq_iff (by omega) hlt).mp rfl
  · intro h
    obtain @⟨root, payloadLow, keyLow, hlength, hmod, href, hversion, hpayload, hkey, hupdated⟩ := h
    have hlength' : b.length = root + 40 := hlength
    have hroot := rootAt?_eq_some_iff.mpr ⟨hlength, hmod⟩
    have href := (textAt?_eq_some_iff (Nat.le_refl _) (by omega) (by omega)).mpr href
    have hversion := (version_eq_iff (by omega)).mpr hversion
    have hpayload := (bytesAt?_eq_some_iff (by omega) (by omega) (by omega)).mpr hpayload
    have hkey := (keyAt?_eq_some_iff (by omega) (by omega) hsize).mpr hkey
    have hupdated := hupdated.natAt r.updatedAt.toUInt64.toNat_lt
    simp only [hroot, href, hversion, hpayload, hkey, hupdated, Option.bind_some, Option.map_some,
      UInt64.ofNat_toNat, Int64.toInt64_toUInt64]

/-! ### The record of a row -/

/-- What stands before the root of a row. -/
def content (r : Row) : Bytes :=
  outside (Bytes.ofText r.objectRef) ++ (r.payload ++
    outside ((r.keyId.map Bytes.ofText).getD []))

/-- The field of the key id of a row, with the mark that tells whether there is one. -/
def keyField (here target : Nat) : Option String → Bytes
  | none => List.replicate 12 0
  | some keyId => [1, 0, 0, 0] ++ textField (here + 4) target (Bytes.ofText keyId)

@[simp] theorem length_keyField (here target : Nat) (keyId : Option String) :
    (keyField here target keyId).length = 12 := by
  cases keyId <;> simp [keyField]

/-- The root of a row. -/
def fields (r : Row) (root : Nat) : Bytes :=
  let payloadAt := (outside (Bytes.ofText r.objectRef)).length
  textField root 0 (Bytes.ofText r.objectRef) ++ (Bytes.littleBytes 2 r.version.toNat ++ ([0, 0] ++
    (bytesField (root + 12) payloadAt r.payload.length ++
    (keyField (root + 20) (payloadAt + r.payload.length) r.keyId ++
    Bytes.littleBytes 8 r.updatedAt.toUInt64.toNat))))

theorem length_fields (r : Row) (root : Nat) : (r.fields root).length = rootSize := by
  simp [fields, Bytes.length_littleBytes, rootSize]

theorem toBytes_eq (r : Row) : r.toBytes = record rootAlignment r.content r.fields := by
  simp only [toBytes, record, content, fields, keyField, rootOf, List.append_assoc]
  cases r.keyId <;> rfl

theorem length_toBytes (r : Row) :
    r.toBytes.length = rootOf rootAlignment r.content + rootSize := by
  rw [toBytes_eq, length_record (r.length_fields _)]

theorem HoldsKey.of_keyField {target : Nat}
    (hfield : StandsAt b here (keyField here target keyId))
    (hcontent : StandsAt b target (outside ((keyId.map Bytes.ofText).getD [])))
    (hhigh : target + (outside ((keyId.map Bytes.ofText).getD [])).length ≤ high)
    (hlimit : ∀ k ∈ keyId, (Bytes.ofText k).length < textLimit) :
    HoldsKey b target high here keyId := by
  cases keyId with
  | none => exact .absent (StandsAt.left (g := List.replicate 11 0) hfield)
  | some k =>
    have hmark : StandsAt b here ([1] ++ ([0, 0, 0] ++
        textField (here + 4) target (Bytes.ofText k))) := hfield
    have htext := (hmark.right (j := here + 1) rfl).right (j := here + 4) rfl
    exact .present hmark.left (.of_textField htext hcontent hhigh (hlimit k rfl))

/-- The record of a row spells it, if its texts are within the limit. -/
theorem spelledBy_toBytes (h : ∀ t ∈ r.texts, (Bytes.ofText t).length < textLimit) :
    r.SpelledBy r.toBytes := by
  have href : (Bytes.ofText r.objectRef).length < textLimit := h _ (by simp [texts])
  have hkey : ∀ k ∈ r.keyId, (Bytes.ofText k).length < textLimit := by
    intro k hk
    exact h _ (by simp [texts, Option.mem_def.mp hk])
  have hlength := r.length_toBytes
  have hmod : rootOf rootAlignment r.content % rootAlignment = 0 := rootOf_mod (by decide) _
  have hroom := length_le_rootOf rootAlignment r.content
  have hcontent := standsAt_content rootAlignment r.content r.fields
  have hfields := standsAt_fields rootAlignment r.content r.fields
  rw [← r.toBytes_eq] at hcontent hfields
  generalize r.toBytes = b at *
  generalize rootOf rootAlignment r.content = root at *
  simp only [content, List.length_append] at hcontent hroom
  -- the fields, one after another, and what stands before them
  have hversion := hfields.right (j := root + 8) (by simp)
  have hpayload := (hversion.right (j := root + 10) (by simp [Bytes.length_littleBytes])).right
    (j := root + 12) (by simp)
  have hkeyId := hpayload.right (j := root + 20) (by simp)
  have hupdated := hkeyId.right (j := root + 32) (by simp)
  have hoffset := hcontent.right (Nat.zero_add _)
  exact .intro hlength hmod (.of_textField hfields.left hcontent.left (by omega) href)
    hversion.left (.intro hpayload.left ⟨hoffset.left, by omega, by omega⟩)
    (.of_keyField hkeyId.left (hoffset.right rfl) (by omega) hkey) hupdated

theorem ofBytes?_toBytes (h : fits (r.texts.map Bytes.ofText) r.toBytes.length = true) :
    ofBytes? r.toBytes = some r := by
  obtain ⟨htexts, hsize⟩ := fits_iff.mp h
  exact (ofBytes?_eq_some_iff hsize).mpr (spelledBy_toBytes htexts)

theorem ofBytes?_of_encode? (h : r.encode? = some b) : ofBytes? b = some r := by
  unfold encode? at h
  split at h
  · next hf => cases h; exact ofBytes?_toBytes hf
  · cases h

/-- What stands of the texts of a row outside their fields is part of the content. -/
theorem length_outside_le {t : String} (ht : t ∈ r.texts) :
    (outside (Bytes.ofText t)).length ≤ r.content.length := by
  simp only [content, List.length_append]
  rw [texts, List.mem_cons] at ht
  rcases ht with rfl | ht
  · omega
  · rw [Option.mem_toList] at ht
    rw [Option.mem_def.mp ht, Option.map_some, Option.getD_some]
    omega

theorem texts_lt (h : r.toBytes.length < textLimit) :
    ∀ t ∈ r.texts, (Bytes.ofText t).length < textLimit := by
  intro t ht
  have hcontent := length_le_rootOf rootAlignment r.content
  have hlength := r.length_toBytes
  have hout := length_outside_le ht
  exact length_lt_of_outside (by omega)

/-- A row whose record stays below `2 ^ 30` bytes can be written. -/
theorem encode?_eq_some (h : r.toBytes.length < textLimit) : r.encode? = some r.toBytes :=
  if_pos (fits_iff.mpr ⟨texts_lt h, Nat.lt_trans h (by decide)⟩)

/-! ### Times -/

/-- The row as of another time. -/
def dated (r : Row) (n : Int64) : Row := { r with updatedAt := n }

@[simp] theorem check_dated (r : Row) (n : Int64) : (r.dated n).check = r.check := rfl

/-- All times take the same room. -/
theorem isSome_encode?_dated (r : Row) (n : Int64) :
    (r.dated n).encode?.isSome = r.encode?.isSome := by
  have hlength : (r.dated n).toBytes.length = r.toBytes.length := by
    rw [length_toBytes, length_toBytes]
    rfl
  have htexts : (r.dated n).texts = r.texts := rfl
  unfold encode?
  rw [htexts, hlength]
  split <;> rfl

end Row

namespace Entry

variable {e : Entry} {b : Bytes} {low high here : Nat} {p : EntryPayload}

/-! ### Reading an entry -/

/-- The payload whose field stands at `here`, behind the mark of the form it is in. -/
def payloadAt? (b : Bytes) (low high here : Nat) : Option EntryPayload :=
  match natAt b here 1 with
  | 0 => (bytesAt? b low high (here + 4)).map fun p => .plain p.1
  | 1 => (textAt? b low high (here + 4)).bind fun keyId =>
    (bytesAt? b keyId.2 high (here + 12)).map fun p => .sealed keyId.1 p.1
  | _ => none

theorem ofBody?_eq (b : Bytes) : ofBody? b = (rootAt? rootAlignment b).bind fun root =>
    (textAt? b 0 root root).bind fun ref =>
    (textAt? b ref.2 root (root + 12)).bind fun tag =>
    (payloadAt? b tag.2 root (root + 20)).map fun payload =>
      ⟨ref.1, .ofNat (natAt b (root + 8) 2), tag.1, payload⟩ := by
  unfold ofBody? payloadAt?
  simp only [Option.bind_eq_bind, Nat.add_assoc]
  congr 1
  funext root
  congr 1
  funext ref
  congr 1
  funext tag
  generalize natAt b (root + 20) 1 = mark
  rcases mark with _ | _ | mark
  · cases bytesAt? b tag.2 root (root + 24) <;> rfl
  · cases textAt? b tag.2 root (root + 24) with
    | none => rfl
    | some keyId =>
      dsimp only [Option.bind_some]
      cases bytesAt? b keyId.2 root (root + 32) <;> rfl
  · rfl

/-- The field at `here` tells the form of a payload, and holds its parts. -/
inductive HoldsPayload (b : Bytes) (low high here : Nat) : EntryPayload → Prop
  | plain {frame : Bytes} {next : Nat} (hmark : StandsAt b here [0])
    (h : HoldsBytes b low high (here + 4) frame next) : HoldsPayload b low high here (.plain frame)
  | box {keyId : String} {envelope : Bytes} {next last : Nat} (hmark : StandsAt b here [1])
    (hkey : HoldsText b low high (here + 4) keyId next)
    (h : HoldsBytes b next high (here + 12) envelope last) :
    HoldsPayload b low high here (.sealed keyId envelope)

theorem payloadAt?_eq_some_iff (hhigh : high ≤ here) (hhere : here + 20 ≤ b.length)
    (hsize : b.length < sizeLimit) :
    payloadAt? b low high here = some p ↔ HoldsPayload b low high here p := by
  have hmark {n : Nat} := natAt_mark_iff (b := b) (i := here) (n := n) (by omega)
  have htext {s : String} {next : Nat} : textAt? b low high (here + 4) = some (s, next) ↔
      HoldsText b low high (here + 4) s next :=
    textAt?_eq_some_iff (by omega) (by omega) (by omega)
  have hbytes {low i next : Nat} {f : Bytes} (hi : here ≤ i) (hend : i + 8 ≤ b.length) :
      bytesAt? b low high i = some (f, next) ↔ HoldsBytes b low high i f next :=
    bytesAt?_eq_some_iff (by omega) hend (by omega)
  unfold payloadAt?
  constructor
  · intro h
    split at h
    · next h0 =>
      obtain ⟨⟨f, next⟩, hf, h⟩ := Option.map_eq_some_iff.mp h
      cases h
      exact .plain ((hmark (by decide)).mp h0) ((hbytes (by omega) (by omega)).mp hf)
    · next h1 =>
      obtain ⟨⟨s, next⟩, hs, h⟩ := Option.bind_eq_some_iff.mp h
      obtain ⟨⟨f, last⟩, hf, h⟩ := Option.map_eq_some_iff.mp h
      cases h
      exact .box ((hmark (by decide)).mp h1) (htext.mp hs) ((hbytes (by omega) hhere).mp hf)
    · cases h
  · intro h
    cases h with
    | plain h0 hf =>
      simp only [(hmark (by decide)).mpr h0, (hbytes (by omega) (by omega)).mpr hf, Option.map_some]
    | box h1 hs hf =>
      simp only [(hmark (by decide)).mpr h1, htext.mpr hs, (hbytes (by omega) hhere).mpr hf,
        Option.map_some, Option.bind_some]

/-- The byte strings that hold an entry behind the magic bytes: its fields stand in an aligned root
at the end, and what they name lies before the root, in order. All other bytes are free. -/
inductive SpelledBy (e : Entry) (b : Bytes) : Prop
  | intro {root tagLow payloadLow : Nat} (hlength : b.length = root + rootSize)
    (hroot : root % rootAlignment = 0)
    (href : HoldsText b 0 root root e.objectRef tagLow)
    (hversion : StandsAt b (root + 8) (Bytes.littleBytes 2 e.version.toNat))
    (htag : HoldsText b tagLow root (root + 12) e.tag payloadLow)
    (hpayload : HoldsPayload b payloadLow root (root + 20) e.payload)

/-- An entry is read from the byte strings that spell it, and from no others. -/
theorem ofBody?_eq_some_iff (hsize : b.length < sizeLimit) :
    ofBody? b = some e ↔ e.SpelledBy b := by
  rw [ofBody?_eq]
  constructor
  · intro h
    obtain ⟨root, hroot, h⟩ := Option.bind_eq_some_iff.mp h
    obtain ⟨⟨ref, tagLow⟩, href, h⟩ := Option.bind_eq_some_iff.mp h
    obtain ⟨⟨tag, payloadLow⟩, htag, h⟩ := Option.bind_eq_some_iff.mp h
    obtain ⟨payload, hpayload, h⟩ := Option.map_eq_some_iff.mp h
    cases h
    obtain ⟨hlength, hmod⟩ := rootAt?_eq_some_iff.mp hroot
    have hlength' : b.length = root + 40 := hlength
    exact .intro hlength hmod
      ((textAt?_eq_some_iff (Nat.le_refl _) (by omega) (by omega)).mp href)
      ((version_eq_iff (by omega)).mp rfl)
      ((textAt?_eq_some_iff (by omega) (by omega) (by omega)).mp htag)
      ((payloadAt?_eq_some_iff (by omega) (by omega) hsize).mp hpayload)
  · intro h
    obtain @⟨root, tagLow, payloadLow, hlength, hmod, href, hversion, htag, hpayload⟩ := h
    have hlength' : b.length = root + 40 := hlength
    have hroot := rootAt?_eq_some_iff.mpr ⟨hlength, hmod⟩
    have href := (textAt?_eq_some_iff (Nat.le_refl _) (by omega) (by omega)).mpr href
    have hversion := (version_eq_iff (by omega)).mpr hversion
    have htag := (textAt?_eq_some_iff (by omega) (by omega) (by omega)).mpr htag
    have hpayload := (payloadAt?_eq_some_iff (by omega) (by omega) hsize).mpr hpayload
    simp only [hroot, href, hversion, htag, hpayload, Option.bind_some, Option.map_some]

/-! ### The record of an entry -/

/-- The text of the key id in a payload, and the bytes of it. -/
def payloadParts : EntryPayload → Bytes × Bytes
  | .plain frame => ([], frame)
  | .sealed keyId envelope => (Bytes.ofText keyId, envelope)

theorem mem_texts_cases {t : String} (h : t ∈ e.texts) :
    t = e.objectRef ∨ t = e.tag ∨ Bytes.ofText t = (payloadParts e.payload).1 := by
  simp only [texts, List.mem_cons] at h
  rcases h with rfl | rfl | h
  · exact .inl rfl
  · exact .inr (.inl rfl)
  · cases hp : e.payload with
    | plain frame => rw [hp] at h; cases h
    | «sealed» keyId envelope =>
      rw [hp, List.mem_singleton] at h
      rw [h]
      exact .inr (.inr rfl)

/-- What stands before the root of an entry. -/
def content (e : Entry) : Bytes :=
  outside (Bytes.ofText e.objectRef) ++ (outside (Bytes.ofText e.tag) ++
    (outside (payloadParts e.payload).1 ++ (payloadParts e.payload).2))

/-- The field of a payload, with the mark of the form it is in. -/
def payloadField (here keyAt bytesAt : Nat) : EntryPayload → Bytes
  | .plain frame => [0, 0, 0, 0] ++ (bytesField (here + 4) bytesAt frame.length ++
      List.replicate 8 0)
  | .sealed keyId envelope => [1, 0, 0, 0] ++ (textField (here + 4) keyAt (Bytes.ofText keyId) ++
      bytesField (here + 12) bytesAt envelope.length)

@[simp] theorem length_payloadField (here keyAt bytesAt : Nat) (p : EntryPayload) :
    (payloadField here keyAt bytesAt p).length = 20 := by
  cases p <;> simp [payloadField]

/-- The root of an entry. -/
def fields (e : Entry) (root : Nat) : Bytes :=
  let tagAt := (outside (Bytes.ofText e.objectRef)).length
  let keyAt := tagAt + (outside (Bytes.ofText e.tag)).length
  textField root 0 (Bytes.ofText e.objectRef) ++ (Bytes.littleBytes 2 e.version.toNat ++ ([0, 0] ++
    (textField (root + 12) tagAt (Bytes.ofText e.tag) ++
    payloadField (root + 20) keyAt (keyAt + (outside (payloadParts e.payload).1).length)
      e.payload)))

theorem length_fields (e : Entry) (root : Nat) : (e.fields root).length = rootSize := by
  simp [fields, Bytes.length_littleBytes, rootSize]

theorem body_eq (e : Entry) : e.body = record rootAlignment e.content e.fields := by
  simp only [body, record, content, fields, payloadField, rootOf]
  cases e.payload <;> simp only [payloadParts, List.append_assoc]

theorem length_body (e : Entry) : e.body.length = rootOf rootAlignment e.content + rootSize := by
  rw [body_eq, length_record (e.length_fields _)]

theorem HoldsPayload.of_payloadField {keyAt bytesAt : Nat}
    (hfield : StandsAt b here (payloadField here keyAt bytesAt p))
    (hcontent : StandsAt b keyAt (outside (payloadParts p).1 ++ (payloadParts p).2))
    (hat : keyAt + (outside (payloadParts p).1).length = bytesAt)
    (hhigh : bytesAt + (payloadParts p).2.length ≤ high)
    (hlimit : (payloadParts p).1.length < textLimit) : HoldsPayload b keyAt high here p := by
  have hbytes := hcontent.right hat
  cases p with
  | plain frame =>
    have hmark : StandsAt b here ([0] ++ ([0, 0, 0] ++
        (bytesField (here + 4) bytesAt frame.length ++ List.replicate 8 0))) := hfield
    have hrest := (hmark.right (j := here + 1) rfl).right (j := here + 4) rfl
    exact .plain hmark.left (.intro hrest.left ⟨hbytes, by omega, hhigh⟩)
  | «sealed» keyId envelope =>
    have hmark : StandsAt b here ([1] ++ ([0, 0, 0] ++
        (textField (here + 4) keyAt (Bytes.ofText keyId) ++
        bytesField (here + 12) bytesAt envelope.length))) := hfield
    have hrest := (hmark.right (j := here + 1) rfl).right (j := here + 4) rfl
    have henvelope := hrest.right (j := here + 12) (by simp)
    simp only [payloadParts] at hhigh hat hlimit hcontent
    exact .box hmark.left (.of_textField hrest.left hcontent.left (by omega) hlimit)
      (.intro henvelope ⟨hbytes, by omega, hhigh⟩)

/-- The record of an entry spells it behind the magic bytes, if its texts are within the limit. -/
theorem spelledBy_body (h : ∀ t ∈ e.texts, (Bytes.ofText t).length < textLimit) :
    e.SpelledBy e.body := by
  have href : (Bytes.ofText e.objectRef).length < textLimit := h _ (by simp [texts])
  have htag : (Bytes.ofText e.tag).length < textLimit := h _ (by simp [texts])
  have hkey : (payloadParts e.payload).1.length < textLimit := by
    cases hp : e.payload with
    | plain frame => exact Nat.zero_lt_of_lt htag
    | «sealed» keyId envelope => exact h _ (by simp [texts, hp])
  have hlength := e.length_body
  have hmod : rootOf rootAlignment e.content % rootAlignment = 0 := rootOf_mod (by decide) _
  have hroom := length_le_rootOf rootAlignment e.content
  have hcontent := standsAt_content rootAlignment e.content e.fields
  have hfields := standsAt_fields rootAlignment e.content e.fields
  rw [← e.body_eq] at hcontent hfields
  generalize e.body = b at *
  generalize rootOf rootAlignment e.content = root at *
  simp only [content, List.length_append] at hcontent hroom
  -- the fields, one after another, and what stands before them
  have hversion := hfields.right (j := root + 8) (by simp)
  have htagField := (hversion.right (j := root + 10) (by simp [Bytes.length_littleBytes])).right
    (j := root + 12) (by simp)
  have hpayload := htagField.right (j := root + 20) (by simp)
  have htagText := hcontent.right (Nat.zero_add _)
  refine .intro hlength hmod (.of_textField hfields.left hcontent.left (by omega) href)
    hversion.left ?_ (.of_payloadField hpayload (htagText.right rfl) rfl (by omega) hkey)
  rw [Nat.zero_add]
  exact .of_textField htagField.left htagText.left (by omega) htag

theorem ofBody?_body (h : fits (e.texts.map Bytes.ofText) e.body.length = true) :
    ofBody? e.body = some e := by
  obtain ⟨htexts, hsize⟩ := fits_iff.mp h
  exact (ofBody?_eq_some_iff hsize).mpr (spelledBy_body htexts)

theorem ofBytes?_toBytes (e : Entry) : ofBytes? e.toBytes = ofBody? e.body := by
  unfold ofBytes? toBytes
  rw [if_pos (by simp [magic]), List.drop_left]

theorem ofBytes?_of_encode? (h : e.encode? = some b) : ofBytes? b = some e := by
  unfold encode? at h
  split at h
  · next hf =>
    cases h
    rw [ofBytes?_toBytes]
    exact ofBody?_body hf
  · cases h

/-- What a row has in the cache can be written if the row stays below `2 ^ 30` bytes. -/
theorem encode?_eq_some {r : Row} {tag : String} {p : EntryPayload}
    (h : r.toBytes.length < textLimit) (htag : (Bytes.ofText tag).length ≤ 64)
    (hp : payloadParts p = ((r.keyId.map Bytes.ofText).getD [], r.payload)) :
    (Entry.mk r.objectRef r.version tag p).encode? =
      some (Entry.mk r.objectRef r.version tag p).toBytes := by
  have hcontent :
      (Entry.mk r.objectRef r.version tag p).content.length ≤ r.content.length + 64 := by
    have hout : (outside (Bytes.ofText tag)).length ≤ 64 := by
      unfold outside
      split
      · exact Nat.zero_le _
      · exact htag
    simp only [content, Row.content, hp, List.length_append]
    omega
  have hlength : (Entry.mk r.objectRef r.version tag p).body.length < sizeLimit := by
    have hrow := length_le_rootOf Row.rootAlignment r.content
    have hroot := rootOf_lt (show 0 < rootAlignment by decide)
      (Entry.mk r.objectRef r.version tag p).content
    rw [r.length_toBytes] at h
    rw [length_body]
    simp only [textLimit, sizeLimit, rootSize, rootAlignment] at h hroot ⊢
    omega
  refine if_pos (fits_iff.mpr ⟨?_, hlength⟩)
  intro t ht
  rcases mem_texts_cases ht with rfl | rfl | ht
  · exact Row.texts_lt h _ (by simp [Row.texts])
  · exact Nat.lt_of_le_of_lt htag (by decide)
  · rw [ht, hp]
    cases hid : r.keyId with
    | none => exact Nat.zero_lt_of_lt h
    | some k => exact Row.texts_lt h k (by simp [Row.texts, hid])

end Entry

end ObjectTiers
