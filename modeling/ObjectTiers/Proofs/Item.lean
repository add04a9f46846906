/-
Items read back from their records.

`ofJson_toJson`: an item is what its record is read as; what a document holds must be in normal
form. `nesting_toJson_document`, `nesting_toJson_le`: how deep records nest.
`eq_of_ofJson`: whatever kind a written record is read as, and whatever a document holds, the
item that is read has the reference and the version of the item that was written.
-/
import ObjectTiers.Item
import ObjectTiers.Proofs.Json.Nesting

namespace ObjectTiers

namespace Item

open Json

/-! ### What was read -/

theorem ok_of_bind {ε α β : Type} {x : Except ε α} {f : α → Except ε β} {b : β}
    (h : x >>= f = .ok b) : ∃ a, x = .ok a ∧ f a = .ok b := by
  cases x with
  | error e => cases h
  | ok a => exact ⟨a, rfl, h⟩

theorem kind_of_readContent {k : Kind} {ms : List (String × Json)} {c : Content}
    (h : readContent k ms = .ok c) : c.kind = k := by
  cases k with
  | smtp =>
    obtain ⟨a, -, h⟩ := ok_of_bind h
    obtain ⟨b, -, h⟩ := ok_of_bind h
    cases h; rfl
  | mailer =>
    obtain ⟨a, -, h⟩ := ok_of_bind h
    obtain ⟨b, -, h⟩ := ok_of_bind h
    cases h; rfl
  | creds =>
    obtain ⟨a, -, h⟩ := ok_of_bind h
    obtain ⟨b, -, h⟩ := ok_of_bind h
    cases h; rfl
  | vault =>
    obtain ⟨a, -, h⟩ := ok_of_bind h
    obtain ⟨b, -, h⟩ := ok_of_bind h
    obtain ⟨c, -, h⟩ := ok_of_bind h
    cases h; rfl
  | signing | flags | document | refuses =>
    obtain ⟨a, -, h⟩ := ok_of_bind h
    cases h; rfl

theorem ofMembers_ok {k : Kind} {ms : List (String × Json)} {x : Item}
    (h : ofMembers k ms = .ok x) :
    field ms "object_ref" readText = .ok x.objectRef ∧
      field ms "version" readWord16 = .ok x.version ∧ readContent k ms = .ok x.content := by
  obtain ⟨r, hr, h⟩ := ok_of_bind h
  obtain ⟨v, hv, h⟩ := ok_of_bind h
  obtain ⟨c, hc, h⟩ := ok_of_bind h
  cases h
  exact ⟨hr, hv, hc⟩

/-- An item is read from members: those of the object, or the fields by position. -/
theorem ofMembers_of_ofJson {k : Kind} {j : Json} {x : Item} (h : ofJson k j = .ok x) :
    ∃ ms, ofMembers k ms = .ok x ∧ (∀ ms', j = .object ms' → ms' = ms) ∧
      (j.isSorted = true → ∀ m ∈ ms, m.2.isSorted = true) := by
  cases j with
  | object ms =>
    obtain ⟨-, -, h⟩ := ok_of_bind h
    exact ⟨ms, h, fun ms' e => by cases e; rfl, fun hj => (isSorted_object.mp hj).2⟩
  | array xs =>
    obtain ⟨-, -, h⟩ := ok_of_bind h
    obtain ⟨y, hy, h⟩ := ok_of_bind h
    split at h
    · cases h
    · cases h
      exact ⟨_, hy, nofun, fun hj m hm => isSorted_array.mp hj _ (List.of_mem_zip hm).2⟩
  | null => cases h
  | bool b => cases h
  | number n => cases h
  | text s => cases h

theorem kind_of_ofJson {k : Kind} {j : Json} {x : Item} (h : ofJson k j = .ok x) : x.kind = k := by
  obtain ⟨ms, hms, -⟩ := ofMembers_of_ofJson h
  exact kind_of_readContent (ofMembers_ok hms).2.2

theorem mem_of_field {α : Type} {ms : List (String × Json)} {name : String}
    {read : Json → Except Fault α} {a : α} (h : field ms name read = .ok a) :
    ∃ j, (name, j) ∈ ms ∧ read j = .ok a := by
  unfold field at h
  split at h
  · next j hj =>
    obtain ⟨before, after, rfl, -⟩ := List.lookup_eq_some_iff.mp hj
    exact ⟨j, by simp, h⟩
  · cases h

/-- What a document holds is part of the value that it is read from. -/
theorem isSorted_of_ofJson {k : Kind} {j data : Json} {x : Item} (hj : j.isSorted = true)
    (h : ofJson k j = .ok x) (hdata : x.content = .document data) : data.isSorted = true := by
  obtain ⟨ms, hms, -, hsorted⟩ := ofMembers_of_ofJson h
  obtain ⟨-, -, hcontent⟩ := ofMembers_ok hms
  rw [hdata] at hcontent
  cases kind_of_readContent hcontent
  obtain ⟨d, hd, hcontent⟩ := ok_of_bind hcontent
  cases hcontent
  obtain ⟨d', hmem, hread⟩ := mem_of_field hd
  cases hread
  exact hsorted hj _ hmem

/-! ### The record of an item -/

/-- The members of a record, in the order of the fields. -/
def members (x : Item) : List (String × Json) :=
  ("object_ref", .text x.objectRef) :: ("version", Json.ofNat x.version.toNat) ::
    contentFields x.content

theorem toJson_eq (x : Item) : x.toJson = .object x.members := rfl

theorem keys_members (x : Item) : x.members.map (·.1) = (fields x.kind).map (·.1) := by
  obtain ⟨r, v, c⟩ := x
  cases c <;> rfl

theorem nodup_members (x : Item) : (x.members.map (·.1)).Nodup := by
  rw [keys_members]
  cases x.kind <;> simp [fields]

theorem readWord16_ofNat (n : UInt16) : readWord16 (Json.ofNat n.toNat) = .ok n := by
  have hn := n.toNat_lt
  have hsize : UInt16.size = 65536 := rfl
  simp only [readWord16, Json.ofNat, readBelow]
  rw [if_pos ⟨by omega, by omega⟩]
  simp [Except.map]

theorem readOptionalWord32_ofNat (n : UInt32) :
    readOptionalWord32 (Json.ofNat n.toNat) = .ok (some n) := by
  have hn := n.toNat_lt
  have hsize : UInt32.size = 4294967296 := rfl
  simp only [readOptionalWord32, Json.ofNat, readBelow]
  rw [if_pos ⟨by omega, by omega⟩]
  simp [Except.map]

theorem readOptionalWord32_null : readOptionalWord32 .null = .ok none := rfl

theorem readTexts_map (xs : List String) : readTexts (.array (xs.map .text)) = .ok xs := by
  rw [readTexts]
  induction xs with
  | nil => rfl
  | cons x xs ih => rw [List.map_cons, List.mapM_cons, ih]; rfl

/-- A record holds texts, words and lists of texts, and what a document holds. -/
theorem holdsWords_toJson {x : Item}
    (h : ∀ data, x.content = .document data → data.holdsWords = true) :
    x.toJson.holdsWords = true := by
  have htext (s : String) : (Json.text s).holdsWords = true := rfl
  have hword16 (n : UInt16) : (Json.ofNat n.toNat).holdsWords = true := by
    have := n.toNat_lt
    simp only [Json.ofNat, holdsWords, every, Number.isWord, decide_eq_true_eq]
    omega
  have hword32 (n : UInt32) : (Json.ofNat n.toNat).holdsWords = true := by
    have := n.toNat_lt
    simp only [Json.ofNat, holdsWords, every, Number.isWord, decide_eq_true_eq]
    omega
  rw [toJson, holdsWords_object]
  obtain ⟨r, v, c⟩ := x
  cases c with
  | document data => simpa [contentFields, htext, hword16] using h data rfl
  | vault id secret rotation =>
    cases rotation with
    | none =>
      have hnull : Json.null.holdsWords = true := rfl
      simp [contentFields, htext, hword16, hnull]
    | some n => simp [contentFields, htext, hword16, hword32]
  | flags enabled => simp [contentFields, htext, hword16, holdsWords_array]
  | smtp | mailer | creds | signing | refuses => simp [contentFields, htext, hword16]

theorem nesting_toJson_document {x : Item} {data : Json} (h : x.content = .document data) :
    x.toJson.nesting = data.nesting + 1 := by
  simp [toJson, h, contentFields, nesting, nestingMembers, Json.ofNat]

/-- Other records have no more than a list in them. -/
theorem nesting_toJson_le {x : Item} (h : x.kind ≠ .document) : x.toJson.nesting ≤ 2 := by
  obtain ⟨r, v, c⟩ := x
  cases c with
  | document data => exact absurd rfl h
  | vault id secret rotation =>
    cases rotation <;> simp [toJson, contentFields, nesting, nestingMembers, Json.ofNat]
  | flags enabled =>
    have htexts : nestingItems (enabled.map .text) ≤ 0 :=
      nestingItems_le.mpr (by simp [nesting])
    simp [toJson, contentFields, nesting, nestingMembers, Json.ofNat, Nat.le_zero.mp htexts]
  | smtp | mailer | creds | signing | refuses =>
    simp [toJson, contentFields, nesting, nestingMembers, Json.ofNat]

/-- In normal form only the order of the members differs. -/
theorem normal_toJson {x : Item} (h : ∀ data, x.content = .document data → normal data = data) :
    normal x.toJson = .object (insertAll [] x.members) := by
  have hmembers : normalMembers x.members = x.members := by
    obtain ⟨r, v, c⟩ := x
    cases c with
    | document data => simp [members, contentFields, normalMembers, normal, Json.ofNat, h data rfl]
    | vault id secret rotation => cases rotation <;> rfl
    | flags enabled =>
      have htexts : normalItems (enabled.map Json.text) = enabled.map Json.text := by
        rw [normalItems_eq, List.map_map]
        rfl
      simp [members, contentFields, normalMembers, normal, Json.ofNat, htexts]
    | smtp | mailer | creds | signing | refuses => rfl
  rw [toJson_eq, normal, hmembers]
  rfl

theorem checkMembers_of_forall {schema : List (String × Shape)} {ms : List (String × Json)}
    (h : ∀ m ∈ ms, ∀ s, schema.lookup m.1 = some s → s.check m.2 = .ok ()) :
    checkMembers schema ms = .ok () := by
  induction ms with
  | nil => rfl
  | cons m ms ih =>
    obtain ⟨k, j⟩ := m
    rw [checkMembers]
    split
    · next s hs =>
      rw [h (k, j) (by simp) s hs]
      exact ih fun m hm => h m (by simp [hm])
    · exact ih fun m hm => h m (by simp [hm])

theorem check_members (x : Item) : List.Forall₂
    (fun (m : String × Json) (f : String × Shape) => m.1 = f.1 ∧ f.2.check m.2 = .ok ())
    x.members (fields x.kind) := by
  have hmap {α : Type} (a : α) : (Except.ok a : Except Fault α).map (fun _ => ()) = .ok () := rfl
  obtain ⟨r, v, c⟩ := x
  cases c with
  | vault id secret rotation =>
    cases rotation <;>
      simp [members, contentFields, fields, Item.kind, Content.kind, Shape.check, readText,
        readWord16_ofNat, readOptionalWord32_ofNat, readOptionalWord32_null, hmap]
  | smtp | mailer | creds | signing | flags | document | refuses =>
    simp [members, contentFields, fields, Item.kind, Content.kind, Shape.check, readText,
      readWord16_ofNat, readTexts_map, hmap]

theorem check_of_forall₂ {ms : List (String × Json)} {schema : List (String × Shape)}
    (h : List.Forall₂ (fun m f => m.1 = f.1 ∧ f.2.check m.2 = .ok ()) ms schema)
    (hnodup : (ms.map (·.1)).Nodup) :
    ∀ m ∈ ms, ∀ s, schema.lookup m.1 = some s → s.check m.2 = .ok () := by
  induction h with
  | nil => nofun
  | @cons m f ms schema hm _ ih =>
    obtain ⟨k, s⟩ := f
    rw [List.map_cons, List.nodup_cons] at hnodup
    intro p hp t ht
    rw [lookup_cons_ite] at ht
    split at ht
    · next hk =>
      cases ht
      rcases List.mem_cons.mp hp with rfl | hp
      · exact hm.2
      · exact absurd (List.mem_map.mpr ⟨p, hp, hk.trans hm.1.symm⟩) hnodup.1
    · next hk =>
      rcases List.mem_cons.mp hp with rfl | hp
      · exact absurd hm.1 hk
      · exact ih hnodup.2 p hp t ht

theorem ofMembers_members {x : Item} {ms : List (String × Json)}
    (h : ∀ key, ms.lookup key = x.members.lookup key) : ofMembers x.kind ms = .ok x := by
  obtain ⟨r, v, c⟩ := x
  cases c with
  | vault id secret rotation =>
    cases rotation <;>
      simp [ofMembers, readContent, field, optionalField, h, members, contentFields, Item.kind,
        Content.kind, lookup_cons_ite, readText, readWord16_ofNat, readOptionalWord32_ofNat,
        readOptionalWord32_null, bind, Except.bind, pure, Except.pure]
  | smtp | mailer | creds | signing | flags | document | refuses =>
    simp [ofMembers, readContent, field, h, members, contentFields, Item.kind, Content.kind,
      lookup_cons_ite, readText, readWord16_ofNat, readTexts_map, bind, Except.bind, pure,
      Except.pure]

/-- An item is read from members in any order, as far as each is what its field holds. -/
theorem ofJson_insertAll {k : Kind} {ms : List (String × Json)} {x : Item}
    (hnodup : (ms.map (·.1)).Nodup)
    (hcheck : ∀ m ∈ ms, ∀ s, (fields k).lookup m.1 = some s → s.check m.2 = .ok ())
    (hread : ∀ ms' : List (String × Json), (∀ key, ms'.lookup key = ms.lookup key) →
      ofMembers k ms' = .ok x) :
    ofJson k (.object (insertAll [] ms)) = .ok x := by
  have hlookup (key : String) : (insertAll [] ms).lookup key = ms.lookup key := by
    rw [lookup_insertAll hnodup, List.lookup_nil, Option.or_none]
  have hmembers : checkMembers (fields k) (insertAll [] ms) = .ok () := by
    refine checkMembers_of_forall fun m hm => hcheck m ?_
    rcases mem_insertAll hm with hm | hm
    · cases hm
    · exact hm
  rw [ofJson, hmembers]
  exact hread _ hlookup

/-- An item is what its record is read as, if what a document holds is in normal form. -/
theorem ofJson_toJson {x : Item} (h : ∀ data, x.content = .document data → normal data = data) :
    ofJson x.kind (normal x.toJson) = .ok x := by
  rw [normal_toJson h]
  exact ofJson_insertAll x.nodup_members (check_of_forall₂ x.check_members x.nodup_members)
    fun _ => ofMembers_members

/-! ### Records of any kind -/

theorem readsAs_text {depth : Nat} {k s : String} {m : String × Json}
    (h : ReadsAs (readValue depth) (k, .text s) m) : m = (k, .text s) := by
  obtain ⟨hk, rest, -, hread⟩ := h
  rw [readValue_fixed rfl, Except.ok.injEq, Prod.mk.injEq] at hread
  exact Prod.ext hk hread.1.symm

theorem readsAs_word {depth : Nat} {k : String} {n : UInt16} {m : String × Json}
    (h : ReadsAs (readValue depth) (k, Json.ofNat n.toNat) m) :
    m = (k, Json.ofNat n.toNat) := by
  obtain ⟨hk, rest, hrest, hread⟩ := h
  have hword : Number.isWord (.integer n.toNat) = true := by
    have := n.toNat_lt
    simp only [Number.isWord, decide_eq_true_eq]
    omega
  have hwrite : write (Json.ofNat n.toNat) = writeInt n.toNat := rfl
  rw [hwrite, readValue_writeInt hword depth hrest, Except.ok.injEq, Prod.mk.injEq] at hread
  exact Prod.ext hk hread.1.symm

theorem keys_of_forall₂ {value : Bytes → Read Json} {ms ms' : List (String × Json)}
    (h : List.Forall₂ (ReadsAs value) ms ms') : ms'.map (·.1) = ms.map (·.1) := by
  induction h with
  | nil => rfl
  | cons hm _ ih => rw [List.map_cons, List.map_cons, hm.1, ih]

/-- Whatever a written record is read as has the identity that was written. -/
theorem eq_of_ofJson {x y : Item} {k : Kind} {depth : Nat} {j : Json} {rest : Bytes}
    (hread : readValue depth (x.toJson.write ++ rest) = .ok (j, rest))
    (h : ofJson k j = .ok y) : y.objectRef = x.objectRef ∧ y.version = x.version := by
  rw [toJson_eq, members, write_object_cons] at hread
  cases depth with
  | zero => cases hread
  | succ depth =>
    rw [readValue_brace] at hread
    cases hobject : readObject (readValue depth) (writeText "object_ref" ++ 0x3a ::
        (write (.text x.objectRef) ++ (writeMembers (("version", Json.ofNat x.version.toNat) ::
          contentFields x.content) ++ rest))) with
    | error e => rw [hobject] at hread; cases hread
    | ok out =>
      rw [hobject] at hread
      cases hread
      obtain ⟨-, ms, hms, hout⟩ := readObject_rest (m := ("object_ref", .text x.objectRef))
        (readValue_rest depth) hobject
      have hnodup : (ms.map (·.1)).Nodup := keys_of_forall₂ hms ▸ x.nodup_members
      -- the first two members are the identity, and no later one takes their place
      cases hms with
      | cons href hms =>
      cases hms with
      | cons hversion hms =>
      rw [readsAs_text href, readsAs_word hversion] at hnodup hout
      obtain ⟨fields, hfields, heq, -⟩ := ofMembers_of_ofJson h
      obtain ⟨hr, hv, -⟩ := ofMembers_ok hfields
      rw [← heq _ rfl, hout] at hr hv
      simp only [field, lookup_insertAll hnodup, lookup_cons_ite] at hr hv
      rw [if_pos trivial] at hr
      rw [if_neg (by simp), if_pos trivial] at hv
      simp only [Option.some_or, readText, readWord16_ofNat, Except.ok.injEq] at hr hv
      exact ⟨hr.symm, hv.symm⟩

end Item

end ObjectTiers
