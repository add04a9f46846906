/-
Frames read back. `parse_write_iff`: a written frame parses as a frame with its tag, its schema
version, and the body that the written body is read as, and as nothing else; within the limit of
nesting that is the body in its normal form (`parse_write`). `isRead_of_parse`: whatever is parsed,
the body is a value that was read.
-/
import ObjectTiers.Frame
import ObjectTiers.Proofs.Json.Nesting

namespace ObjectTiers.Frame

open Json

/-! ### Members -/

theorem readPart_write (p : Parts) (k : String) (r : Bytes) :
    readPart p (k.toList.flatMap writeChar ++ 0x22 :: r) = readField p k r := by
  rw [readPart, readText_flatMap]

theorem readParts_write (y : UInt8) (bound : Bytes) (p : Parts) (k : String) (r : Bytes) :
    readParts (y :: bound) p (0x2c :: (writeText k ++ r)) =
      match readField p k r with
      | .error e => .error e
      | .ok (p, r) => readParts bound p r := by
  rw [writeText_append, readParts]
  simp only [skipSpace_cons (by rfl : isSpace 0x2c = false),
    skipSpace_cons (by rfl : isSpace 0x22 = false), readPart_write]
  rw [if_neg (by decide), if_pos trivial]
  cases readField p k r <;> rfl

theorem readParts_number {b : UInt8} (h : isNumberByte b = true) (bound r : Bytes) (p : Parts)
    (out : Frame × Bytes) : readParts bound p (b :: r) ≠ .ok out := by
  obtain ⟨hb, -, -, hbrace, hcomma, -⟩ := isNumberByte_ne h
  cases bound with
  | nil => intro h; cases h
  | cons y bound =>
    simp only [readParts, skipSpace_cons hb.space]
    rw [if_neg hbrace, if_neg hcomma]
    intro h
    cases h

theorem memberValue_colon {α : Type} (read : Bytes → Read α) (r : Bytes) :
    memberValue read (0x3a :: r) = read r := rfl

theorem readTag_write (t : String) (rest : Bytes) :
    readTag (Json.write (.text t) ++ rest) = .ok (t, rest) := by
  rw [Json.write, writeText_append, readTag]
  simp only [skipSpace_cons (by rfl : isSpace 0x22 = false), readText_flatMap]
  rfl

theorem readSchema_write (n : UInt16) {rest : Bytes} (hrest : Stops rest) :
    readSchema (Json.write (.ofNat n.toNat) ++ rest) = .ok (n, rest) := by
  have hn := n.toNat_lt
  obtain ⟨hall, d, ds, hw, hd⟩ := writeNat_bytes n.toNat
  have hhead := (isNumberByte_ne (hall d (by simp [hw]))).1
  have hminus : d ≠ 0x2d := by
    intro h
    subst h
    cases hd
  have hread := readNumber_writeNat (Nat.lt_trans hn (by decide)) false hrest
  rw [hrest.afterInteger] at hread
  have hwrite : Json.write (.ofNat n.toNat) = writeNat n.toNat := rfl
  rw [hw, List.cons_append] at hread
  rw [hwrite, hw, List.cons_append, readSchema]
  simp only [skipSpace_cons hhead.space]
  rw [if_neg hminus, if_pos hd, hread]
  have hrange : (0 : Int) ≤ n.toNat ∧ (n.toNat : Int) < UInt16.size := by
    have : UInt16.size = 65536 := rfl
    omega
  simp only [Bool.not_false, if_true]
  rw [if_pos hrange, Int.toNat_natCast, UInt16.ofNat_toNat]

/-! ### The whole frame -/

theorem write_eq (f : Frame) :
    write f = 0x7b :: (writeText "type" ++ 0x3a :: (Json.write (.text f.tag) ++
      0x2c :: (writeText "schema" ++ 0x3a :: (Json.write (.ofNat f.schema.toNat) ++
      0x2c :: (writeText "body" ++ 0x3a :: (f.body.write ++ [0x7d])))))) := by
  simp [write, toJson, Json.write, writeMembers]

/-- A written frame is read by reading its body and the end behind it. -/
theorem readObject_write (f : Frame) : ∃ r y bound,
    write f = 0x7b :: r ∧
    readObject r =
      match readValue bodyDepth (f.body.write ++ [0x7d]) with
      | .error e => .error e
      | .ok (j, r) => readParts (y :: bound) ⟨some f.tag, some f.schema, some j⟩ r := by
  have hstops (r : Bytes) : Stops (0x2c :: r) := .inl rfl
  have htype (r : Bytes) : readField ⟨none, none, none⟩ "type"
      (0x3a :: (Json.write (.text f.tag) ++ r)) = .ok (⟨some f.tag, none, none⟩, r) := by
    simp only [readField, memberValue_colon, readTag_write]
    rfl
  have hschema (r : Bytes) (hr : Stops r) : readField ⟨some f.tag, none, none⟩ "schema"
      (0x3a :: (Json.write (.ofNat f.schema.toNat) ++ r)) =
        .ok (⟨some f.tag, some f.schema, none⟩, r) := by
    simp only [readField, memberValue_colon, readSchema_write f.schema hr]
    rfl
  have hbody (r : Bytes) : readField ⟨some f.tag, some f.schema, none⟩ "body" (0x3a :: r) =
      Read.map (fun j => ⟨some f.tag, some f.schema, some j⟩) (readValue bodyDepth r) := rfl
  -- the bytes of the second member bound the rounds that are left
  have hkey (r : Bytes) : ∃ z more, writeText "schema" ++ r = 0x22 :: z :: more := ⟨_, _, rfl⟩
  obtain ⟨z, more, hmore⟩ := hkey (0x3a :: (Json.write (.ofNat f.schema.toNat) ++
    0x2c :: (writeText "body" ++ 0x3a :: (f.body.write ++ [0x7d]))))
  refine ⟨_, z, more, write_eq f, ?_⟩
  rw [writeText_append, readObject]
  simp only [skipSpace_cons (by rfl : isSpace 0x22 = false), readPart_write, htype]
  rw [if_neg (by decide), if_pos trivial, readParts_write, hschema _ (hstops _)]
  simp only
  rw [hmore, readParts_write, hbody]
  cases readValue bodyDepth (f.body.write ++ [0x7d]) <;> rfl

theorem parse_brace (r : Bytes) :
    parse (0x7b :: r) = (readObject r).bind fun p => (readEnd p.2).map fun _ => p.1 := by
  rw [parse, skipSpace_cons (by rfl)]
  simp only [if_true, bind, Except.bind]
  cases readObject r with
  | error e => rfl
  | ok p => cases readEnd p.2 <;> rfl

theorem parse_write_error {f : Frame} {e : Failure}
    (h : readValue bodyDepth (f.body.write ++ [0x7d]) = .error e) :
    parse (write f) = .error e := by
  obtain ⟨r, y, bound, hw, hread⟩ := readObject_write f
  rw [hw, parse_brace, hread, h]
  rfl

/-- A written frame is read as the frame with its tag, its schema version, and the body that the
written body is read as. -/
theorem parse_write_iff {f g : Frame} :
    parse (write f) = .ok g ↔ g.tag = f.tag ∧ g.schema = f.schema ∧
      readValue bodyDepth (f.body.write ++ [0x7d]) = .ok (g.body, [0x7d]) := by
  obtain ⟨r, y, bound, hw, hread⟩ := readObject_write f
  rw [hw, parse_brace, hread]
  constructor
  · intro h
    cases hbody : readValue bodyDepth (f.body.write ++ [0x7d]) with
    | error e => rw [hbody] at h; cases h
    | ok p =>
      obtain ⟨j, rest⟩ := p
      have hstops : Stops [0x7d] := .inr (.inr rfl)
      obtain ⟨w, rfl, hbytes⟩ := readValue_rest _ hstops hbody
      rw [hbody] at h
      cases w with
      | nil => cases h; exact ⟨rfl, rfl, rfl⟩
      | cons b w =>
        cases hparts : readParts (y :: bound) ⟨some f.tag, some f.schema, some j⟩
          (b :: w ++ [0x7d]) with
        | error e => simp only [hparts] at h; cases h
        | ok out => exact absurd hparts (readParts_number (hbytes b (by simp)) _ _ _ _)
  · rintro ⟨htag, hschema, hbody⟩
    obtain ⟨tag, schema, body⟩ := g
    cases htag
    cases hschema
    rw [hbody]
    rfl

theorem nesting_toJson (f : Frame) : f.toJson.nesting = f.body.nesting + 1 := by
  simp [toJson, nesting, nestingMembers, Json.ofNat]

theorem holdsWords_of_toJson {f : Frame} (h : f.toJson.holdsWords = true) :
    f.body.holdsWords = true := by
  rw [toJson, holdsWords_object] at h
  exact h ("body", f.body) (by simp)

/-- A frame of integers within the limit is read back with its body in normal form. -/
theorem parse_write {f : Frame} (hwords : f.body.holdsWords = true)
    (hdepth : f.body.nesting ≤ bodyDepth) : parse f.write = .ok ⟨f.tag, f.schema, f.body.normal⟩ :=
  parse_write_iff.mpr ⟨rfl, rfl, readValue_nested hwords hdepth (.inr (.inr rfl))⟩

/-! ### Bodies -/

/-- Whether a value is what the reader of bodies reads somewhere. -/
def IsRead (j : Json) : Prop := ∃ input rest, readValue bodyDepth input = .ok (j, rest)

section Bodies

variable {α : Type} {a : α} {read : Bytes → Read α} {p q : Parts} {input rest : Bytes} {f : Frame}

theorem memberValue_ok (h : memberValue read input = .ok (a, rest)) :
    ∃ r, read r = .ok (a, rest) := by
  unfold memberValue at h
  split at h
  · cases h
  · exact ⟨_, h⟩

theorem readNext_ok {count : Nat} (h : readNext count read input = .ok (a, rest)) :
    ∃ r, read r = .ok (a, rest) := by
  unfold readNext at h
  split at h
  · cases h
  split at h
  · cases h
  split at h
  · exact ⟨_, h⟩
  split at h
  · split at h
    · cases h
    split at h
    · cases h
    · exact ⟨_, h⟩
  · cases h

theorem isRead_of_readField {key : String} (hp : ∀ j ∈ p.body, IsRead j)
    (h : readField p key input = .ok (q, rest)) : ∀ j ∈ q.body, IsRead j := by
  have hmap {β : Type} {x : Read β} {g : β → Parts} (h : Read.map g x = .ok (q, rest)) :
      ∃ b, x = .ok (b, rest) ∧ g b = q := by
    cases x with
    | error e => cases h
    | ok y => cases h; exact ⟨y.1, rfl, rfl⟩
  unfold readField at h
  simp only at h
  split at h
  · split at h
    · cases h
    obtain ⟨t, -, rfl⟩ := hmap h
    exact hp
  split at h
  · split at h
    · cases h
    obtain ⟨n, -, rfl⟩ := hmap h
    exact hp
  split at h
  · split at h
    · cases h
    obtain ⟨j, hj, rfl⟩ := hmap h
    obtain ⟨r, hr⟩ := memberValue_ok hj
    rintro _ ⟨⟩
    exact ⟨r, rest, hr⟩
  · obtain ⟨r, hr⟩ := memberValue_ok h
    cases hskip : skipValue r with
    | error e => rw [hskip] at hr; cases hr
    | ok s => rw [hskip] at hr; cases hr; exact hp

theorem isRead_of_readPart (hp : ∀ j ∈ p.body, IsRead j) (h : readPart p input = .ok (q, rest)) :
    ∀ j ∈ q.body, IsRead j := by
  unfold readPart at h
  split at h
  · cases h
  · exact isRead_of_readField hp h

theorem isRead_of_ofParts (hp : ∀ j ∈ p.body, IsRead j) (h : ofParts p input = .ok (f, rest)) :
    IsRead f.body := by
  obtain ⟨tag, schema, body⟩ := p
  cases tag <;> cases schema <;> cases body <;> cases h
  exact hp _ rfl

theorem isRead_of_readParts {bound : Bytes} (hp : ∀ j ∈ p.body, IsRead j)
    (h : readParts bound p input = .ok (f, rest)) : IsRead f.body := by
  induction bound generalizing p input with
  | nil => cases h
  | cons y bound ih =>
    rw [readParts] at h
    split at h
    · cases h
    split at h
    · exact isRead_of_ofParts hp h
    split at h
    · split at h
      · cases h
      split at h
      · split at h
        · cases h
        · next hpart => exact ih (isRead_of_readPart hp hpart) h
      · split at h <;> cases h
    · cases h

theorem isRead_of_readObject (h : readObject input = .ok (f, rest)) : IsRead f.body := by
  unfold readObject at h
  simp only at h
  split at h
  · cases h
  split at h
  · cases h
  split at h
  · split at h
    · cases h
    · next hpart => exact isRead_of_readParts (isRead_of_readPart (by simp) hpart) h
  · cases h

theorem isRead_of_readArray (h : readArray input = .ok (f, rest)) : IsRead f.body := by
  unfold readArray at h
  simp only [bind, Except.bind] at h
  split at h
  · cases h
  split at h
  · cases h
  split at h
  · cases h
  next hbody =>
  obtain ⟨r, hr⟩ := readNext_ok hbody
  split at h
  · cases h
  split at h
  · cases h
    exact ⟨r, _, hr⟩
  split at h
  · split at h <;> cases h
  · cases h

theorem isRead_of_parse (h : parse input = .ok f) : IsRead f.body := by
  unfold parse at h
  simp only [bind, Except.bind] at h
  split at h
  · cases h
  split at h
  · split at h
    · cases h
    split at h
    · cases h
    · next hread _ _ _ =>
      cases h
      exact isRead_of_readObject hread
  split at h
  · split at h
    · cases h
    split at h
    · cases h
    · next hread _ _ _ =>
      cases h
      exact isRead_of_readArray hread
  · cases h

end Bodies

end ObjectTiers.Frame
