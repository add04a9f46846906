/-
Base64 both ways.

What is decoded is exactly what is encoded (`Text.Base64.decode_eq_ok_iff`): symbols and values
below 64 determine each other, a group of four symbols is the encoding of its three bytes, and the
last group is accepted only with as many pads as it lacks bytes, and with nothing behind its bits.
So every byte string has one encoding, as a text as well (`Text.Base64.decode_ofText_eq_ok_iff`).
-/
import ObjectTiers.Text.Base64
import ObjectTiers.Text.Blank
import ObjectTiers.Proofs.Text

namespace ObjectTiers.Text.Base64

variable {b : UInt8} {bytes group text : Bytes} {v offset : Nat} {vs : List Nat}

/-! ### Symbols -/

theorem value?_symbol (h : v < 64) : value? (symbol v) = some v := by
  revert h
  revert v
  decide

theorem symbol_of_value? (h : value? b = some v) : v < 64 ∧ b = symbol v := by
  have hrange (lo hi : UInt8) : (decide (lo ≤ b) && decide (b ≤ hi)) = true ↔
      lo.toNat ≤ b.toNat ∧ b.toNat ≤ hi.toNat := by
    simp [UInt8.le_iff_toNat_le]
  have hb {n : Nat} (hn : n = b.toNat) : b = .ofNat n := by rw [hn, UInt8.ofNat_toNat]
  unfold value? at h
  split at h
  · next hupper =>
    obtain ⟨hlo, hhi⟩ := (hrange _ _).mp hupper
    simp only [UInt8.reduceToNat] at hlo hhi
    cases h
    rw [symbol, if_pos (by omega)]
    exact ⟨by omega, hb (by omega)⟩
  split at h
  · next hlower =>
    obtain ⟨hlo, hhi⟩ := (hrange _ _).mp hlower
    simp only [UInt8.reduceToNat] at hlo hhi
    cases h
    rw [symbol, if_neg (by omega), if_pos (by omega)]
    exact ⟨by omega, hb (by omega)⟩
  split at h
  · next hdigit =>
    obtain ⟨hlo, hhi⟩ := (hrange _ _).mp hdigit
    simp only [UInt8.reduceToNat] at hlo hhi
    cases h
    rw [symbol, if_neg (by omega), if_neg (by omega), if_pos (by omega)]
    exact ⟨by omega, hb (by omega)⟩
  split at h
  · next hplus => cases h; exact ⟨by decide, hplus⟩
  split at h
  · next hslash => cases h; exact ⟨by decide, hslash⟩
  · cases h

theorem value?_eq_some_iff : value? b = some v ↔ v < 64 ∧ b = symbol v :=
  ⟨symbol_of_value?, fun ⟨hv, hb⟩ => hb ▸ value?_symbol hv⟩

theorem symbol_ne_pad (h : v < 64) : symbol v ≠ pad := by
  revert h
  revert v
  decide

theorem symbol_injective {w : Nat} (hv : v < 64) (hw : w < 64) (h : symbol v = symbol w) : v = w :=
  Option.some.inj ((value?_symbol hv).symm.trans (h ▸ value?_symbol hw))

theorem values_eq_ok_iff :
    values offset bytes = .ok vs ↔ (∀ v ∈ vs, v < 64) ∧ bytes = vs.map symbol := by
  induction bytes generalizing offset vs with
  | nil =>
    simp only [values, Except.ok.injEq, List.nil_eq, List.map_eq_nil_iff]
    constructor
    · rintro rfl
      exact ⟨by simp, rfl⟩
    · exact fun h => h.2
  | cons b bytes ih =>
    cases hb : value? b with
    | none =>
      simp only [values, hb, reduceCtorEq, false_iff]
      rintro ⟨hvs, hbytes⟩
      cases vs with
      | nil => cases hbytes
      | cons v vs =>
        cases hbytes
        rw [value?_symbol (hvs v List.mem_cons_self)] at hb
        cases hb
    | some v =>
      obtain ⟨hv, rfl⟩ := value?_eq_some_iff.mp hb
      simp only [values, hb]
      constructor
      · intro h
        cases hrest : values (offset + 1) bytes with
        | error e => rw [hrest] at h; cases h
        | ok ws =>
          rw [hrest] at h
          cases h
          obtain ⟨hws, rfl⟩ := ih.mp hrest
          exact ⟨List.forall_mem_cons.mpr ⟨hv, hws⟩, rfl⟩
      · rintro ⟨hvs, hbytes⟩
        cases vs with
        | nil => cases hbytes
        | cons w ws =>
          obtain ⟨hw, hws⟩ := List.forall_mem_cons.mp hvs
          obtain ⟨hhead, rfl⟩ := List.cons.inj hbytes
          rw [ih.mpr ⟨hws, rfl⟩, symbol_injective hv hw hhead]
          rfl

/-! ### The last group -/

theorem takeWhile_symbols (h : ∀ v ∈ vs, v < 64) (n : Nat) :
    (vs.map symbol ++ List.replicate n pad).takeWhile (· != pad) = vs.map symbol ∧
      (vs.map symbol ++ List.replicate n pad).dropWhile (· != pad) = List.replicate n pad := by
  have hsymbols : ∀ b ∈ vs.map symbol, (b != pad) = true := by
    intro b hb
    obtain ⟨v, hv, rfl⟩ := List.mem_map.mp hb
    exact bne_iff_ne.mpr (symbol_ne_pad (h v hv))
  rw [List.takeWhile_append_of_pos hsymbols, List.dropWhile_append_of_pos hsymbols]
  cases n <;> simp [List.replicate_succ]

/-- A last group consists of symbols and then of pads, if of any behind two symbols at least. -/
theorem lastGroup_eq_ok_iff {pads : Nat} : lastGroup offset group = .ok (vs, pads) ↔
    (∀ v ∈ vs, v < 64) ∧ group = vs.map symbol ++ List.replicate pads pad ∧
      (pads = 0 ∨ 2 ≤ vs.length) := by
  constructor
  · intro h
    simp only [lastGroup] at h
    split at h
    · cases h
    next ws hws =>
    obtain ⟨hsmall, hsymbols⟩ := values_eq_ok_iff.mp hws
    have hsplit : group = ws.map symbol ++ group.dropWhile (· != pad) := by
      rw [← hsymbols, List.takeWhile_append_dropWhile]
    split at h
    · next hrest =>
      cases h
      refine ⟨hsmall, ?_, .inl rfl⟩
      rw [List.replicate_zero, ← List.isEmpty_iff.mp hrest]
      exact hsplit
    split at h
    · cases h
    next hlength =>
    split at h
    · cases h
    next hpads =>
    cases h
    have hrest : group.dropWhile (· != pad) =
        List.replicate (group.dropWhile (· != pad)).length pad := by
      refine List.eq_replicate_of_mem fun b hb => Classical.byContradiction fun hne => ?_
      exact hpads (List.any_eq_true.mpr ⟨b, hb, bne_iff_ne.mpr hne⟩)
    refine ⟨hsmall, ?_, .inr ?_⟩
    · rw [← hrest]
      exact hsplit
    · rw [hsymbols, List.length_map] at hlength
      omega
  · rintro ⟨hsmall, rfl, hlength⟩
    obtain ⟨htake, hdrop⟩ := takeWhile_symbols hsmall pads
    simp only [lastGroup, htake, hdrop, values_eq_ok_iff.mpr ⟨hsmall, rfl⟩]
    cases pads with
    | zero => rfl
    | succ n =>
      have hlong : ¬ (vs.map symbol).length < 2 := by
        rw [List.length_map]
        exact Nat.not_lt.mpr (hlength.resolve_left (Nat.succ_ne_zero n))
      have hpads : ¬ ((List.replicate (n + 1) pad).any (· != pad)) = true := by simp
      rw [if_neg (by simp [List.replicate_succ]), if_neg hlong, if_neg hpads,
        List.length_replicate]

/-! ### Groups -/

/-- The bytes of a group spell its values: three bytes all four of them, fewer bytes as many as
leave no bits over. -/
theorem encode_group {a b c d : Nat} (ha : a < 64) (hb : b < 64) (hc : c < 64) (hd : d < 64)
    (r : Bytes) :
    encode (groupBytes a b c d ++ r) =
      symbol a :: symbol b :: symbol c :: symbol d :: encode r := by
  have hx : (UInt8.ofNat (a * 4 + b / 16)).toNat = a * 4 + b / 16 := by
    rw [UInt8.toNat_ofNat']
    omega
  have hy : (UInt8.ofNat (b % 16 * 16 + c / 4)).toNat = b % 16 * 16 + c / 4 := by
    rw [UInt8.toNat_ofNat']
    omega
  have hz : (UInt8.ofNat (c % 4 * 64 + d)).toNat = c % 4 * 64 + d := by
    rw [UInt8.toNat_ofNat']
    omega
  have h₁ : (a * 4 + b / 16) / 4 = a := by omega
  have h₂ : (a * 4 + b / 16) % 4 * 16 + (b % 16 * 16 + c / 4) / 16 = b := by omega
  have h₃ : (b % 16 * 16 + c / 4) % 16 * 4 + (c % 4 * 64 + d) / 64 = c := by omega
  have h₄ : (c % 4 * 64 + d) % 64 = d := by omega
  simp only [groupBytes, List.cons_append, List.nil_append, encode, hx, hy, hz, h₁, h₂, h₃, h₄]

theorem encode_pair {a b c : Nat} (ha : a < 64) (hb : b < 64) (hc : c < 64) (hbits : c % 4 = 0) :
    encode ((groupBytes a b c 0).take 2) = [symbol a, symbol b, symbol c, pad] := by
  have hx : (UInt8.ofNat (a * 4 + b / 16)).toNat = a * 4 + b / 16 := by
    rw [UInt8.toNat_ofNat']
    omega
  have hy : (UInt8.ofNat (b % 16 * 16 + c / 4)).toNat = b % 16 * 16 + c / 4 := by
    rw [UInt8.toNat_ofNat']
    omega
  have h₁ : (a * 4 + b / 16) / 4 = a := by omega
  have h₂ : (a * 4 + b / 16) % 4 * 16 + (b % 16 * 16 + c / 4) / 16 = b := by omega
  have h₃ : (b % 16 * 16 + c / 4) % 16 * 4 = c := by omega
  simp only [groupBytes, List.take_succ_cons, List.take_zero, encode, hx, hy, h₁, h₂, h₃]

theorem encode_single {a b : Nat} (ha : a < 64) (hb : b < 64) (hbits : b % 16 = 0) :
    encode ((groupBytes a b 0 0).take 1) = [symbol a, symbol b, pad, pad] := by
  have hx : (UInt8.ofNat (a * 4 + b / 16)).toNat = a * 4 + b / 16 := by
    rw [UInt8.toNat_ofNat']
    omega
  have h₁ : (a * 4 + b / 16) / 4 = a := by omega
  have h₂ : (a * 4 + b / 16) % 4 * 16 = b := by omega
  simp only [groupBytes, List.take_succ_cons, List.take_zero, encode, hx, h₁, h₂]

theorem length_encode (bytes : Bytes) : (encode bytes).length = (bytes.length + 2) / 3 * 4 := by
  fun_induction encode bytes with
  | case1 | case2 | case3 => simp
  | case4 a b c r ih =>
    simp only [List.length_cons, ih]
    omega

/-- The values that three bytes are encoded with. -/
def groupValues (x y z : UInt8) : List Nat :=
  [x.toNat / 4, x.toNat % 4 * 16 + y.toNat / 16, y.toNat % 16 * 4 + z.toNat / 64, z.toNat % 64]

theorem groupValues_lt (x y z : UInt8) : ∀ v ∈ groupValues x y z, v < 64 := by
  have hx := x.toNat_lt
  have hy := y.toNat_lt
  have hz := z.toNat_lt
  simp only [groupValues, List.forall_mem_cons]
  exact ⟨by omega, by omega, by omega, by omega, nofun⟩

theorem groupBytes_encode (x y z : UInt8) : groupBytes (x.toNat / 4)
    (x.toNat % 4 * 16 + y.toNat / 16) (y.toNat % 16 * 4 + z.toNat / 64) (z.toNat % 64) =
      [x, y, z] := by
  have hx := x.toNat_lt
  have hy := y.toNat_lt
  have hz := z.toNat_lt
  have h₁ : x.toNat / 4 * 4 + (x.toNat % 4 * 16 + y.toNat / 16) / 16 = x.toNat := by omega
  have h₂ : (x.toNat % 4 * 16 + y.toNat / 16) % 16 * 16 + (y.toNat % 16 * 4 + z.toNat / 64) / 4 =
      y.toNat := by omega
  have h₃ : (y.toNat % 16 * 4 + z.toNat / 64) % 4 * 64 + z.toNat % 64 = z.toNat := by omega
  simp only [groupBytes, h₁, h₂, h₃, UInt8.ofNat_toNat]

/-- The last group is one to three bytes, encoded. -/
theorem lastBytes_eq_ok_iff (hlength : group.length ≤ 4) :
    lastBytes offset group = .ok bytes ↔
      group = encode bytes ∧ bytes ≠ [] ∧ bytes.length ≤ 3 := by
  constructor
  · intro h
    simp only [lastBytes] at h
    split at h
    · cases h
    next vs pads hgroup =>
    obtain ⟨hsmall, rfl, -⟩ := lastGroup_eq_ok_iff.mp hgroup
    split at h
    · cases h
    split at h
    · cases h
    next hfour =>
    rw [List.length_append, List.length_map, List.length_replicate] at hlength
    split at h
    · next a b =>
      split at h
      · cases h
      next hbits =>
      cases h
      obtain ⟨ha, hb, -⟩ := by simpa only [List.forall_mem_cons] using hsmall
      obtain rfl : pads = 2 := by simp only [List.length_cons, List.length_nil] at *; omega
      exact ⟨(encode_single ha hb (Decidable.not_not.mp hbits)).symm, by simp [groupBytes],
        by simp [groupBytes]⟩
    · next a b c =>
      split at h
      · cases h
      next hbits =>
      cases h
      obtain ⟨ha, hb, hc, -⟩ := by simpa only [List.forall_mem_cons] using hsmall
      obtain rfl : pads = 1 := by simp only [List.length_cons, List.length_nil] at *; omega
      exact ⟨(encode_pair ha hb hc (Decidable.not_not.mp hbits)).symm, by simp [groupBytes],
        by simp [groupBytes]⟩
    · next a b c d =>
      cases h
      obtain ⟨ha, hb, hc, hd, -⟩ := by simpa only [List.forall_mem_cons] using hsmall
      obtain rfl : pads = 0 := by simp only [List.length_cons, List.length_nil] at *; omega
      exact ⟨(encode_group ha hb hc hd []).symm, by simp [groupBytes], by simp [groupBytes]⟩
    · cases h
  · rintro ⟨rfl, hne, hshort⟩
    obtain _ | ⟨x, _ | ⟨y, _ | ⟨z, _ | ⟨w, r⟩⟩⟩⟩ := bytes
    · exact absurd rfl hne
    · have hx := x.toNat_lt
      have hsmall : ∀ v ∈ [x.toNat / 4, x.toNat % 4 * 16], v < 64 := by
        simp only [List.forall_mem_cons]
        exact ⟨by omega, by omega, nofun⟩
      have hgroup : lastGroup offset (encode [x]) = .ok ([x.toNat / 4, x.toNat % 4 * 16], 2) :=
        lastGroup_eq_ok_iff.mpr ⟨hsmall, rfl, by simp⟩
      have hbytes := groupBytes_encode x 0 0
      simp at hbytes
      simp [lastBytes, hgroup, hbytes]
    · have hx := x.toNat_lt
      have hy := y.toNat_lt
      have hsmall : ∀ v ∈ [x.toNat / 4, x.toNat % 4 * 16 + y.toNat / 16, y.toNat % 16 * 4],
          v < 64 := by
        simp only [List.forall_mem_cons]
        exact ⟨by omega, by omega, by omega, nofun⟩
      have hgroup : lastGroup offset (encode [x, y]) =
          .ok ([x.toNat / 4, x.toNat % 4 * 16 + y.toNat / 16, y.toNat % 16 * 4], 1) :=
        lastGroup_eq_ok_iff.mpr ⟨hsmall, rfl, by simp⟩
      have hbits : y.toNat % 16 * 4 % 4 = 0 := by omega
      have hbytes := groupBytes_encode x y 0
      simp at hbytes
      simp [lastBytes, hgroup, hbytes, hbits]
    · have hgroup : lastGroup offset (encode [x, y, z]) = .ok (groupValues x y z, 0) :=
        lastGroup_eq_ok_iff.mpr ⟨groupValues_lt x y z, rfl, by simp [groupValues]⟩
      simp [lastBytes, hgroup, groupValues, groupBytes_encode]
    · simp only [List.length_cons] at hshort
      omega

/-- An encoding that goes on behind its first group begins with that of three bytes. -/
theorem exists_group {p q r s : UInt8} {rest : Bytes} (offset : Nat)
    (h : p :: q :: r :: s :: rest = encode bytes) (hrest : rest ≠ []) :
    ∃ x y z more, bytes = x :: y :: z :: more ∧ rest = encode more ∧
      values offset [p, q, r, s] = .ok (groupValues x y z) := by
  obtain _ | ⟨x, _ | ⟨y, _ | ⟨z, more⟩⟩⟩ := bytes
  · cases h
  · cases h
    exact absurd rfl hrest
  · cases h
    exact absurd rfl hrest
  · cases h
    exact ⟨x, y, z, more, rfl, rfl, values_eq_ok_iff.mpr ⟨groupValues_lt x y z, rfl⟩⟩

theorem groups_eq_ok_iff : groups offset text = .ok bytes ↔ text = encode bytes := by
  fun_induction groups offset text generalizing bytes with
  | case1 offset p q r s rest hlast =>
    cases List.isEmpty_iff.mp hlast
    rw [lastBytes_eq_ok_iff (by simp)]
    refine ⟨And.left, fun h => ⟨h, ?_⟩⟩
    have hlength := congrArg List.length h
    rw [length_encode] at hlength
    simp only [List.length_cons, List.length_nil] at hlength
    exact ⟨by rintro rfl; simp at hlength, by omega⟩
  | case2 offset p q r s rest hlast w x y z hvalues ih =>
    constructor
    · intro h
      cases hmore : groups (offset + 4) rest with
      | error e => rw [hmore] at h; cases h
      | ok more =>
        rw [hmore] at h
        cases h
        obtain ⟨hsmall, hsymbols⟩ := values_eq_ok_iff.mp hvalues
        obtain ⟨hw, hx, hy, hz, -⟩ := by simpa only [List.forall_mem_cons] using hsmall
        cases hsymbols
        rw [encode_group hw hx hy hz, ih.mp hmore]
    · intro h
      obtain ⟨x', y', z', more, rfl, hrest, hvalues'⟩ :=
        exists_group offset h (mt List.isEmpty_iff.mpr hlast)
      cases hvalues.symm.trans hvalues'
      rw [ih.mpr hrest, groupBytes_encode]
      rfl
  | case3 offset p q r s rest hlast vs hfour hvalues =>
    have hlength := congrArg List.length (values_eq_ok_iff.mp hvalues).2
    obtain _ | ⟨w, _ | ⟨x, _ | ⟨y, _ | ⟨z, _ | ⟨u, vs⟩⟩⟩⟩⟩ := vs
    case cons.cons.cons.cons.nil => exact absurd rfl (hfour w x y z)
    all_goals simp at hlength
  | case4 offset p q r s rest hlast e hvalues =>
    refine iff_of_false nofun fun h => ?_
    obtain ⟨x, y, z, more, -, -, hvalues'⟩ := exists_group offset h (mt List.isEmpty_iff.mpr hlast)
    cases hvalues.symm.trans hvalues'
  | case5 offset =>
    constructor
    · rintro ⟨⟩
      rfl
    · intro h
      have hlength := congrArg List.length h
      rw [length_encode] at hlength
      simp only [List.length_nil] at hlength
      rw [List.length_eq_zero_iff.mp (by omega : bytes.length = 0)]
  | case6 offset text hfour hne =>
    have hshort : text.length ≤ 3 := by
      obtain _ | ⟨p, _ | ⟨q, _ | ⟨r, _ | ⟨s, rest⟩⟩⟩⟩ := text
      case cons.cons.cons.cons => exact absurd rfl (hfour p q r s rest)
      all_goals simp
    rw [lastBytes_eq_ok_iff (by omega)]
    refine ⟨And.left, fun h => absurd (congrArg List.length h) ?_⟩
    rw [length_encode]
    have := List.length_pos_iff.mpr hne
    omega

/-! ### Texts -/

/-- What is decoded is what is encoded: every byte string has exactly one encoding. -/
theorem decode_eq_ok_iff : decode text = .ok bytes ↔ text = encode bytes := by
  unfold decode
  split
  · next b hlast =>
    split
    · next hsingle =>
      refine iff_of_false nofun ?_
      rintro rfl
      simp only [Bool.and_eq_true, decide_eq_true_eq, length_encode] at hsingle
      omega
    · exact groups_eq_ok_iff
  · next hlast =>
    rw [List.getLast?_eq_none_iff] at hlast
    subst hlast
    exact (groups_eq_ok_iff : groups 0 [] = .ok bytes ↔ [] = encode bytes)

/-- The encoding of a byte string as a text. -/
def toText (bytes : Bytes) : String :=
  String.ofList ((encode bytes).map fun b => Char.ofNat b.toNat)

theorem mem_encode (h : b ∈ encode bytes) : b = pad ∨ ∃ v, b = symbol v := by
  fun_induction encode bytes with
  | case1 => cases h
  | case2 x =>
    simp only [List.mem_cons, List.not_mem_nil, or_false] at h
    rcases h with rfl | rfl | rfl | rfl
    · exact .inr ⟨_, rfl⟩
    · exact .inr ⟨_, rfl⟩
    · exact .inl rfl
    · exact .inl rfl
  | case3 x y =>
    simp only [List.mem_cons, List.not_mem_nil, or_false] at h
    rcases h with rfl | rfl | rfl | rfl
    · exact .inr ⟨_, rfl⟩
    · exact .inr ⟨_, rfl⟩
    · exact .inr ⟨_, rfl⟩
    · exact .inl rfl
  | case4 x y z r ih =>
    simp only [List.mem_cons] at h
    rcases h with rfl | rfl | rfl | rfl | h
    case inr.inr.inr.inr => exact ih h
    all_goals exact .inr ⟨_, rfl⟩

/-- What holds of the pad and of the 64 symbols holds of every byte of an encoding. -/
theorem forall_mem_encode {P : UInt8 → Prop} (hpad : P pad) (hsymbol : ∀ v < 64, P (symbol v)) :
    ∀ b ∈ encode bytes, P b := by
  intro b hb
  obtain rfl | ⟨v, rfl⟩ := mem_encode hb
  · exact hpad
  by_cases hv : v < 64
  · exact hsymbol v hv
  · have hlast : symbol v = symbol 63 := by
      rw [symbol, if_neg (by omega), if_neg (by omega), if_neg (by omega), if_neg (by omega)]
      rfl
    rw [hlast]
    exact hsymbol 63 (by decide)

theorem ofText_ascii (h : ∀ b ∈ bytes, b.toNat < 128) :
    Bytes.ofText (String.ofList (bytes.map fun b => Char.ofNat b.toNat)) = bytes := by
  have hascii : ∀ n < 128, (Char.ofNat n).toNat = n := by decide
  rw [Bytes.ofText_eq_flatMap, String.toList_ofList]
  induction bytes with
  | nil => rfl
  | cons b bytes ih =>
    have hb := hascii b.toNat (h b List.mem_cons_self)
    have hchar : String.utf8EncodeChar (Char.ofNat b.toNat) = [b] := by
      rcases Bytes.utf8EncodeChar_cases (Char.ofNat b.toNat) with ⟨-, he⟩ | ⟨hge, -⟩
      · rw [he, hb, UInt8.ofNat_toNat]
      · have := h b List.mem_cons_self
        omega
    rw [List.map_cons, List.flatMap_cons, hchar, ih fun x hx => h x (List.mem_cons_of_mem b hx)]
    rfl

theorem ofText_toText (bytes : Bytes) : Bytes.ofText (toText bytes) = encode bytes :=
  ofText_ascii (forall_mem_encode (by decide) (by decide))

theorem of_mem_toText {c : Char} (h : c ∈ (toText bytes).toList) : isBlank c = false ∧ c ≠ ',' := by
  rw [toText, String.toList_ofList] at h
  obtain ⟨b, hb, rfl⟩ := List.mem_map.mp h
  exact forall_mem_encode (P := fun b => isBlank (.ofNat b.toNat) = false ∧ .ofNat b.toNat ≠ ',')
    (by decide) (by decide) b hb

theorem decode_ofText_eq_ok_iff {s : String} :
    decode (Bytes.ofText s) = .ok bytes ↔ s = toText bytes := by
  rw [decode_eq_ok_iff, ← ofText_toText]
  exact ⟨Bytes.ofText_injective, fun h => by rw [h]⟩

end ObjectTiers.Text.Base64
