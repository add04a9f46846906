/-
Which identities are valid, and where their rows stand.

The grammar of references is written down apart from the check (`IsRef`), and so are the faults
with their order (`Faulty`). The pattern, the test of single characters and the search for points
decide together what the grammar says, and the path of a row is as safe as its reference: one name
below the root, which no other identity leads to (`Identity.validate_rowPath`).
-/
import ObjectTiers.Proofs.Tier.Table

namespace ObjectTiers

namespace Identity

/-! ### Characters -/

/-- The characters that references are made of: ASCII letters and digits, and three others. -/
def InAlphabet (c : Char) : Prop :=
  ('A' ≤ c ∧ c ≤ 'Z') ∨ ('a' ≤ c ∧ c ≤ 'z') ∨ ('0' ≤ c ∧ c ≤ '9') ∨ c = '_' ∨ c = '.' ∨ c = '-'

theorem isPatternChar_iff (c : Char) : isPatternChar c = true ↔ InAlphabet c := by
  simp only [isPatternChar, InAlphabet, Bool.or_eq_true, Bool.and_eq_true, decide_eq_true_eq,
    List.contains_iff_mem, List.mem_cons, List.not_mem_nil, or_false, or_assoc]

/-- The test of single characters agrees with the pattern. -/
theorem isRefChar_iff (c : Char) : isRefChar c = true ↔ InAlphabet c := by
  have hranges : c.isAlphanum =
      (decide ('A' ≤ c ∧ c ≤ 'Z') || 'a' ≤ c && c ≤ 'z' || '0' ≤ c && c ≤ '9') := rfl
  simp only [isRefChar, hranges, InAlphabet, Bool.or_eq_true, Bool.and_eq_true, decide_eq_true_eq,
    beq_iff_eq, or_assoc]

instance (c : Char) : Decidable (InAlphabet c) :=
  decidable_of_iff (isPatternChar c = true) (isPatternChar_iff c)

/-! ### The parts of the check -/

theorem matchesPattern_iff (cs : List Char) :
    matchesPattern cs = true ↔ cs ≠ [] ∧ ∀ c ∈ cs, InAlphabet c := by
  simp only [matchesPattern, Bool.and_eq_true, Bool.not_eq_true', List.isEmpty_eq_false_iff,
    List.all_eq_true, isPatternChar_iff]

theorem hasDoublePoint_iff (cs : List Char) : hasDoublePoint cs = true ↔ ['.', '.'] <:+: cs := by
  fun_induction hasDoublePoint cs with
  | case1 r => exact ⟨fun _ => (List.prefix_append _ r).isInfix, fun _ => rfl⟩
  | case2 c r hne ih =>
    rw [ih, List.infix_cons_iff]
    refine ⟨.inr, fun h => h.resolve_left ?_⟩
    rintro ⟨t, ht⟩
    obtain ⟨rfl, rfl⟩ := List.cons.inj ht
    exact hne t rfl rfl
  | case3 => exact ⟨fun h => (by cases h), fun h => by simp at h⟩

theorem points_iff (cs : List Char) :
    (cs.head? = some '.' || hasDoublePoint cs) = true ↔ ['.'] <+: cs ∨ ['.', '.'] <:+: cs := by
  have hhead : cs.head? = some '.' ↔ ['.'] <+: cs := by
    cases cs with
    | nil => simp
    | cons c cs => simp [List.cons_prefix_cons, eq_comm]
  rw [Bool.or_eq_true, decide_eq_true_eq, hhead, hasDoublePoint_iff]

/-- The first character outside the alphabet is found, after as many bytes as stand before it. -/
theorem invalidChar?_append (offset : Nat) {before after : List Char} {c : Char}
    (hbefore : ∀ b ∈ before, InAlphabet b) (hc : ¬ InAlphabet c) :
    invalidChar? offset (before ++ c :: after) =
      some (c, offset + (String.ofList before).utf8ByteSize) := by
  induction before generalizing offset with
  | nil =>
    rw [List.nil_append, invalidChar?, if_neg (mt (isRefChar_iff c).mp hc)]
    rfl
  | cons b before ih =>
    have hb : isRefChar b = true := (isRefChar_iff b).mpr (hbefore b List.mem_cons_self)
    have hsize : (String.ofList (b :: before)).utf8ByteSize =
        b.utf8Size + (String.ofList before).utf8ByteSize := by
      rw [String.ofList_cons, String.utf8ByteSize_append, String.utf8ByteSize_singleton]
    rw [List.cons_append, invalidChar?, if_pos hb,
      ih _ fun x hx => hbefore x (List.mem_cons_of_mem b hx), hsize, Nat.add_assoc]

/-! ### References -/

/-- The grammar of references. -/
structure IsRef (r : String) : Prop where
  size : 1 ≤ r.utf8ByteSize ∧ r.utf8ByteSize ≤ 128
  alphabet : ∀ c ∈ r.toList, InAlphabet c
  head : ¬ ['.'] <+: r.toList
  points : ¬ ['.', '.'] <:+: r.toList

/-- The faults of an identity: each stands only where none of those before it does. -/
inductive Faulty (r : String) (v : UInt16) : ValidationError → Prop
  | emptyRef (h : r.utf8ByteSize = 0) : Faulty r v .emptyRef
  | refTooLong (h : 128 < r.utf8ByteSize) : Faulty r v (.refTooLong r.utf8ByteSize)
  | invalidCharacter {before after : List Char} {c : Char}
      (hsize : 1 ≤ r.utf8ByteSize ∧ r.utf8ByteSize ≤ 128)
      (hr : r.toList = before ++ c :: after) (hbefore : ∀ b ∈ before, InAlphabet b)
      (hc : ¬ InAlphabet c) :
      Faulty r v (.invalidCharacter c (String.ofList before).utf8ByteSize)
  | pathTraversal (hsize : 1 ≤ r.utf8ByteSize ∧ r.utf8ByteSize ≤ 128)
      (halphabet : ∀ c ∈ r.toList, InAlphabet c)
      (h : ['.'] <+: r.toList ∨ ['.', '.'] <:+: r.toList) : Faulty r v (.pathTraversal r)
  | zeroVersion (href : IsRef r) (hv : v = 0) : Faulty r v .zeroVersion

variable {r : String} {v : UInt16}

theorem ne_nil_of_size (h : 1 ≤ r.utf8ByteSize) : r.toList ≠ [] := by
  intro hnil
  rw [String.toList_eq_nil_iff] at hnil
  subst hnil
  cases h

theorem not_isEmpty_of_size (h : 1 ≤ r.utf8ByteSize) : ¬ r.isEmpty = true := by
  rw [String.isEmpty_iff_utf8ByteSize_eq_zero]
  omega

/-- What is left of the check where the length is right. -/
theorem validateRef_of_size (h : 1 ≤ r.utf8ByteSize ∧ r.utf8ByteSize ≤ 128) :
    validateRef r =
      if !matchesPattern r.toList then
        let (c, offset) := (invalidChar? 0 r.toList).getD noChar
        .error (.invalidCharacter c offset)
      else if r.toList.head? = some '.' || hasDoublePoint r.toList then .error (.pathTraversal r)
      else .ok () := by
  have hlong : ¬ maxRefLength < r.utf8ByteSize := Nat.not_lt.mpr h.2
  rw [validateRef, if_neg (not_isEmpty_of_size h.1), if_neg hlong]

theorem validateRef_of_alphabet (hsize : 1 ≤ r.utf8ByteSize ∧ r.utf8ByteSize ≤ 128)
    (halphabet : ∀ c ∈ r.toList, InAlphabet c) :
    validateRef r =
      if r.toList.head? = some '.' || hasDoublePoint r.toList then .error (.pathTraversal r)
      else .ok () := by
  have hmatch : matchesPattern r.toList = true :=
    (matchesPattern_iff _).mpr ⟨ne_nil_of_size hsize.1, halphabet⟩
  rw [validateRef_of_size hsize, hmatch]
  rfl

theorem IsRef.validateRef (h : IsRef r) : validateRef r = .ok () := by
  have hpoints := mt (points_iff r.toList).mp (not_or.mpr ⟨h.head, h.points⟩)
  rw [validateRef_of_alphabet h.size h.alphabet, if_neg hpoints]

theorem IsRef.validate (h : IsRef r) (hv : v ≠ 0) : validate r v = .ok ⟨r, v⟩ := by
  rw [Identity.validate, h.validateRef]
  exact if_neg hv

theorem Faulty.validate {e : ValidationError} (h : Faulty r v e) : validate r v = .error e := by
  cases h with
  | emptyRef h =>
    have href : validateRef r = .error .emptyRef := by
      rw [validateRef, if_pos (String.isEmpty_iff_utf8ByteSize_eq_zero.mpr h)]
    rw [Identity.validate, href]
  | refTooLong h =>
    have hlong : maxRefLength < r.utf8ByteSize := h
    have href : validateRef r = .error (.refTooLong r.utf8ByteSize) := by
      rw [validateRef, if_neg (not_isEmpty_of_size (Nat.one_le_of_lt h)), if_pos hlong]
    rw [Identity.validate, href]
  | @invalidCharacter before after c hsize hr hbefore hc =>
    have hmatch : matchesPattern r.toList = false := by
      rw [← Bool.not_eq_true, matchesPattern_iff, hr]
      exact fun h => hc (h.2 c (by simp))
    rw [Identity.validate, validateRef_of_size hsize, hmatch, hr,
      invalidChar?_append 0 hbefore hc, Nat.zero_add]
    rfl
  | pathTraversal hsize halphabet h =>
    rw [Identity.validate, validateRef_of_alphabet hsize halphabet, if_pos ((points_iff _).mpr h)]
  | zeroVersion href hv =>
    rw [Identity.validate, href.validateRef]
    exact if_pos hv

/-- Every identity that is not valid has a fault. -/
theorem exists_faulty (h : ¬ (IsRef r ∧ v ≠ 0)) : ∃ e, Faulty r v e := by
  by_cases hzero : r.utf8ByteSize = 0
  · exact ⟨_, .emptyRef hzero⟩
  by_cases hlong : 128 < r.utf8ByteSize
  · exact ⟨_, .refTooLong hlong⟩
  have hsize : 1 ≤ r.utf8ByteSize ∧ r.utf8ByteSize ≤ 128 := by omega
  by_cases halphabet : ∀ c ∈ r.toList, InAlphabet c
  · by_cases hpoints : ['.'] <+: r.toList ∨ ['.', '.'] <:+: r.toList
    · exact ⟨_, .pathTraversal hsize halphabet hpoints⟩
    · obtain ⟨hhead, hpoints⟩ := not_or.mp hpoints
      have href : IsRef r := ⟨hsize, halphabet, hhead, hpoints⟩
      exact ⟨_, .zeroVersion href (Decidable.not_not.mp fun hv => h ⟨href, hv⟩)⟩
  · -- The first character outside the alphabet splits the reference.
    have hfound : (r.toList.find? fun c => !decide (InAlphabet c)).isSome = true := by
      rw [List.find?_isSome]
      simpa using halphabet
    obtain ⟨c, hc⟩ := Option.isSome_iff_exists.mp hfound
    obtain ⟨hout, before, after, hr, hbefore⟩ := List.find?_eq_some_iff_append.mp hc
    exact ⟨_, .invalidCharacter hsize hr (by simpa using hbefore) (by simpa using hout)⟩

theorem validate_eq_ok_iff (key : Key) :
    validate r v = .ok key ↔ IsRef r ∧ v ≠ 0 ∧ key = ⟨r, v⟩ := by
  constructor
  · intro h
    by_cases hvalid : IsRef r ∧ v ≠ 0
    · exact ⟨hvalid.1, hvalid.2, eq_of_validate h⟩
    · obtain ⟨e, he⟩ := exists_faulty hvalid
      rw [he.validate] at h
      cases h
  · rintro ⟨href, hv, rfl⟩
    exact href.validate hv

theorem validate_eq_error_iff (e : ValidationError) :
    validate r v = .error e ↔ Faulty r v e := by
  refine ⟨fun h => ?_, Faulty.validate⟩
  have hvalid : ¬ (IsRef r ∧ v ≠ 0) := by
    rintro ⟨href, hv⟩
    rw [href.validate hv] at h
    cases h
  obtain ⟨e', he'⟩ := exists_faulty hvalid
  rw [he'.validate] at h
  cases h
  exact he'

/-- A character is blamed only if it stands in the reference. -/
theorem Faulty.mem {c : Char} {offset : Nat} (h : Faulty r v (.invalidCharacter c offset)) :
    c ∈ r.toList := by
  cases h with
  | invalidCharacter _ hr => simp [hr]

end Identity

/-! ### Paths -/

namespace Directory

open Identity

/-- The names that a path text leads through: what stands between its slashes, apart from empty
pieces and single points, which lead nowhere. -/
def namesOf (text : String) : List String :=
  ((text.toList.splitOn '/').filter fun cs => cs ≠ [] ∧ cs ≠ ['.']).map String.ofList

/-- The five digits of a version. -/
structure IsWritten (v : UInt16) (ds : List Char) : Prop where
  length : ds.length = 5
  digits : ∀ d ∈ ds, d.isDigit = true
  value : Nat.ofDigitChars 10 ds 0 = v.toNat

theorem isWritten_paddedDigits (v : UInt16) :
    IsWritten v (Text.paddedDigits versionWidth v.toNat) where
  length := length_versionDigits v
  digits d hd := by
    rw [Text.paddedDigits, List.mem_append, List.mem_replicate] at hd
    rcases hd with ⟨-, rfl⟩ | hd
    · rfl
    · exact Nat.isDigit_of_mem_toDigits (by decide) (by decide) hd
  value := by
    simp only [Text.paddedDigits, Nat.ofDigitChars_append, Nat.ofDigitChars_replicate_zero,
      Nat.mul_zero, Nat.ofDigitChars_ten_toDigits]

/-- What may stand as one name in a path: no slash divides it, and it leads to a place of its
own. -/
structure IsName (cs : List Char) : Prop where
  slash : '/' ∉ cs
  ne_nil : cs ≠ []
  ne_point : cs ≠ ['.']
  ne_points : cs ≠ ['.', '.']

theorem IsName.of_isRef {r : String} (h : IsRef r) : IsName r.toList where
  slash hmem := (by decide : ¬ InAlphabet '/') (h.alphabet '/' hmem)
  ne_nil := ne_nil_of_size h.size.1
  ne_point hr := h.head (hr ▸ List.prefix_refl _)
  ne_points hr := h.points (hr ▸ List.infix_refl _)

theorem IsWritten.isName {v : UInt16} {ds : List Char} (h : IsWritten v ds) :
    IsName (ds ++ ".row".toList) where
  slash hmem := by
    rcases List.mem_append.mp hmem with hd | hd
    · exact absurd (h.digits '/' hd) (by decide)
    · exact absurd hd (by decide)
  ne_nil hnil := by simpa [h.length] using congrArg List.length hnil
  ne_point hp := by simpa [h.length] using congrArg List.length hp
  ne_points hp := by simpa [h.length] using congrArg List.length hp

theorem namesOf_pathText {a b : String} (ha : IsName a.toList) (hb : IsName b.toList) :
    namesOf (pathText [a, b]) = ["<root>", a, b] := by
  have htext : (pathText [a, b]).toList =
      "<root>".toList ++ '/' :: (a.toList ++ '/' :: b.toList) := by
    have : pathText [a, b] = "<root>" ++ "/" ++ a ++ "/" ++ b := rfl
    simp [this]
  have hpieces : (pathText [a, b]).toList.splitOn '/' = ["<root>".toList, a.toList, b.toList] := by
    rw [htext, List.splitOn_append_cons_self_of_not_mem (by decide),
      List.splitOn_append_cons_self_of_not_mem ha.slash, List.splitOn_eq_singleton hb.slash]
  rw [namesOf, hpieces]
  simp [ha.ne_nil, ha.ne_point, hb.ne_nil, hb.ne_point]

end Directory

namespace Identity

open Directory

variable {r : String} {v : UInt16}

theorem IsRef.rowPath (href : IsRef r) (hv : v ≠ 0) : rowPath r v = .ok [r, rowName v] := by
  rw [Directory.rowPath, href.validate hv]
  rfl

theorem Faulty.rowPath {e : ValidationError} (h : Faulty r v e) :
    rowPath r v = .error (.invariant (.identity e)) := by
  rw [Directory.rowPath, h.validate]

theorem isRef_of_rowPath {path : Path} (h : rowPath r v = .ok path) : IsRef r ∧ v ≠ 0 := by
  refine Classical.byContradiction fun hvalid => ?_
  obtain ⟨e, he⟩ := exists_faulty hvalid
  rw [he.rowPath] at h
  cases h

theorem isName_rowName (v : UInt16) : IsName (rowName v).toList := by
  rw [rowName, String.toList_append, String.toList_ofList]
  exact (isWritten_paddedDigits v).isName

theorem namesOf_rowPath {path : Path} (h : rowPath r v = .ok path) :
    namesOf (pathText path) = "<root>" :: path := by
  rw [rowPath_ok h]
  exact namesOf_pathText (.of_isRef (isRef_of_rowPath h).1) (isName_rowName v)

/-- An identity is valid exactly if its reference keeps to the grammar and its version is not 0;
otherwise the first of its faults is reported, and no character is blamed that does not stand in
the reference. The same identities have a path, which leads from the root through the reference,
as one name, to a file named by the version in five digits; and different ones have different
paths. -/
theorem validate_rowPath (r : String) (v : UInt16) :
    (∀ key, validate r v = .ok key ↔ IsRef r ∧ v ≠ 0 ∧ key = ⟨r, v⟩) ∧
    (∀ e, validate r v = .error e ↔ Faulty r v e) ∧
    (∀ c offset, validate r v = .error (.invalidCharacter c offset) → c ∈ r.toList) ∧
    ((∃ path, rowPath r v = .ok path) ↔ IsRef r ∧ v ≠ 0) ∧
    (∀ path, rowPath r v = .ok path → IsName r.toList ∧ ∃ ds, IsWritten v ds ∧
      path = [r, String.ofList ds ++ ".row"] ∧ namesOf (pathText path) = "<root>" :: path) ∧
    (∀ s w p q, rowPath r v = .ok p → rowPath s w = .ok q → (r, v) ≠ (s, w) →
      pathText p ≠ pathText q) := by
  refine ⟨fun key => validate_eq_ok_iff key, fun e => validate_eq_error_iff e, ?blamed, ?found,
    ?shape, ?apart⟩
  case blamed => exact fun c offset h => Faulty.mem ((validate_eq_error_iff _).mp h)
  case found =>
    constructor
    · rintro ⟨path, h⟩
      exact isRef_of_rowPath h
    · rintro ⟨href, hv⟩
      exact ⟨_, href.rowPath hv⟩
  case shape =>
    intro path h
    exact ⟨.of_isRef (isRef_of_rowPath h).1, _, isWritten_paddedDigits v, rowPath_ok h,
      namesOf_rowPath h⟩
  case apart =>
    -- what a path text leads through is the path, and that tells the identity
    intro s w p q hp hq hne htext
    have hnames := congrArg namesOf htext
    rw [namesOf_rowPath hp, namesOf_rowPath hq] at hnames
    obtain ⟨-, rfl⟩ := List.cons.inj hnames
    obtain ⟨rfl, rfl⟩ := rowPath_injective hp hq
    exact hne rfl

/-- A line break at the end of a reference is blamed at its place before the version is looked at,
and two versions do not share a path. -/
theorem validate_rowPath_samples :
    IsRef "a.b-C_1" ∧ (∃ path, rowPath "a.b-C_1" 65535 = .ok path) ∧
    Faulty "ab\n" 0 (.invalidCharacter '\n' 2) ∧ '\n' ∈ "ab\n".toList ∧
    (∃ ds, IsWritten 7 ds ∧ ["a.b-C_1", "00007.row"] = ["a.b-C_1", String.ofList ds ++ ".row"]) ∧
    pathText ["a.b-C_1", "00007.row"] ≠ pathText ["a.b-C_1", "00008.row"] := by
  have hkey : validate "a.b-C_1" 7 = .ok ⟨"a.b-C_1", 7⟩ := by rfl
  have hbreak : validate "ab\n" 0 = .error (.invalidCharacter '\n' 2) := by rfl
  obtain ⟨hvalid, -, -, -, hshape, hapart⟩ := validate_rowPath "a.b-C_1" 7
  obtain ⟨-, hfaulty, hblamed, -⟩ := validate_rowPath "ab\n" 0
  obtain ⟨-, -, -, hfound, -⟩ := validate_rowPath "a.b-C_1" 65535
  obtain ⟨href, -, -⟩ := (hvalid _).mp hkey
  have hseven := href.rowPath (v := 7) (by decide)
  have hnext := href.rowPath (v := 8) (by decide)
  obtain ⟨-, ds, hds, hnames, -⟩ := hshape _ hseven
  exact ⟨href, hfound.mpr ⟨href, by decide⟩, (hfaulty _).mp hbreak, hblamed _ _ hbreak,
    ⟨ds, hds, hnames⟩, hapart _ _ _ _ hseven hnext (by decide)⟩

end Identity

end ObjectTiers
