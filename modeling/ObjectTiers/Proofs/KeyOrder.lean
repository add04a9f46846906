/-
The order of keys.

Keys are ordered by their texts, which differ if the keys do (`Key.compare_eq`). The colon that ends
a reference in a key stands in no reference, so of keys with different references the references
decide (`Identity.compare_of_ne`); of keys with one reference the five digits of the version decide,
and digits of equal number are ordered as the numbers they spell (`Text.digits_lt_iff`). So sorting
brings the keys of a reference together, with their versions ascending (`Key.text_compare_sort`).
-/
import ObjectTiers.Proofs.Reference

namespace ObjectTiers

namespace Text

/-! ### Lists of characters -/

/-- Before a mark that stands in neither, two different texts are ordered alike whatever comes
behind it. -/
theorem append_mark_lt_iff {m : Char} {a b : List Char} (ha : m ∉ a) (hb : m ∉ b) (hne : a ≠ b)
    (x y : List Char) : a ++ m :: x < b ++ m :: y ↔ a ++ [m] < b ++ [m] := by
  induction a generalizing b with
  | nil =>
    cases b with
    | nil => exact absurd rfl hne
    | cons d b =>
      have hd : m ≠ d := fun h => hb (h ▸ List.mem_cons_self)
      simp only [List.nil_append, List.cons_append, List.cons_lt_cons_iff, hd, false_and]
  | cons c a ih =>
    cases b with
    | nil =>
      have hc : c ≠ m := fun h => ha (h ▸ List.mem_cons_self)
      simp only [List.nil_append, List.cons_append, List.cons_lt_cons_iff, hc, false_and]
    | cons d b =>
      simp only [List.cons_append, List.cons_lt_cons_iff]
      refine or_congr_right (and_congr_right fun hcd => ?_)
      exact ih (fun h => ha (List.mem_cons_of_mem c h)) (fun h => hb (List.mem_cons_of_mem d h))
        fun h => hne (by rw [hcd, h])

theorem append_lt_append_iff (a x y : List Char) : a ++ x < a ++ y ↔ x < y := by
  induction a with
  | nil => rfl
  | cons c a ih => simp [ih]

/-! ### Digits -/

theorem isDigit_le {d : Char} (h : d.isDigit = true) : '0'.toNat ≤ d.toNat ∧ d.toNat ≤ 57 := by
  simp only [Char.isDigit, Bool.and_eq_true, decide_eq_true_eq] at h
  exact h

/-- A number that is ahead stays ahead by as many more digits. -/
theorem ofDigitChars_lt {m n : Nat} (h : m < n) {ds es : List Char} (hlen : ds.length = es.length)
    (hds : ∀ d ∈ ds, d.isDigit = true) (hes : ∀ e ∈ es, e.isDigit = true) :
    Nat.ofDigitChars 10 ds m < Nat.ofDigitChars 10 es n := by
  induction ds generalizing es m n with
  | nil =>
    cases List.length_eq_zero_iff.mp hlen.symm
    exact h
  | cons d ds ih =>
    obtain _ | ⟨e, es⟩ := es
    · cases hlen
    have hd := isDigit_le (hds d List.mem_cons_self)
    have he := isDigit_le (hes e List.mem_cons_self)
    rw [Nat.ofDigitChars_cons, Nat.ofDigitChars_cons]
    refine ih ?_ (Nat.succ.inj hlen) (fun x hx => hds x (List.mem_cons_of_mem d hx))
      fun x hx => hes x (List.mem_cons_of_mem e hx)
    have hzero : '0'.toNat = 48 := rfl
    omega

/-- Equally many digits are ordered as the numbers they spell. -/
theorem digits_lt_iff (n : Nat) {ds es : List Char} (hlen : ds.length = es.length)
    (hds : ∀ d ∈ ds, d.isDigit = true) (hes : ∀ e ∈ es, e.isDigit = true) :
    ds < es ↔ Nat.ofDigitChars 10 ds n < Nat.ofDigitChars 10 es n := by
  induction ds generalizing es n with
  | nil =>
    cases List.length_eq_zero_iff.mp hlen.symm
    simp
  | cons d ds ih =>
    obtain _ | ⟨e, es⟩ := es
    · cases hlen
    have hd := isDigit_le (hds d List.mem_cons_self)
    have he := isDigit_le (hes e List.mem_cons_self)
    have hds' (x : Char) (hx : x ∈ ds) := hds x (List.mem_cons_of_mem d hx)
    have hes' (x : Char) (hx : x ∈ es) := hes x (List.mem_cons_of_mem e hx)
    have hlen' : ds.length = es.length := Nat.succ.inj hlen
    have hchar : d < e ↔ d.toNat < e.toNat := Iff.rfl
    rw [List.cons_lt_cons_iff, Nat.ofDigitChars_cons, Nat.ofDigitChars_cons, hchar]
    -- The first digits decide unless they are equal.
    rcases Nat.lt_trichotomy d.toNat e.toNat with hlt | heq | hgt
    · have hnext := ofDigitChars_lt (m := 10 * n + (d.toNat - '0'.toNat))
        (n := 10 * n + (e.toNat - '0'.toNat)) (by omega) hlen' hds' hes'
      exact iff_of_true (.inl hlt) hnext
    · cases Char.toNat_inj.mp heq
      rw [← ih _ hlen' hds' hes']
      simp
    · have hnext := ofDigitChars_lt (m := 10 * n + (e.toNat - '0'.toNat))
        (n := 10 * n + (d.toNat - '0'.toNat)) (by omega) hlen'.symm hes' hds'
      refine iff_of_false ?_ (by omega)
      rintro (hlt | ⟨rfl, -⟩)
      · omega
      · exact absurd hgt (Nat.lt_irrefl _)

end Text

/-! ### Sorted lists -/

/-- What has a property stands together in a sorted list, if everything between two that have it
has it as well. -/
theorem exists_block {α : Type} {R : α → α → Prop} {p : α → Bool} {l : List α}
    (hsorted : l.Pairwise R)
    (hbetween : ∀ a ∈ l, ∀ b ∈ l, ∀ c ∈ l, R a b → R b c → p a = true → p c = true → p b = true) :
    ∃ before block after, l = before ++ block ++ after ∧
      (∀ a ∈ before ++ after, p a = false) ∧ ∀ a ∈ block, p a = true := by
  induction l with
  | nil => exact ⟨[], [], [], rfl, by simp, by simp⟩
  | cons a l ih =>
    obtain ⟨hfirst, hrest⟩ := List.pairwise_cons.mp hsorted
    obtain ⟨before, block, after, rfl, hout, hin⟩ := ih hrest fun b hb c hc d hd =>
      hbetween b (List.mem_cons_of_mem a hb) c (List.mem_cons_of_mem a hc) d
        (List.mem_cons_of_mem a hd)
    cases ha : p a with
    | false =>
      refine ⟨a :: before, block, after, rfl, fun x hx => ?_, hin⟩
      rcases List.mem_cons.mp hx with rfl | hx
      · exact ha
      · exact hout x hx
    | true =>
      cases before with
      | nil => exact ⟨[], a :: block, after, rfl, hout, List.forall_mem_cons.mpr ⟨ha, hin⟩⟩
      | cons b before =>
        cases block with
        | nil =>
          refine ⟨[], [a], b :: before ++ after, by simp, hout, ?_⟩
          simpa using ha
        | cons c block =>
          -- What stands before the block is between its first element and the new one.
          have hb : p b = true := by
            refine hbetween a ?_ b ?_ c ?_ (hfirst b ?_) ?_ ha (hin c List.mem_cons_self)
            all_goals try simp
            rw [List.append_assoc, List.cons_append, List.pairwise_cons] at hrest
            exact hrest.1 c (by simp)
          exact absurd (hout b (by simp)) (by simp [hb])

namespace Key

open Identity

variable {r s : String} {v w : UInt16} {a b c : Key}

/-! ### Texts -/

theorem toList_text (k : Key) : k.text.toList = keyHead.toList ++ ':' ::
    (k.objectRef.toList ++ ':' :: Text.paddedDigits versionWidth k.version.toNat) := by
  simp [text]

/-- What is read of the text of a key where its reference stands: as many bytes as the reference
has, from behind the first colon on. -/
def refPart (k : Key) : Option String :=
  Bytes.toText?
    (Layout.slice (Bytes.ofText k.text) (keyHead.utf8ByteSize + 1) k.objectRef.utf8ByteSize)

theorem refPart_eq (k : Key) : k.refPart = some k.objectRef := by
  have htext : Bytes.ofText k.text = Bytes.ofText (keyHead ++ ":") ++ (Bytes.ofText k.objectRef ++
      Bytes.ofText (":" ++ String.ofList (Text.paddedDigits versionWidth k.version.toNat))) := by
    simp [Bytes.ofText, text]
  have hstands : Layout.StandsAt (Bytes.ofText k.text) (keyHead.utf8ByteSize + 1)
      (Bytes.ofText k.objectRef) := ⟨_, _, htext, rfl⟩
  have hlength : (Bytes.ofText k.objectRef).length = k.objectRef.utf8ByteSize := by
    simp [Bytes.ofText]
  rw [refPart, ← hlength, hstands.slice, Bytes.toText?_ofText]

/-! ### Comparison -/

/-- The texts alone decide: where they are equal the keys are. -/
theorem compare_eq (a b : Key) : a.compare b = Ord.compare a.text b.text := by
  unfold compare
  cases htext : Ord.compare a.text b.text with
  | lt | gt => rfl
  | eq =>
    cases text_injective (Std.LawfulEqCmp.eq_of_compare htext)
    simp

theorem compare_eq_eq_iff : a.compare b = .eq ↔ a = b := by
  rw [compare_eq]
  constructor
  · exact fun h => text_injective (Std.LawfulEqCmp.eq_of_compare h)
  · rintro rfl
    exact Std.ReflCmp.compare_self

theorem compare_of_eq (h : a.objectRef = b.objectRef) :
    a.compare b = Ord.compare a.version.toNat b.version.toNat := by
  have hlt : a.text < b.text ↔ a.version.toNat < b.version.toNat := by
    have ha := Directory.isWritten_paddedDigits a.version
    have hb := Directory.isWritten_paddedDigits b.version
    show a.text.toList < b.text.toList ↔ _
    rw [toList_text, toList_text, h, Text.append_lt_append_iff, List.cons_lt_cons_self,
      Text.append_lt_append_iff, List.cons_lt_cons_self,
      Text.digits_lt_iff 0 (ha.length.trans hb.length.symm) ha.digits hb.digits, ha.value, hb.value]
  have heq : a.text = b.text ↔ a.version.toNat = b.version.toNat := by
    constructor
    · exact fun htext => by rw [text_injective htext]
    · exact fun hv => by rw [eq_of_parts h (UInt16.toNat_inj.mp hv)]
  rw [compare_eq]
  show compareOfLessAndEq _ _ = compareOfLessAndEq _ _
  simp only [compareOfLessAndEq, hlt, heq]

/-- Of keys with different references the references decide, with the colon that ends them. -/
theorem compare_of_ne (ha : IsRef a.objectRef) (hb : IsRef b.objectRef)
    (h : a.objectRef ≠ b.objectRef) :
    a.compare b = Ord.compare (a.objectRef ++ ":") (b.objectRef ++ ":") := by
  have hcolon {r : String} (hr : IsRef r) : ':' ∉ r.toList :=
    fun hmem => (by decide : ¬ InAlphabet ':') (hr.alphabet ':' hmem)
  have hlist : a.objectRef.toList ≠ b.objectRef.toList := fun heq => h (String.toList_injective heq)
  have hlt : a.text < b.text ↔ a.objectRef ++ ":" < b.objectRef ++ ":" := by
    show a.text.toList < b.text.toList ↔ (_ : String).toList < (_ : String).toList
    rw [toList_text, toList_text, Text.append_lt_append_iff, List.cons_lt_cons_self,
      Text.append_mark_lt_iff (hcolon ha) (hcolon hb) hlist, String.toList_append,
      String.toList_append]
    rfl
  have heq : a.text = b.text ↔ a.objectRef ++ ":" = b.objectRef ++ ":" := by
    refine iff_of_false (fun htext => h (by rw [text_injective htext])) fun href => hlist ?_
    have href := congrArg String.toList href
    rw [String.toList_append, String.toList_append] at href
    exact List.append_cancel_right href
  rw [compare_eq]
  show compareOfLessAndEq _ _ = compareOfLessAndEq _ _
  simp only [compareOfLessAndEq, hlt, heq]

/-! ### Sorting -/

theorem isLE_trans (hab : (a.compare b).isLE = true) (hbc : (b.compare c).isLE = true) :
    (a.compare c).isLE = true := by
  rw [compare_eq] at *
  exact Std.TransCmp.isLE_trans hab hbc

theorem isLE_total (a b : Key) : (a.compare b).isLE = true ∨ (b.compare a).isLE = true := by
  rw [compare_eq, compare_eq, Std.OrientedOrd.eq_swap (a := b.text)]
  cases Ord.compare a.text b.text <;> simp

theorem eq_of_isLE (hab : (a.compare b).isLE = true) (hba : (b.compare a).isLE = true) : a = b := by
  rw [compare_eq] at *
  exact text_injective (Std.LawfulEqCmp.eq_of_compare (Std.OrientedCmp.isLE_antisymm hab hba))

theorem sort_perm (keys : List Key) : (sort keys).Perm keys := List.mergeSort_perm _ _

theorem pairwise_sort (keys : List Key) :
    (sort keys).Pairwise fun a b => (a.compare b).isLE = true := by
  have htrans (a b c : Key) (hab : (a.compare b).isLE = true) (hbc : (b.compare c).isLE = true) :
      (a.compare c).isLE = true := isLE_trans hab hbc
  have htotal (a b : Key) : ((a.compare b).isLE || (b.compare a).isLE) = true :=
    Bool.or_eq_true _ _ ▸ isLE_total a b
  exact List.pairwise_mergeSort htrans htotal keys

/-- Between two keys of one reference there are none of another. -/
theorem objectRef_between (ha : IsRef a.objectRef) (hb : IsRef b.objectRef)
    (hab : (a.compare b).isLE = true) (hbc : (b.compare c).isLE = true)
    (h : a.objectRef = c.objectRef) : b.objectRef = c.objectRef := by
  refine Decidable.byContradiction fun hne => ?_
  -- The reference of the outer two keys cannot be on both sides of the one between them.
  have hcb : (c.compare b).isLE = true := by
    rw [compare_of_ne (h ▸ ha) hb (Ne.symm hne), ← h, ← compare_of_ne ha hb (h ▸ Ne.symm hne)]
    exact hab
  exact hne (congrArg objectRef (eq_of_isLE hbc hcb))

/-- The keys of one reference stand together among sorted keys, with their versions ascending. -/
theorem exists_block_sort {keys : List Key} (h : ∀ k ∈ keys, IsRef k.objectRef) (r : String) :
    ∃ before block after, sort keys = before ++ block ++ after ∧
      (∀ k ∈ before ++ after, k.objectRef ≠ r) ∧ (∀ k ∈ block, k.objectRef = r) ∧
      block.Pairwise fun a b => a.version.toNat ≤ b.version.toNat := by
  have href (k : Key) (hk : k ∈ sort keys) : IsRef k.objectRef :=
    h k ((sort_perm keys).mem_iff.mp hk)
  obtain ⟨before, block, after, hsplit, hout, hin⟩ :=
    exists_block (p := fun k => k.objectRef == r) (pairwise_sort keys)
      fun a ha b hb c hc hab hbc har hcr => by
        rw [beq_iff_eq] at har hcr ⊢
        exact (objectRef_between (href a ha) (href b hb) hab hbc (har.trans hcr.symm)).trans hcr
  have hsame (k : Key) (hk : k ∈ block) : k.objectRef = r := by simpa using hin k hk
  refine ⟨before, block, after, hsplit, fun k hk => by simpa using hout k hk, hsame, ?_⟩
  have hblock : block.Pairwise fun a b => (a.compare b).isLE = true := by
    have hsorted := pairwise_sort keys
    rw [hsplit, List.pairwise_append, List.pairwise_append] at hsorted
    exact hsorted.1.2.1
  refine hblock.imp_of_mem fun {a b} ha hb hle => ?_
  rw [compare_of_eq ((hsame a ha).trans (hsame b hb).symm)] at hle
  exact Nat.isLE_compare.mp hle

/-- The texts of the keys of two valid identities are equal exactly if the identities are, and so is
the order of the keys; a key gives back both parts of its identity, the reference from where it
stands in the text. Keys of one reference are ordered by the numbers of their versions, and keys of
different references by these alone, as the colon that ends them sorts them. Sorting keeps the keys
and puts those of a reference together, in the ascending order of their versions. -/
theorem text_compare_sort :
    (∀ r s v w a b, validate r v = .ok a → validate s w = .ok b →
      (a.text = b.text ↔ (r, v) = (s, w)) ∧
      (a.objectRef = r ∧ a.refPart = some r ∧ a.version = v) ∧
      (a.compare b = .eq ↔ (r, v) = (s, w)) ∧
      (r = s → a.compare b = Ord.compare v.toNat w.toNat) ∧
      (r ≠ s → a.compare b = Ord.compare (r ++ ":") (s ++ ":"))) ∧
    ∀ keys : List Key, (∀ k ∈ keys, ∃ r v, validate r v = .ok k) →
      (sort keys).Perm keys ∧ ∀ r, ∃ before block after, sort keys = before ++ block ++ after ∧
        (∀ k ∈ before ++ after, k.objectRef ≠ r) ∧ (∀ k ∈ block, k.objectRef = r) ∧
        block.Pairwise fun a b => a.version.toNat ≤ b.version.toNat := by
  constructor
  · intro r s v w a b ha hb
    obtain ⟨hr, -, rfl⟩ := (validate_eq_ok_iff a).mp ha
    obtain ⟨hs, -, rfl⟩ := (validate_eq_ok_iff b).mp hb
    have hparts : Key.mk r v = ⟨s, w⟩ ↔ (r, v) = (s, w) := by simp
    refine ⟨?_, ⟨rfl, refPart_eq _, rfl⟩, compare_eq_eq_iff.trans hparts, fun h => ?_, fun h => ?_⟩
    · rw [← hparts]
      exact ⟨text_injective, fun h => by rw [h]⟩
    · exact compare_of_eq (a := ⟨r, v⟩) (b := ⟨s, w⟩) h
    · exact compare_of_ne (a := ⟨r, v⟩) (b := ⟨s, w⟩) hr hs h
  · intro keys hvalid
    refine ⟨sort_perm keys, exists_block_sort fun k hk => ?_⟩
    obtain ⟨r, v, h⟩ := hvalid k hk
    obtain ⟨hr, -, rfl⟩ := (validate_eq_ok_iff k).mp h
    exact hr

/-- One reference is the start of two others, and the colon sorts between what follows it there. -/
theorem text_compare_sort_mixed : ∃ a b c keys, a = Key.mk "a" 9 ∧ b = Key.mk "a" 10 ∧
    c = Key.mk "a-" 2 ∧ keys = [⟨"ab", 1⟩, b, c, a] ∧
    (∀ k ∈ keys, validate k.objectRef k.version = .ok k) ∧
    a.text ≠ b.text ∧ a.refPart = some "a" ∧ a.compare b = .lt ∧ b.compare c = .gt ∧
    ∃ before block after, sort keys = before ++ block ++ after ∧
      (∀ k ∈ before ++ after, k.objectRef ≠ "a") ∧ (∀ k ∈ block, k.objectRef = "a") ∧
      block.Pairwise fun a b => a.version.toNat ≤ b.version.toNat := by
  obtain ⟨hpair, hsort⟩ := text_compare_sort
  have ha : validate "a" 9 = .ok ⟨"a", 9⟩ := rfl
  have hb : validate "a" 10 = .ok ⟨"a", 10⟩ := rfl
  have hc : validate "a-" 2 = .ok ⟨"a-", 2⟩ := rfl
  have hd : validate "ab" 1 = .ok ⟨"ab", 1⟩ := rfl
  have hvalid : ∀ k ∈ [⟨"ab", 1⟩, ⟨"a", 10⟩, ⟨"a-", 2⟩, (⟨"a", 9⟩ : Key)],
      validate k.objectRef k.version = .ok k := by
    simp [ha, hb, hc, hd]
  obtain ⟨htext, ⟨-, hpart, -⟩, -, heq, -⟩ := hpair _ _ _ _ _ _ ha hb
  obtain ⟨-, -, -, -, hne⟩ := hpair _ _ _ _ _ _ hb hc
  refine ⟨_, _, _, _, rfl, rfl, rfl, rfl, hvalid, ?_, hpart, heq rfl, ?_, ?_⟩
  · exact fun h => absurd (htext.mp h) (by decide)
  · rw [hne (by decide)]
    decide
  · exact (hsort _ fun k hk => ⟨_, _, hvalid k hk⟩).2 "a"

end Key

end ObjectTiers
