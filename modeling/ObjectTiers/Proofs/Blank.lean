/-
Blanks around a text, and the words of settings.

A text is trimmed to what stands between the blanks at its two ends (`Text.trimsTo_iff`). A word of
plain letters is met by its spellings in large and small ASCII letters and by no others
(`Text.settingWord_eq_iff`), also when the lower-case forms of all characters are taken
(`Text.Lowers.eq_iff`).
-/
import Mathlib.Data.List.Forall2
import Mathlib.Data.List.TakeWhile
import ObjectTiers.Text.Blank

namespace ObjectTiers

/-! ### Trimming -/

/-- Nothing but blanks. -/
abbrev Blanks := { cs : List Char // ∀ c ∈ cs, Text.isBlank c = true }

namespace Text

variable {cs t lowered : List Char} {c : Char}

theorem trimChars_around (u w : Blanks) (cs : List Char) :
    trimChars (u.1 ++ cs ++ w.1) = trimChars cs := by
  have hfront : (u.1 ++ cs ++ w.1).dropWhile isBlank = (cs ++ w.1).dropWhile isBlank := by
    rw [List.append_assoc, List.dropWhile_append_of_pos u.2]
  have hback (xs : List Char) : (xs ++ w.1).reverse.dropWhile isBlank =
      xs.reverse.dropWhile isBlank := by
    have hw : ∀ c ∈ w.1.reverse, isBlank c = true := fun c hc => w.2 c (List.mem_reverse.mp hc)
    rw [List.reverse_append, List.dropWhile_append_of_pos hw]
  rw [trimChars, trimChars, hfront, List.dropWhile_append]
  split
  · next hempty =>
    -- Blanks alone are left behind nothing.
    have hw : w.1.dropWhile isBlank = [] := List.dropWhile_eq_nil_iff.mpr w.2
    rw [List.isEmpty_iff.mp hempty, hw]
  · rw [hback]

theorem trimChars_of_ends (hhead : ∀ c ∈ cs.head?, isBlank c = false)
    (hlast : ∀ c ∈ cs.getLast?, isBlank c = false) : trimChars cs = cs := by
  have hnone (xs : List Char) (hxs : ∀ c ∈ xs.head?, isBlank c = false) :
      xs.dropWhile isBlank = xs := by
    cases xs with
    | nil => rfl
    | cons x xs => rw [List.dropWhile_cons, if_neg (by simp [hxs x rfl])]
  rw [trimChars, hnone cs hhead, hnone cs.reverse (by rwa [List.head?_reverse]),
    List.reverse_reverse]

theorem trimChars_of_not_blank (h : ∀ c ∈ cs, isBlank c = false) : trimChars cs = cs :=
  trimChars_of_ends (fun c hc => h c (List.mem_of_mem_head? hc))
    fun c hc => h c (List.mem_of_mem_getLast? hc)

/-- A mark that is no blank parts a text into what is trimmed at its front and what is trimmed at
its end, which makes no difference to either where it is trimmed at both. -/
theorem trimChars_mark (hc : isBlank c = false) (before after : List Char) :
    ∃ front back, trimChars (before ++ c :: after) = front ++ c :: back ∧
      (∀ x ∈ front, x ∈ before) ∧ trimChars front = trimChars before ∧
      trimChars back = trimChars after := by
  have hdrop (xs ys : List Char) :
      (xs ++ c :: ys).dropWhile isBlank = xs.dropWhile isBlank ++ c :: ys := by
    have hmark : (c :: ys).dropWhile isBlank = c :: ys := by
      rw [List.dropWhile_cons, if_neg (by simp [hc])]
    rw [List.dropWhile_append, hmark]
    split
    · next hempty => rw [List.isEmpty_iff.mp hempty, List.nil_append]
    · rfl
  have hblank (xs : List Char) : ∀ x ∈ xs.takeWhile isBlank, isBlank x = true :=
    fun _ => List.mem_takeWhile_imp
  refine ⟨before.dropWhile isBlank, (after.reverse.dropWhile isBlank).reverse, ?_,
    fun x hx => (List.dropWhile_suffix _).subset hx, ?_, ?_⟩
  · rw [trimChars, hdrop, List.reverse_append, List.reverse_cons, List.append_assoc,
      List.singleton_append, hdrop]
    simp
  · have hsplit := trimChars_around ⟨_, hblank before⟩ ⟨[], nofun⟩ (before.dropWhile isBlank)
    rw [List.takeWhile_append_dropWhile, List.append_nil] at hsplit
    exact hsplit.symm
  · have hsplit := trimChars_around ⟨[], nofun⟩
      ⟨(after.reverse.takeWhile isBlank).reverse, fun x hx => hblank _ x (List.mem_reverse.mp hx)⟩
      (after.reverse.dropWhile isBlank).reverse
    rw [List.nil_append, ← List.reverse_append, List.takeWhile_append_dropWhile,
      List.reverse_reverse] at hsplit
    exact hsplit.symm

/-- What stands between the blanks at the two ends of a text. -/
structure TrimsTo (cs t : List Char) : Prop where
  around : ∃ u w : Blanks, cs = u.1 ++ t ++ w.1
  head : ∀ c ∈ t.head?, isBlank c = false
  last : ∀ c ∈ t.getLast?, isBlank c = false

theorem head?_dropWhile (cs : List Char) :
    ∀ c ∈ (cs.dropWhile isBlank).head?, isBlank c = false := by
  intro c hc
  have h := List.head?_dropWhile_not isBlank cs
  rwa [Option.mem_def.mp hc] at h

theorem trimsTo_trimChars (cs : List Char) : TrimsTo cs (trimChars cs) := by
  have hblank (xs : List Char) : ∀ x ∈ xs.takeWhile isBlank, isBlank x = true :=
    fun _ => List.mem_takeWhile_imp
  -- What is dropped at the front, what is kept, and what is dropped at the end.
  obtain ⟨rest, hrest⟩ : ∃ rest, rest = cs.dropWhile isBlank := ⟨_, rfl⟩
  have hend : trimChars cs ++ (rest.reverse.takeWhile isBlank).reverse = rest := by
    rw [trimChars, ← hrest, ← List.reverse_append, List.takeWhile_append_dropWhile,
      List.reverse_reverse]
  refine ⟨⟨⟨_, hblank cs⟩, ⟨(rest.reverse.takeWhile isBlank).reverse, ?_⟩, ?_⟩, ?_, ?_⟩
  · exact fun x hx => hblank _ x (List.mem_reverse.mp hx)
  · rw [List.append_assoc, hend, hrest, List.takeWhile_append_dropWhile]
  · intro c hc
    refine head?_dropWhile cs c ?_
    rw [← hrest, ← hend, List.head?_append, Option.mem_def.mp hc]
    rfl
  · rw [trimChars, List.getLast?_reverse]
    exact head?_dropWhile _

theorem trimsTo_iff : TrimsTo cs t ↔ trimChars cs = t := by
  constructor
  · intro h
    obtain ⟨u, w, rfl⟩ := h.around
    rw [trimChars_around, trimChars_of_ends h.head h.last]
  · intro h
    exact h ▸ trimsTo_trimChars cs

/-! ### Words -/

/-- A spelling of a word in small letters, each letter of ASCII small or large. -/
def IsCaseOf (t : List Char) (w : String) : Prop := t.map Char.toLower = w.toList

/-- The lower-case forms of a character in Unicode. A form may depend on what stands around the
character; beyond ASCII the one of the Kelvin sign is an ASCII letter, and any other has a character
beyond ASCII in it. -/
inductive IsLowerForm : Char → List Char → Prop
  | ascii {c : Char} (hc : c.toNat < 128) : IsLowerForm c [c.toLower]
  | kelvin : IsLowerForm '\u212a' ['k']
  | beyond {c d : Char} {form : List Char} (hc : 128 ≤ c.toNat) (hne : c ≠ '\u212a')
    (hd : d ∈ form) (hform : 128 ≤ d.toNat) : IsLowerForm c form

/-- A text in lower case, character by character. -/
def Lowers (cs lowered : List Char) : Prop :=
  ∃ forms, List.Forall₂ IsLowerForm cs forms ∧ lowered = forms.flatten

/-- A word that no character beyond ASCII has a part in when it is spelled. -/
def IsPlainWord (w : List Char) : Prop := ∀ c ∈ w, c.toNat < 128 ∧ c ≠ 'k'

instance (w : List Char) : Decidable (IsPlainWord w) := List.decidableBAll _ w

theorem toLower_of_beyond (hc : 128 ≤ c.toNat) : c.toLower = c := by
  refine dif_neg fun h => ?_
  have hle : c.toNat ≤ 90 := h.2
  omega

theorem isLowerForm_lowerChar (c : Char) : IsLowerForm c (lowerChar c) := by
  unfold lowerChar
  by_cases hkelvin : c = '\u212a'
  · rw [if_pos hkelvin, hkelvin]
    exact .kelvin
  · rw [if_neg hkelvin]
    by_cases hdotted : c = '\u0130'
    · rw [if_pos hdotted, hdotted]
      exact .beyond (by decide) (by decide) (d := '\u0307') (by simp) (by decide)
    · rw [if_neg hdotted]
      by_cases hc : c.toNat < 128
      · exact .ascii hc
      · have hc : 128 ≤ c.toNat := Nat.le_of_not_lt hc
        rw [toLower_of_beyond hc]
        exact .beyond hc hkelvin (List.mem_singleton_self c) hc

/-- A plain word comes out of the spellings in ASCII letters, and of no other text. -/
theorem Lowers.eq_iff (h : Lowers cs lowered) {w : List Char} (hw : IsPlainWord w) :
    lowered = w ↔ cs.map Char.toLower = w := by
  obtain ⟨forms, hforms, rfl⟩ := h
  induction hforms generalizing w with
  | nil => rfl
  | @cons c form cs forms hform _ ih =>
    rw [List.flatten_cons, List.map_cons]
    cases hform with
    | ascii hc =>
      cases w with
      | nil => simp
      | cons d w =>
        rw [List.singleton_append, List.cons.injEq, List.cons.injEq,
          ih fun x hx => hw x (List.mem_cons_of_mem d hx)]
    | kelvin =>
      refine iff_of_false ?_ ?_
      · rintro rfl
        exact (hw 'k' (by simp)).2 rfl
      · rintro rfl
        exact absurd (hw _ (List.mem_cons_self ..)).1 (by decide)
    | @beyond _ d _ hc hne hd hbeyond =>
      refine iff_of_false ?_ ?_
      · rintro rfl
        have := (hw d (List.mem_append_left _ hd)).1
        omega
      · rintro rfl
        have := (hw _ (List.mem_cons_self ..)).1
        rw [toLower_of_beyond hc] at this
        omega

theorem lowers_settingWord (s : String) : Lowers (trimChars s.toList) (settingWord s).toList := by
  refine ⟨(trimChars s.toList).map lowerChar, ?_, ?_⟩
  · exact List.forall₂_map_right_iff.mpr (List.forall₂_same.mpr fun c _ => isLowerForm_lowerChar c)
  · simp [settingWord, List.flatMap]

theorem settingWord_eq_iff {s w : String} (hw : IsPlainWord w.toList) :
    settingWord s = w ↔ IsCaseOf (trimChars s.toList) w := by
  rw [IsCaseOf, ← (lowers_settingWord s).eq_iff hw, String.toList_inj]

end Text

end ObjectTiers
