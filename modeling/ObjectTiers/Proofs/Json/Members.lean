/-
The members of objects: what stands under a key after others are set (`lookup_insertAll`), and in
which order (`ascends_insertMember`). Members that are in order already stay as they are when they
are set one after another (`insertAll_of_ascends`).
-/
import ObjectTiers.Proofs.Json.Value

namespace ObjectTiers.Json

/-! ### Members under their keys -/

variable {α : Type}

theorem lookup_cons_ite (k : String) (v : α) (ms : List (String × α)) (key : String) :
    ((k, v) :: ms).lookup key = if key = k then some v else ms.lookup key := by
  rw [List.lookup_cons]
  by_cases h : key = k
  · simp [h]
  · have : (key == k) = false := by simpa using h
    simp [h, this]

theorem lookup_insertMember (k : String) (v : α) (ms : List (String × α)) (key : String) :
    (insertMember k v ms).lookup key = if key = k then some v else ms.lookup key := by
  induction ms with
  | nil => rw [insertMember, lookup_cons_ite]
  | cons m ms ih =>
    obtain ⟨k', v'⟩ := m
    rw [insertMember]
    split
    · rw [lookup_cons_ite]
    · split
      · next h =>
        subst h
        rw [lookup_cons_ite, lookup_cons_ite]
        split <;> rfl
      · next h =>
        rw [lookup_cons_ite, lookup_cons_ite, ih]
        by_cases hk : key = k
        · rw [if_pos hk, if_pos hk, if_neg (hk ▸ h)]
        · rw [if_neg hk, if_neg hk]

theorem mem_insertMember {k : String} {v : α} {ms : List (String × α)} {m : String × α}
    (h : m ∈ insertMember k v ms) : m = (k, v) ∨ m ∈ ms := by
  induction ms with
  | nil => exact .inl (by simpa [insertMember] using h)
  | cons p ms ih =>
    obtain ⟨k', v'⟩ := p
    rw [insertMember] at h
    split at h
    · simpa using h
    · split at h
      · rcases List.mem_cons.mp h with rfl | h
        · exact .inl rfl
        · exact .inr (by simp [h])
      · rcases List.mem_cons.mp h with rfl | h
        · exact .inr (by simp)
        · rcases ih h with h | h
          · exact .inl h
          · exact .inr (by simp [h])

theorem mem_insertAll {acc ms : List (String × α)} {m : String × α} (h : m ∈ insertAll acc ms) :
    m ∈ acc ∨ m ∈ ms := by
  induction ms generalizing acc with
  | nil => exact .inl h
  | cons p ms ih =>
    have hstep : m ∈ insertAll (insertMember p.1 p.2 acc) ms := h
    rcases ih hstep with h | h
    · rcases mem_insertMember h with rfl | h
      · exact .inr (by simp)
      · exact .inl h
    · exact .inr (by simp [h])

theorem lookup_insertAll {acc ms : List (String × α)} (h : (ms.map (·.1)).Nodup) (key : String) :
    (insertAll acc ms).lookup key = (ms.lookup key).or (acc.lookup key) := by
  induction ms generalizing acc with
  | nil => simp [insertAll]
  | cons m ms ih =>
    obtain ⟨k, v⟩ := m
    rw [List.map_cons, List.nodup_cons] at h
    have hstep : insertAll acc ((k, v) :: ms) = insertAll (insertMember k v acc) ms := rfl
    rw [hstep, ih h.2, lookup_insertMember, lookup_cons_ite]
    by_cases hk : key = k
    · have hnone : ms.lookup k = none := by
        rw [List.lookup_eq_none_iff]
        intro p hp
        rw [bne_iff_ne]
        rintro rfl
        exact h.1 (List.mem_map.mpr ⟨p, hp, rfl⟩)
      rw [if_pos hk, if_pos hk, hk, hnone]
      rfl
    · rw [if_neg hk, if_neg hk]

/-! ### Members in order -/

/-- Whether the keys of members ascend, so that each stands once. -/
def Ascends (ms : List (String × α)) : Prop := (ms.map (·.1)).Pairwise (· < ·)

instance (ms : List (String × α)) : Decidable (Ascends ms) :=
  inferInstanceAs (Decidable (List.Pairwise _ _))

variable {acc ms : List (String × α)} {k : String} {v : α}

theorem ascends_cons {m : String × α} :
    Ascends (m :: ms) ↔ (∀ p ∈ ms, m.1 < p.1) ∧ Ascends ms := by
  simp [Ascends]

theorem insertMember_last (h : ∀ p ∈ acc, p.1 < k) : insertMember k v acc = acc ++ [(k, v)] := by
  induction acc with
  | nil => rfl
  | cons p acc ih =>
    obtain ⟨k', v'⟩ := p
    have hlt : k' < k := h (k', v') (by simp)
    have hne : k ≠ k' := by
      rintro rfl
      exact String.lt_irrefl k hlt
    rw [insertMember, if_neg (String.lt_asymm hlt), if_neg hne, ih fun p hp => h p (by simp [hp])]
    rfl

theorem insertAll_of_ascends (h : Ascends (acc ++ ms)) : insertAll acc ms = acc ++ ms := by
  induction ms generalizing acc with
  | nil => simp [insertAll]
  | cons m ms ih =>
    have hlast : ∀ p ∈ acc, p.1 < m.1 := by
      rw [Ascends, List.map_append, List.pairwise_append] at h
      exact fun p hp => h.2.2 _ (List.mem_map_of_mem hp) _ (by simp)
    have hstep : insertAll acc (m :: ms) = insertAll (insertMember m.1 m.2 acc) ms := rfl
    rw [hstep, insertMember_last hlast, ih (by simpa using h), List.append_assoc]
    rfl

theorem ascends_insertMember (h : Ascends acc) (k : String) (v : α) :
    Ascends (insertMember k v acc) := by
  induction acc with
  | nil => simp [insertMember, Ascends]
  | cons p acc ih =>
    obtain ⟨k', v'⟩ := p
    obtain ⟨hfirst, hrest⟩ := ascends_cons.mp h
    rw [insertMember]
    split
    · next hlt =>
      refine ascends_cons.mpr ⟨fun p hp => ?_, h⟩
      rcases List.mem_cons.mp hp with rfl | hp
      · exact hlt
      · exact String.lt_trans hlt (hfirst p hp)
    · next hlt =>
      split
      · next heq => exact ascends_cons.mpr ⟨heq ▸ hfirst, hrest⟩
      · next hne =>
        refine ascends_cons.mpr ⟨fun p hp => ?_, ih hrest⟩
        rcases mem_insertMember hp with rfl | hp
        · exact Std.lt_of_le_of_ne (String.not_lt.mp hlt) (Ne.symm hne)
        · exact hfirst p hp

end ObjectTiers.Json
