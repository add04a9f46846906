/-
Keys. The text of a key determines the identity it stands for (`Key.text_injective`): the version
takes exactly the last five characters, so no reference can be mistaken for another.
-/
import ObjectTiers.Identity
import ObjectTiers.Proofs.Text

namespace ObjectTiers

theorem Key.eq_of_parts {a b : Key} (hr : a.objectRef = b.objectRef) (hv : a.version = b.version) :
    a = b := by
  cases a
  cases b
  cases hr
  cases hv
  rfl

theorem Identity.length_versionDigits (v : UInt16) :
    (Text.paddedDigits versionWidth v.toNat).length = 5 :=
  Text.length_paddedDigits <| (Nat.length_toDigits_le_iff (by decide) (by decide)).mpr
    (Nat.lt_trans v.toNat_lt (by decide))

theorem Key.text_injective {a b : Key} (h : a.text = b.text) : a = b := by
  have hlist := congrArg String.toList h
  simp only [Key.text, String.toList_append, String.toList_ofList] at hlist
  obtain ⟨hhead, hversion⟩ := List.append_inj' hlist
    (by rw [Identity.length_versionDigits, Identity.length_versionDigits])
  have hrest := List.append_cancel_right hhead
  rw [List.append_assoc, List.append_assoc] at hrest
  have href := String.toList_injective
    (List.append_cancel_left (List.append_cancel_left hrest))
  have hv := UInt16.toNat_inj.mp (Text.paddedDigits_injective hversion)
  exact Key.eq_of_parts href hv

theorem Identity.eq_of_validate {r : String} {v : UInt16} {key : Key}
    (h : Identity.validate r v = .ok key) : key = ⟨r, v⟩ := by
  unfold Identity.validate at h
  split at h
  · cases h
  · split at h
    · cases h
    · cases h
      rfl

end ObjectTiers
