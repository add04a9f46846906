/-
Rings and the texts that list them.

A ring holds for each reference the last secret it was given, once (`KeyRing.HoldsLast`). The text
of a ring is cut at its commas, and at the first equals sign of each piece: what is behind that sign
may hold more of them, as the pads of a key do. Which pieces list a secret (`KeyRing.Lists`) and
what is wrong with the others (`KeyRing.Offends`) is written down apart from the reader, which
accepts the former and stops at the first of the latter (`KeyRing.parse_listing`).
-/
import Mathlib.Data.Finset.Card
import Mathlib.Data.List.Forall2
import ObjectTiers.Dictionary
import ObjectTiers.KeyRing
import ObjectTiers.Proofs.Base64
import ObjectTiers.Proofs.Blank
import ObjectTiers.Proofs.Json.Members

namespace ObjectTiers

/-! ### Reading a list until something fails -/

section

variable {α β ε : Type} {f : α → Except ε β} {xs : List α} {ys : List β} {e : ε}

theorem mapM_eq_ok_iff : xs.mapM f = .ok ys ↔ List.Forall₂ (fun x y => f x = .ok y) xs ys := by
  induction xs generalizing ys with
  | nil => simp [pure, Except.pure, eq_comm]
  | cons x xs ih =>
    rw [List.mapM_cons, List.forall₂_cons_left_iff]
    cases hx : f x with
    | error e => simp [bind, Except.bind]
    | ok y =>
      cases hxs : xs.mapM f with
      | error e => simp [bind, Except.bind, ← ih, hxs]
      | ok ys => simp [bind, Except.bind, pure, Except.pure, ← ih, hxs, eq_comm]

/-- What goes wrong is what is wrong with the first element that is not read. -/
theorem mapM_eq_error_iff : xs.mapM f = .error e ↔ ∃ before x after,
    xs = before ++ x :: after ∧ (∀ y ∈ before, ∃ b, f y = .ok b) ∧ f x = .error e := by
  constructor
  · intro h
    induction xs with
    | nil => cases h
    | cons x xs ih =>
      rw [List.mapM_cons] at h
      cases hx : f x with
      | error e' =>
        rw [hx] at h
        cases h
        exact ⟨[], x, xs, rfl, nofun, hx⟩
      | ok y =>
        rw [hx] at h
        cases hxs : xs.mapM f with
        | ok ys =>
          rw [hxs] at h
          cases h
        | error e' =>
          rw [hxs] at h
          cases h
          obtain ⟨before, x', after, rfl, hbefore, hx'⟩ := ih hxs
          exact ⟨x :: before, x', after, rfl, List.forall_mem_cons.mpr ⟨⟨y, hx⟩, hbefore⟩, hx'⟩
  · rintro ⟨before, x, after, rfl, hbefore, hx⟩
    induction before with
    | nil => rw [List.nil_append, List.mapM_cons, hx]; rfl
    | cons y before ih =>
      obtain ⟨⟨b, hy⟩, hbefore⟩ := List.forall_mem_cons.mp hbefore
      rw [List.cons_append, List.mapM_cons, hy, ih hbefore]
      rfl

end

namespace KeyRing

open Text

variable {ring : KeyRing} {s : Secret} {id : String} {piece before after : List Char}
  {e : SecretError}

/-! ### Pieces -/

/-- The pieces of a text between its commas, without the blanks around them, those apart that are
blank. -/
def entries (text : String) : List (List Char) :=
  ((text.toList.splitOn ',').map trimChars).filter fun p => p ≠ []

/-- A piece that lists a secret: its reference before the first equals sign, and behind that the
encoding of its key, with any blanks around the two. -/
inductive Lists : List Char → Secret → Prop
  | intro {id encoded : List Char} {s : Secret} (hmark : '=' ∉ id) (hne : trimChars id ≠ [])
    (hid : s.reference = String.ofList (trimChars id))
    (hkey : String.ofList (trimChars encoded) = Base64.toText s.key) :
    Lists (id ++ '=' :: encoded) s

/-- What is wrong with a piece that lists none: it has no equals sign, or only blanks before the
first, or no encoding behind it, or that of too many or too few bytes. -/
inductive Offends : List Char → SecretError → Prop
  | unmarked {piece : List Char} (hmark : '=' ∉ piece) :
    Offends piece (.malformed "<redacted>")
  | unnamed {id encoded : List Char} (hmark : '=' ∉ id) (hid : trimChars id = []) :
    Offends (id ++ '=' :: encoded) (.malformed (String.ofList id ++ "=<redacted>"))
  | unreadable {id encoded : List Char} {fault : Base64.Fault} (hmark : '=' ∉ id)
    (hne : trimChars id ≠ [])
    (hkey : ∀ key, String.ofList (trimChars encoded) ≠ Base64.toText key)
    (hfault : Base64.decode (Bytes.ofText (String.ofList (trimChars encoded))) = .error fault) :
    Offends (id ++ '=' :: encoded)
      (.invalidKeyMaterial (String.ofList (trimChars id)) (.encoding fault))
  | missized {id encoded : List Char} {key : Bytes} (hmark : '=' ∉ id) (hne : trimChars id ≠ [])
    (hkey : String.ofList (trimChars encoded) = Base64.toText key) (hsize : key.length ≠ 32) :
    Offends (id ++ '=' :: encoded)
      (.invalidKeyMaterial (String.ofList (trimChars id)) (.length key.length))

theorem split_mark {id : List Char} (h : '=' ∉ id) (encoded : List Char) :
    (id ++ '=' :: encoded).contains '=' = true ∧
    (id ++ '=' :: encoded).takeWhile (· != '=') = id ∧
    ((id ++ '=' :: encoded).dropWhile (· != '=')).drop 1 = encoded := by
  have hid : ∀ c ∈ id, (c != '=') = true := by
    intro c hc
    rw [bne_iff_ne]
    rintro rfl
    exact h hc
  refine ⟨by simp, ?_, ?_⟩
  · rw [List.takeWhile_append_of_pos hid]
    simp
  · rw [List.dropWhile_append_of_pos hid]
    simp

theorem readPiece_mark {id : List Char} (h : '=' ∉ id) (encoded : List Char) :
    readPiece (id ++ '=' :: encoded) =
      if (trimChars id).isEmpty then .error (.malformed (String.ofList id ++ "=<redacted>"))
      else ((Base64.decode (Bytes.ofText (String.ofList (trimChars encoded)))).mapError
        fun f => .invalidKeyMaterial (String.ofList (trimChars id)) (.encoding f)).bind
          (Secret.ofBytes (String.ofList (trimChars id))) := by
  obtain ⟨hmem, htake, hdrop⟩ := split_mark h encoded
  have hredact : redact (id ++ '=' :: encoded) = String.ofList id ++ "=<redacted>" := by
    rw [redact, if_pos hmem, htake]
  rw [readPiece, if_neg (by rw [hmem]; decide), hredact, htake, hdrop]
  dsimp only
  cases Base64.decode (Bytes.ofText (String.ofList (trimChars encoded))) <;> rfl

theorem Lists.readPiece (h : Lists piece s) : readPiece piece = .ok s := by
  cases h with
  | @intro id encoded _ hmark hne hid hkey =>
    have hdecode : Base64.decode (Bytes.ofText (String.ofList (trimChars encoded))) = .ok s.key :=
      Base64.decode_ofText_eq_ok_iff.mpr hkey
    rw [readPiece_mark hmark, if_neg (by simpa using hne), hdecode, ← hid]
    exact dif_pos s.key_length

theorem Offends.readPiece (h : Offends piece e) : readPiece piece = .error e := by
  cases h with
  | unmarked hmark =>
    have hcontains : piece.contains '=' = false := by simpa using hmark
    simp only [KeyRing.readPiece, redact, hcontains, Bool.not_false, if_true, Bool.false_eq_true,
      if_false]
  | unnamed hmark hid => rw [readPiece_mark hmark, if_pos (by simp [hid])]
  | unreadable hmark hne hkey hfault =>
    rw [readPiece_mark hmark, if_neg (by simpa using hne), hfault]
    rfl
  | @missized id encoded key hmark hne hkey hsize =>
    have hdecode : Base64.decode (Bytes.ofText (String.ofList (trimChars encoded))) = .ok key :=
      Base64.decode_ofText_eq_ok_iff.mpr hkey
    rw [readPiece_mark hmark, if_neg (by simpa using hne), hdecode]
    exact dif_neg hsize

/-- Every piece lists a secret or has something wrong with it. -/
theorem lists_or_offends (piece : List Char) : (∃ s, Lists piece s) ∨ ∃ e, Offends piece e := by
  by_cases hmem : '=' ∈ piece
  · obtain ⟨id, encoded, rfl, hmark⟩ := List.eq_append_cons_of_mem hmem
    by_cases hne : trimChars id = []
    · exact .inr ⟨_, .unnamed hmark hne⟩
    cases hdecode : Base64.decode (Bytes.ofText (String.ofList (trimChars encoded))) with
    | error fault =>
      refine .inr ⟨_, .unreadable hmark hne (fun key hkey => ?_) hdecode⟩
      rw [Base64.decode_ofText_eq_ok_iff.mpr hkey] at hdecode
      cases hdecode
    | ok key =>
      have hkey := Base64.decode_ofText_eq_ok_iff.mp hdecode
      by_cases hsize : key.length = 32
      · exact .inl ⟨⟨String.ofList (trimChars id), key, hsize⟩, .intro hmark hne rfl hkey⟩
      · exact .inr ⟨_, .missized hmark hne hkey hsize⟩
  · exact .inr ⟨_, .unmarked hmem⟩

theorem readPiece_eq_ok_iff : KeyRing.readPiece piece = .ok s ↔ Lists piece s := by
  refine ⟨fun h => ?_, Lists.readPiece⟩
  rcases lists_or_offends piece with ⟨s', hs'⟩ | ⟨e, he⟩
  · cases h.symm.trans hs'.readPiece
    exact hs'
  · cases h.symm.trans he.readPiece

theorem readPiece_eq_error_iff : KeyRing.readPiece piece = .error e ↔ Offends piece e := by
  refine ⟨fun h => ?_, Offends.readPiece⟩
  rcases lists_or_offends piece with ⟨s, hs⟩ | ⟨e', he'⟩
  · cases h.symm.trans hs.readPiece
  · cases h.symm.trans he'.readPiece
    exact he'

/-! ### Rings -/

section

variable {secrets : List Secret}

theorem lookup_insertSecret (s : Secret) (id : String) (l : List (String × Secret)) :
    (insertSecret s l).lookup id = if id = s.reference then some s else l.lookup id := by
  induction l with
  | nil => simp only [insertSecret, Json.lookup_cons_ite]
  | cons p l ih =>
    obtain ⟨k, t⟩ := p
    simp only [insertSecret]
    split
    · rw [Json.lookup_cons_ite]
    · split
      · next heq =>
        subst heq
        simp only [Json.lookup_cons_ite]
        split <;> rfl
      · next hne =>
        simp only [Json.lookup_cons_ite, ih]
        split
        · next hid => rw [if_neg fun h => hne (h.symm.trans hid)]
        · rfl

theorem mem_insertSecret {s : Secret} {p : String × Secret} {l : List (String × Secret)}
    (h : p ∈ insertSecret s l) : p.1 = s.reference ∨ p ∈ l := by
  induction l with
  | nil => exact .inl (congrArg Prod.fst (List.mem_singleton.mp h))
  | cons q l ih =>
    obtain ⟨k, t⟩ := q
    simp only [insertSecret] at h
    split at h
    · rcases List.mem_cons.mp h with rfl | h
      · exact .inl rfl
      · exact .inr h
    split at h
    · next heq =>
      rcases List.mem_cons.mp h with rfl | h
      · exact .inl heq.symm
      · exact .inr (List.mem_cons_of_mem _ h)
    · rcases List.mem_cons.mp h with rfl | h
      · exact .inr List.mem_cons_self
      · exact (ih h).imp_right (List.mem_cons_of_mem _)

theorem pairwise_insertSecret (s : Secret) {l : List (String × Secret)}
    (h : l.Pairwise fun p q => p.1 < q.1) :
    (insertSecret s l).Pairwise fun p q => p.1 < q.1 := by
  induction l with
  | nil => exact List.pairwise_singleton _ _
  | cons p l ih =>
    obtain ⟨k, t⟩ := p
    obtain ⟨hk, hl⟩ := List.pairwise_cons.mp h
    simp only [insertSecret]
    split
    · next hlt =>
      refine List.pairwise_cons.mpr ⟨fun q hq => ?_, h⟩
      rcases List.mem_cons.mp hq with rfl | hq
      · exact hlt
      · exact String.lt_trans hlt (hk q hq)
    next hge =>
    split
    · exact List.pairwise_cons.mpr ⟨hk, hl⟩
    · next hne =>
      refine List.pairwise_cons.mpr ⟨fun q hq => ?_, ih hl⟩
      rcases mem_insertSecret hq with hq | hq
      · have hgt : k < s.reference := String.not_le.mp fun hle =>
          hne (String.le_antisymm hle (String.not_lt.mp hge))
        exact hq ▸ hgt
      · exact hk q hq

@[simp] theorem ofSecrets_append (secrets : List Secret) (s : Secret) :
    ofSecrets (secrets ++ [s]) = (ofSecrets secrets).insert s := by
  rw [ofSecrets, List.foldl_append]
  rfl

theorem get?_insert (ring : KeyRing) (s : Secret) (id : String) :
    (ring.insert s).get? id = if id = s.reference then some s else ring.get? id :=
  lookup_insertSecret s id ring.secrets

/-- A ring of listed secrets gives the last of those with a reference. -/
theorem get?_ofSecrets (secrets : List Secret) (id : String) :
    (ofSecrets secrets).get? id = secrets.reverse.find? fun s => id = s.reference := by
  induction secrets using List.reverseRecOn with
  | nil => rfl
  | append_singleton secrets s ih =>
    rw [ofSecrets_append, get?_insert, ih, List.reverse_append, List.reverse_singleton,
      List.singleton_append, List.find?_cons]
    by_cases hid : id = s.reference <;> simp [hid]

theorem pairwise_ofSecrets (secrets : List Secret) :
    (ofSecrets secrets).secrets.Pairwise fun p q => p.1 < q.1 := by
  induction secrets using List.reverseRecOn with
  | nil => exact List.Pairwise.nil
  | append_singleton secrets s ih =>
    rw [ofSecrets_append]
    exact pairwise_insertSecret s ih

theorem contains_iff_mem (ring : KeyRing) (id : String) :
    ring.contains id = true ↔ id ∈ ring.secrets.map Prod.fst :=
  Dictionary.contains_iff_mem_keys ⟨ring.secrets⟩ id

/-- The ring holds of each listed reference the last secret, and no other reference. -/
structure HoldsLast (ring : KeyRing) (secrets : List Secret) : Prop where
  contains_iff (id : String) : ring.contains id = true ↔ ∃ s ∈ secrets, s.reference = id
  resolve_last (before after : List Secret) (s : Secret) (h : secrets = before ++ s :: after)
    (hlast : ∀ t ∈ after, t.reference ≠ s.reference) : ring.resolve s.reference = .ok s
  resolve_unlisted {id : String} (h : ∀ s ∈ secrets, s.reference ≠ id) :
    ring.resolve id = .error (.unknownKey id)
  size_eq : ring.size = (secrets.map Secret.reference).toFinset.card

theorem contains_ofSecrets (secrets : List Secret) (id : String) :
    (ofSecrets secrets).contains id = true ↔ ∃ s ∈ secrets, s.reference = id := by
  rw [contains, get?_ofSecrets, List.find?_isSome]
  simp [eq_comm]

theorem size_ofSecrets (secrets : List Secret) :
    (ofSecrets secrets).size = (secrets.map Secret.reference).toFinset.card := by
  have hnodup : ((ofSecrets secrets).secrets.map Prod.fst).Nodup :=
    List.pairwise_map.mpr ((pairwise_ofSecrets secrets).imp fun {p q} h heq => by
      rw [heq] at h
      exact String.lt_irrefl q.1 h)
  have hsame : ((ofSecrets secrets).secrets.map Prod.fst).toFinset =
      (secrets.map Secret.reference).toFinset := by
    ext id
    rw [List.mem_toFinset, List.mem_toFinset, ← contains_iff_mem, contains_ofSecrets, List.mem_map]
  rw [← hsame, List.toFinset_card_of_nodup hnodup, List.length_map]
  rfl

theorem ofSecrets_holdsLast (secrets : List Secret) : (ofSecrets secrets).HoldsLast secrets where
  contains_iff := contains_ofSecrets secrets
  resolve_last := by
    rintro before after s rfl hlast
    have hget : (ofSecrets (before ++ s :: after)).get? s.reference = some s := by
      rw [get?_ofSecrets, List.find?_eq_some_iff_append]
      refine ⟨by simp, after.reverse, before.reverse, by simp, fun t ht => ?_⟩
      simpa using (hlast t (List.mem_reverse.mp ht)).symm
    rw [resolve, hget]
  resolve_unlisted := by
    intro id h
    have hget : (ofSecrets secrets).get? id = none := by
      rw [get?_ofSecrets, List.find?_eq_none]
      intro s hs
      simpa using (h s (List.mem_reverse.mp hs)).symm
    rw [resolve, hget]
  size_eq := size_ofSecrets secrets

end

/-! ### Listings -/

/-- A secret as it may be listed, with blanks around its reference and around its encoding. -/
structure Spelling where
  secret : Secret
  beforeId : Blanks
  afterId : Blanks
  beforeKey : Blanks
  afterKey : Blanks

/-- The piece of a list that spells the secret so. -/
def Spelling.chars (x : Spelling) : List Char :=
  (x.beforeId.1 ++ x.secret.reference.toList ++ x.afterId.1) ++
    '=' :: (x.beforeKey.1 ++ (Base64.toText x.secret.key).toList ++ x.afterKey.1)

/-- What a list can call a secret: a text without blanks around it that the marks of the list do
not cut. -/
structure IsId (id : String) : Prop where
  ne_empty : id ≠ ""
  trimmed : trimChars id.toList = id.toList
  no_comma : ',' ∉ id.toList
  no_mark : '=' ∉ id.toList

theorem Blanks.not_mem (u : Blanks) {c : Char} (hc : isBlank c = false) : c ∉ u.1 := by
  intro hmem
  rw [u.2 c hmem] at hc
  cases hc

theorem Spelling.lists {x : Spelling} (h : IsId x.secret.reference) :
    Lists (trimChars x.chars) x.secret := by
  obtain ⟨front, back, htrim, hfront, hid, hkey⟩ := trimChars_mark (c := '=') (by decide)
    (x.beforeId.1 ++ x.secret.reference.toList ++ x.afterId.1)
    (x.beforeKey.1 ++ (Base64.toText x.secret.key).toList ++ x.afterKey.1)
  rw [trimChars_around, h.trimmed] at hid
  rw [trimChars_around, trimChars_of_not_blank fun c hc => (Base64.of_mem_toText hc).1] at hkey
  rw [Spelling.chars, htrim]
  refine .intro (fun hmark => ?_) ?_ ?_ ?_
  · have := hfront '=' hmark
    simp only [List.mem_append, h.no_mark, Blanks.not_mem _ (by decide : isBlank '=' = false),
      or_self] at this
  · rw [hid]
    exact fun hnil => h.ne_empty (String.toList_eq_nil_iff.mp hnil)
  · rw [hid, String.ofList_toList]
  · rw [hkey, String.ofList_toList]

theorem Spelling.no_comma {x : Spelling} (h : IsId x.secret.reference) : ',' ∉ x.chars := by
  have hblank : isBlank ',' = false := by decide
  have hkey : ',' ∉ (Base64.toText x.secret.key).toList := fun hc =>
    (Base64.of_mem_toText hc).2 rfl
  simp [Spelling.chars, h.no_comma, hkey, Blanks.not_mem _ hblank]

theorem Lists.ne_nil (h : Lists piece s) : piece ≠ [] := by
  cases h
  simp

theorem entries_listing {listing : List Spelling} (h : ∀ x ∈ listing, IsId x.secret.reference) :
    entries (String.ofList ([','].intercalate (listing.map Spelling.chars))) =
      listing.map fun x => trimChars x.chars := by
  cases listing with
  | nil => rfl
  | cons x listing =>
    have hcut : ∀ l ∈ (x :: listing).map Spelling.chars, ',' ∉ l := by
      intro l hl
      obtain ⟨y, hy, rfl⟩ := List.mem_map.mp hl
      exact Spelling.no_comma (h y hy)
    rw [entries, String.toList_ofList, List.splitOn_intercalate _ hcut (by simp), List.map_map]
    refine List.filter_eq_self.mpr fun p hp => ?_
    obtain ⟨y, hy, rfl⟩ := List.mem_map.mp hp
    exact decide_eq_true (Spelling.lists (h y hy)).ne_nil

/-! ### Texts -/

theorem parse_eq (text : String) :
    parse text = ((entries text).mapM KeyRing.readPiece).map ofSecrets := by
  have hentries : ((pieces text.toList).map trimChars).filter (fun p => !p.isEmpty) =
      entries text := by
    refine List.filter_congr fun p _ => ?_
    cases p <;> rfl
  rw [parse, hentries]
  rfl

theorem parse_eq_ok_iff {text : String} : parse text = .ok ring ↔
    ∃ secrets, List.Forall₂ Lists (entries text) secrets ∧ ring = ofSecrets secrets := by
  rw [parse_eq]
  cases hread : (entries text).mapM KeyRing.readPiece with
  | error e =>
    refine iff_of_false nofun ?_
    rintro ⟨secrets, hlists, -⟩
    rw [mapM_eq_ok_iff.mpr (hlists.imp fun _ _ => Lists.readPiece)] at hread
    cases hread
  | ok secrets =>
    have hlists : List.Forall₂ Lists (entries text) secrets :=
      (mapM_eq_ok_iff.mp hread).imp fun _ _ => readPiece_eq_ok_iff.mp
    constructor
    · rintro ⟨⟩
      exact ⟨secrets, hlists, rfl⟩
    · rintro ⟨secrets', hlists', rfl⟩
      rw [mapM_eq_ok_iff.mpr (hlists'.imp fun _ _ => Lists.readPiece)] at hread
      cases hread
      rfl

theorem parse_eq_error_iff {text : String} : parse text = .error e ↔ ∃ before piece after,
    entries text = before ++ piece :: after ∧ (∀ p ∈ before, ∃ s, Lists p s) ∧
      Offends piece e := by
  have herror : parse text = .error e ↔ (entries text).mapM KeyRing.readPiece = .error e := by
    rw [parse_eq]
    cases (entries text).mapM KeyRing.readPiece <;> simp [Except.map]
  simp only [herror, mapM_eq_error_iff, readPiece_eq_ok_iff, readPiece_eq_error_iff]

/-- A text is a ring exactly if all its pieces list secrets, and then it is the ring of those: each
reference resolves to the last secret listed under it. If not, what is reported is wrong with the
first piece that lists none. So any listing is read back, however it is spelled, and no key has two
encodings. -/
theorem parse_listing :
    (∀ text, (∃ ring, parse text = .ok ring) ↔ ∀ p ∈ entries text, ∃ s, Lists p s) ∧
    (∀ text ring, parse text = .ok ring → ∃ secrets,
      List.Forall₂ Lists (entries text) secrets ∧ ring = ofSecrets secrets ∧
        ring.HoldsLast secrets) ∧
    (∀ text e, parse text = .error e ↔ ∃ before piece after,
      entries text = before ++ piece :: after ∧ (∀ p ∈ before, ∃ s, Lists p s) ∧
        Offends piece e) ∧
    (∀ listing : List Spelling, (∀ x ∈ listing, IsId x.secret.reference) →
      parse (String.ofList ([','].intercalate (listing.map Spelling.chars))) =
        .ok (ofSecrets (listing.map Spelling.secret))) ∧
    ∀ key encoded,
      Base64.decode (Bytes.ofText encoded) = .ok key ↔ encoded = Base64.toText key := by
  refine ⟨fun text => ⟨?_, fun h => ?_⟩, fun text ring h => ?_, fun text e => parse_eq_error_iff,
    fun listing h => ?_, fun key encoded => Base64.decode_ofText_eq_ok_iff⟩
  · rintro ⟨ring, hring⟩
    obtain ⟨secrets, hlists, -⟩ := parse_eq_ok_iff.mp hring
    have hboth : List.Forall₂ (fun p s => (∃ s, Lists p s) ∧ Lists p s) (entries text) secrets :=
      hlists.imp fun _ s hs => ⟨⟨s, hs⟩, hs⟩
    exact ((List.forall₂_and_left _ _).mp hboth).1
  · cases hparse : parse text with
    | ok ring => exact ⟨ring, rfl⟩
    | error e =>
      obtain ⟨before, piece, after, hentries, -, hoffends⟩ := parse_eq_error_iff.mp hparse
      obtain ⟨s, hs⟩ := h piece (hentries ▸ List.mem_append_right _ List.mem_cons_self)
      cases hs.readPiece.symm.trans hoffends.readPiece
  · obtain ⟨secrets, hlists, rfl⟩ := parse_eq_ok_iff.mp h
    exact ⟨secrets, hlists, rfl, ofSecrets_holdsLast secrets⟩
  · refine parse_eq_ok_iff.mpr ⟨_, ?_, rfl⟩
    rw [entries_listing h, List.forall₂_map_left_iff, List.forall₂_map_right_iff,
      List.forall₂_same]
    exact fun x hx => Spelling.lists (h x hx)

/-- A reference that is listed twice, with blanks around its parts: the later key counts. -/
theorem parse_listing_twice : ∃ first last : Secret,
    IsId "a" ∧ first.key = List.replicate 32 0 ∧ last.key = List.replicate 32 1 ∧
    parse (" a = AAAAAAAAAAAAAAAAAAAAAAAAAAAAAAAAAAAAAAAAAAA=," ++
      "a=AQEBAQEBAQEBAQEBAQEBAQEBAQEBAQEBAQEBAQEBAQE=\t") = .ok (ofSecrets [first, last]) ∧
    (ofSecrets [first, last]).resolve "a" = .ok last ∧ (ofSecrets [first, last]).size = 1 := by
  let first : Secret := ⟨"a", List.replicate 32 0, rfl⟩
  let last : Secret := ⟨"a", List.replicate 32 1, rfl⟩
  let none : Blanks := ⟨[], nofun⟩
  let space : Blanks := ⟨[' '], List.forall_mem_singleton.mpr rfl⟩
  let tab : Blanks := ⟨['\t'], List.forall_mem_singleton.mpr rfl⟩
  let listing : List Spelling :=
    [⟨first, space, space, space, none⟩, ⟨last, none, none, none, tab⟩]
  have hid : IsId "a" := ⟨by decide, by decide, by decide, by decide⟩
  have hall : ∀ x ∈ listing, IsId x.secret.reference := by simp [listing, first, last, hid]
  have htext : String.ofList ([','].intercalate (listing.map Spelling.chars)) =
      " a = AAAAAAAAAAAAAAAAAAAAAAAAAAAAAAAAAAAAAAAAAAA=," ++
        "a=AQEBAQEBAQEBAQEBAQEBAQEBAQEBAQEBAQEBAQEBAQE=\t" := by
    decide +kernel
  have hparse := parse_listing.2.2.2.1 listing hall
  rw [htext] at hparse
  have hholds := ofSecrets_holdsLast [first, last]
  have hresolve : (ofSecrets [first, last]).resolve last.reference = .ok last :=
    hholds.resolve_last [first] [] last rfl (by simp)
  exact ⟨first, last, hid, rfl, rfl, hparse, hresolve, hholds.size_eq⟩

end KeyRing

end ObjectTiers
