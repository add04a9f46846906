/-
A table in the memory and a directory as images of the same rows.

Two tables that start empty and are asked the same things answer alike, and what they hold can be
read off the rows that were accepted: for each identity the last one (`Table.latest?`). In the
memory that is the dictionary; in a directory it is one file for each identity, with the record of
that row in it, and one folder for each reference (`Directory.Images`). They differ only in what
they say when they are asked for an identity that is refused (`Table.after_empty`).
-/
import Mathlib.Data.Finset.Card
import ObjectTiers.Proofs.Gate
import ObjectTiers.Proofs.Tier.Table

namespace ObjectTiers

/-! ### Requests -/

/-- The record of the row keeps to the limits of its fields. -/
def Row.Fits (row : Row) : Prop :=
  Layout.fits (row.texts.map Bytes.ofText) row.toBytes.length = true

theorem Row.fits_of_length_lt {row : Row} (h : row.toBytes.length < Layout.textLimit) : row.Fits :=
  Layout.fits_iff.mpr ⟨texts_lt h, Nat.lt_trans h (by decide)⟩

namespace Table

/-- What a table is asked. -/
inductive Request
  | insert (row : Row)
  | find (r : String) (v : UInt16)

variable {t : Table} {requests : List Request} {rows : List Row} {row : Row} {r : String}
  {v : UInt16}

/-- The table after a request. -/
def next (t : Table) : Request → Table
  | .insert row => (t.insert row).2
  | .find r v => (t.find r v).2.1

/-- The table after requests. -/
def after (t : Table) (requests : List Request) : Table := requests.foldl next t

@[simp] theorem after_append (t : Table) (requests : List Request) (q : Request) :
    t.after (requests ++ [q]) = (t.after requests).next q :=
  List.foldl_append

/-- The row that a table is asked to take, if it passes its check. -/
def Request.accepted? : Request → Option Row
  | .insert row => if row.check.isOk then some row else none
  | .find _ _ => none

/-- The accepted rows in their order. -/
def accepted (requests : List Request) : List Row := requests.filterMap Request.accepted?

@[simp] theorem accepted_append (requests : List Request) (q : Request) :
    accepted (requests ++ [q]) = accepted requests ++ q.accepted?.toList := by
  rw [accepted, List.filterMap_append]
  cases hq : q.accepted? <;> simp [hq, accepted]

theorem mem_accepted_iff :
    row ∈ accepted requests ↔ .insert row ∈ requests ∧ row.check = .ok () := by
  have hrow (q : Request) : q.accepted? = some row ↔ q = .insert row ∧ row.check = .ok () := by
    cases q with
    | find r v => simp [Request.accepted?]
    | insert row' =>
      cases hcheck : row'.check <;> simp [Request.accepted?, hcheck, Except.isOk, Except.toBool]
      · rintro rfl
        simp [hcheck]
      · rintro rfl
        exact hcheck
  simp only [accepted, List.mem_filterMap, hrow]
  constructor
  · rintro ⟨_, hmem, rfl, hcheck⟩
    exact ⟨hmem, hcheck⟩
  · rintro ⟨hmem, hcheck⟩
    exact ⟨_, hmem, rfl, hcheck⟩

/-- The last of the rows of an identity. -/
def latest? (rows : List Row) (r : String) (v : UInt16) : Option Row :=
  rows.reverse.find? fun row => r = row.objectRef ∧ v = row.version

theorem latest?_append (rows : List Row) (row : Row) (r : String) (v : UInt16) :
    latest? (rows ++ [row]) r v =
      if r = row.objectRef ∧ v = row.version then some row else latest? rows r v := by
  rw [latest?, List.reverse_append, List.reverse_singleton, List.singleton_append, List.find?_cons]
  by_cases hid : r = row.objectRef ∧ v = row.version <;> simp [hid, latest?]

theorem of_latest? (h : latest? rows r v = some row) :
    row ∈ rows ∧ row.objectRef = r ∧ row.version = v := by
  have hid := List.find?_some h
  simp only [decide_eq_true_eq] at hid
  exact ⟨List.mem_reverse.mp (List.mem_of_find?_eq_some h), hid.1.symm, hid.2.symm⟩

theorem isSome_latest?_iff :
    (latest? rows r v).isSome = true ↔ ∃ row ∈ rows, row.objectRef = r ∧ row.version = v := by
  simp only [latest?, List.find?_isSome, List.mem_reverse, decide_eq_true_eq]
  exact exists_congr fun row => and_congr_right fun _ => and_congr eq_comm eq_comm

theorem latest?_of_invalid {e : ValidationError} (h : Identity.validate r v = .error e) :
    latest? (accepted requests) r v = none := by
  refine Option.eq_none_iff_forall_ne_some.mpr fun row hrow => ?_
  obtain ⟨hmem, rfl, rfl⟩ := of_latest? hrow
  cases (mem_accepted_iff.mp hmem).2.symm.trans ((row.check_eq_identity_iff e).mpr h)

/-! ### Answers -/

/-- Whether a row is taken does not depend on what the table was asked before. -/
theorem insert_after_fst (t : Table) (requests : List Request) (row : Row) :
    ((t.after requests).insert row).1 = (t.insert row).1 := by
  induction requests using List.reverseRecOn with
  | nil => rfl
  | append_singleton requests q ih =>
    rw [after_append, ← ih]
    cases q with
    | insert row' => exact insert_insert_fst _ row row'
    | find r v => exact insert_find_fst _ r v row

/-- A table that takes the rows that pass their check answers with the last one it took. -/
theorem peek_after (t : Table) (requests : List Request)
    (h : ∀ row, .insert row ∈ requests → (t.insert row).1 = row.check.mapError .invariant)
    (r : String) (v : UInt16) : (t.after requests).peek r v =
      (latest? (accepted requests) r v).elim (t.peek r v) fun row => .ok (some row) := by
  induction requests using List.reverseRecOn with
  | nil => rfl
  | append_singleton requests q ih =>
    rw [after_append]
    have ih := ih fun row hrow => h row (List.mem_append_left _ hrow)
    cases q with
    | find s w =>
      rw [next, peek_find, accepted_append, Request.accepted?, Option.toList_none,
        List.append_nil, ih]
    | insert row =>
      have htaken : ((t.after requests).insert row).1.isOk = row.check.isOk := by
        rw [insert_after_fst, h row (List.mem_append_right _ List.mem_cons_self)]
        cases row.check <;> rfl
      rw [next, peek_insert, accepted_append, htaken, ih, Request.accepted?]
      cases row.check.isOk with
      | false => simp
      | true =>
        simp only [and_true, if_true, Option.toList_some, latest?_append]
        split <;> rfl

end Table

/-! ### Directories -/

namespace Directory

variable {d d' : Directory} {rows : List Row} {row : Row}

open Table (latest? latest?_append)

/-- What a row that is taken leaves behind: its record in its file, and the folder of that. -/
theorem insert_ok (h : d.insert row = (.ok (), d')) :
    d'.files = d.files.insert [row.objectRef, rowName row.version] row.toBytes ∧
    ∀ p, p ∈ d'.folders ↔ p ∈ d.folders ∨ p = [row.objectRef] := by
  unfold insert at h
  split at h
  · cases h
  split at h
  · cases h
  next path hpath =>
  split at h
  · cases h
  next d₁ hfolder =>
  split at h
  · cases h
  next bytes hbytes =>
  split at h
  · cases h
  next d₂ hwrite =>
  cases h
  have hrecord : bytes = row.toBytes := by
    unfold Row.encode? at hbytes
    split at hbytes
    · exact (Option.some.inj hbytes).symm
    · cases hbytes
  subst hrecord
  rw [rowPath_ok hpath] at hwrite
  unfold makeFolder? at hfolder
  split at hfolder
  · cases hfolder
  cases hfolder
  unfold write? at hwrite
  split at hwrite
  · cases hwrite
  cases hwrite
  refine ⟨rfl, fun p => ?_⟩
  have hparents : parents [row.objectRef] = [] ∧
      parents [row.objectRef, rowName row.version] = [[row.objectRef]] := by
    simp [parents, List.range_succ]
  simp only [hparents, List.nil_append, List.mem_append, List.mem_filter, List.mem_singleton,
    Bool.not_eq_true', List.contains_eq_mem, decide_eq_false_iff_not]
  by_cases hp : p = [row.objectRef] <;> simp [hp, Classical.em]

/-- The directory holds these rows and nothing else: of each identity the record of the last one,
in a file of its own, and a folder for each reference. -/
structure Images (d : Directory) (rows : List Row) : Prop where
  nodup : d.files.keys.Nodup
  file (p : Path) (bytes : Bytes) : d.files.get? p = some bytes ↔
    ∃ row, latest? rows row.objectRef row.version = some row ∧
      p = [row.objectRef, rowName row.version] ∧ bytes = row.toBytes
  folder (p : Path) : p ∈ d.folders ↔ ∃ row ∈ rows, p = [row.objectRef]

theorem images_empty : Images .empty [] where
  nodup := List.nodup_nil
  file p bytes := by simp [empty, latest?]
  folder p := by simp [empty]

theorem Images.insert (h : d.Images rows) (hins : d.insert row = (.ok (), d')) :
    d'.Images (rows ++ [row]) := by
  obtain ⟨hfiles, hfolders⟩ := insert_ok hins
  refine ⟨?_, fun p bytes => ?_, fun p => ?_⟩
  · rw [hfiles]
    exact Dictionary.nodup_keys_insert h.nodup _ _
  · rw [hfiles]
    by_cases hp : p = [row.objectRef, rowName row.version]
    · rw [hp, Dictionary.get?_insert_self]
      constructor
      · rintro ⟨⟩
        exact ⟨row, by rw [latest?_append, if_pos ⟨rfl, rfl⟩], rfl, rfl⟩
      · rintro ⟨row', hlatest, hpath, rfl⟩
        obtain ⟨href, hname⟩ : row.objectRef = row'.objectRef ∧
          rowName row.version = rowName row'.version := by simpa using hpath
        rw [latest?_append, if_pos ⟨href.symm, (rowName_injective hname).symm⟩] at hlatest
        cases hlatest
        rfl
    · rw [Dictionary.get?_insert_of_ne _ _ hp, h.file]
      refine exists_congr fun row' => and_congr_left fun hpath => ?_
      have hid : ¬ (row'.objectRef = row.objectRef ∧ row'.version = row.version) := by
        rintro ⟨href, hversion⟩
        rw [href, hversion] at hpath
        exact hp hpath.1
      rw [latest?_append, if_neg hid]
  · rw [hfolders, h.folder]
    simp [or_and_right, exists_or]

theorem find_empty {r : String} {v : UInt16} {key : Key} (h : Identity.validate r v = .ok key) :
    (empty.find r v).1 = .ok none := by
  have hpath : rowPath r v = .ok [r, rowName v] := by
    rw [rowPath, h]
    rfl
  have hread : empty.read [r, rowName v] = .error .missing := by
    simp [read, isBlocked_pair, isFile, isFolder, empty, Dictionary.contains, Dictionary.keys,
      Dictionary.empty, Dictionary.get?]
  simp only [find, hpath, hread]

end Directory

/-! ### Tables in the memory -/

namespace MemoryTable

variable {m m' : MemoryTable} {row : Row}

theorem nodup_insert {x : Except TableError Unit} (h : m.rows.keys.Nodup)
    (hins : m.insert row = (x, m')) : m'.rows.keys.Nodup := by
  unfold insert at hins
  split at hins
  · cases hins
    exact h
  · cases hins
    exact Dictionary.nodup_keys_insert h _ _

theorem mem_keys_iff (m : MemoryTable) (r : String) (v : UInt16) :
    (r, v) ∈ m.rows.keys ↔ (m.get? r v).isSome = true := by
  rw [← Dictionary.contains_iff_mem_keys, Dictionary.contains, get?]

theorem mem_versions_iff (m : MemoryTable) (r : String) (v : UInt16) :
    v ∈ m.versions r ↔ (m.get? r v).isSome = true := by
  rw [versions, List.mem_mergeSort, ← mem_keys_iff]
  simp

theorem pairwise_versions (h : m.rows.keys.Nodup) (r : String) :
    (m.versions r).Pairwise fun v w => v.toNat < w.toNat := by
  have hnodup : (m.versions r).Nodup := by
    refine (List.mergeSort_perm _ _).nodup_iff.mpr (List.Nodup.map_on ?_ (h.filter _))
    rintro ⟨r₁, v⟩ hv ⟨r₂, w⟩ hw rfl
    simp only [List.mem_filter, beq_iff_eq] at hv hw
    rw [hv.2, hw.2]
  have hsorted : (m.versions r).Pairwise fun v w => decide (v ≤ w) = true := by
    refine List.pairwise_mergeSort (fun u v w huv hvw => ?_) (fun v w => ?_) _
    · simp only [decide_eq_true_eq, UInt16.le_iff_toNat_le] at huv hvw ⊢
      exact Nat.le_trans huv hvw
    · simp only [Bool.or_eq_true, decide_eq_true_eq, UInt16.le_iff_toNat_le]
      exact Nat.le_total _ _
  refine (hsorted.and hnodup).imp fun {v w} h => ?_
  have hle : v.toNat ≤ w.toNat := UInt16.le_iff_toNat_le.mp (decide_eq_true_eq.mp h.1)
  have hne : v.toNat ≠ w.toNat := mt UInt16.toNat_inj.mp h.2
  omega

end MemoryTable

/-! ### Both from their start -/

namespace Table

variable {requests : List Request} {row : Row}

theorem insert_memory_fst (m : MemoryTable) (row : Row) :
    ((memory m).insert row).1 = row.check.mapError .invariant := by
  simp only [insert, MemoryTable.insert]
  cases row.check <;> rfl

theorem insert_directory_fst (h : row.check = .ok () → row.Fits) :
    ((directory .empty).insert row).1 = row.check.mapError .invariant := by
  simp only [insert, Directory.insert_fst]
  cases hcheck : row.check with
  | error fault => rfl
  | ok u =>
    have hrecord : row.encode? = some row.toBytes := if_pos (h hcheck)
    rw [hrecord]
    rfl

theorem insert_of_refused {fault : RowFault} (h : row.check = .error fault) :
    (∀ m, (memory m).insert row = (.error (.invariant fault), .memory m)) ∧
      ∀ d, (directory d).insert row = (.error (.invariant fault), .directory d) := by
  simp only [insert, MemoryTable.insert, Directory.insert, h, implies_true, and_self]

theorem memory_after (requests : List Request) :
    ∃ m, (memory .empty).after requests = .memory m ∧ m.rows.keys.Nodup := by
  induction requests using List.reverseRecOn with
  | nil => exact ⟨.empty, rfl, List.nodup_nil⟩
  | append_singleton requests q ih =>
    obtain ⟨m, hm, hnodup⟩ := ih
    rw [after_append, hm]
    cases q with
    | find r v => exact ⟨m, rfl, hnodup⟩
    | insert row => exact ⟨(m.insert row).2, rfl, MemoryTable.nodup_insert hnodup rfl⟩

theorem directory_after (h : ∀ row ∈ accepted requests, row.Fits) :
    ∃ d, (directory .empty).after requests = .directory d ∧ d.Images (accepted requests) := by
  induction requests using List.reverseRecOn with
  | nil => exact ⟨.empty, rfl, Directory.images_empty⟩
  | append_singleton requests q ih =>
    rw [accepted_append] at h ⊢
    obtain ⟨d, hd, himages⟩ := ih fun row hrow => h row (List.mem_append_left _ hrow)
    have hfst := insert_after_fst (directory .empty) requests
    rw [after_append, hd]
    rw [hd] at hfst
    cases q with
    | find r v => exact ⟨d, rfl, by simpa [Request.accepted?] using himages⟩
    | insert row =>
      refine ⟨(d.insert row).2, rfl, ?_⟩
      cases hcheck : row.check with
      | error fault =>
        have hsame : (d.insert row).2 = d := by rw [Directory.insert, hcheck]
        simpa [hsame, Request.accepted?, hcheck, Except.isOk, Except.toBool] using himages
      | ok u =>
        have haccepted : (Request.insert row).accepted?.toList = [row] := by
          simp [Request.accepted?, hcheck, Except.isOk, Except.toBool]
        rw [haccepted] at h ⊢
        have hok : (d.insert row).1 = .ok () := by
          have := hfst row
          rw [insert_directory_fst fun _ => h row (by simp), hcheck] at this
          exact this
        exact himages.insert (Prod.ext hok rfl)

/-- What became of two tables that started empty, one in the memory and one in a directory, and were
asked the same things. They take and refuse the same rows, and a row that is refused changes
neither. They have the same row for every valid identity, the last that was accepted; an identity
that is refused has no row in the one and is an error of the other. The directory holds the
accepted rows and nothing else; the table in the memory lists their versions in ascending order, and
its size is the number of their identities. -/
theorem after_empty (requests : List Request) (hfits : ∀ row ∈ accepted requests, row.Fits) :
    ∃ m d, (memory .empty).after requests = .memory m ∧
      (directory .empty).after requests = .directory d ∧
      (∀ row, row.Fits → ((memory m).insert row).1 = row.check.mapError .invariant ∧
        ((directory d).insert row).1 = row.check.mapError .invariant) ∧
      (∀ row fault, row.check = .error fault →
        (memory m).insert row = (.error (.invariant fault), .memory m) ∧
        (directory d).insert row = (.error (.invariant fault), .directory d)) ∧
      (∀ r v key, Identity.validate r v = .ok key →
        ((memory m).find r v).1 = .ok (latest? (accepted requests) r v) ∧
        ((directory d).find r v).1 = .ok (latest? (accepted requests) r v)) ∧
      (∀ r v e, Identity.validate r v = .error e → ((memory m).find r v).1 = .ok none ∧
        ((directory d).find r v).1 = .error (.invariant (.identity e))) ∧
      d.Images (accepted requests) ∧
      (∀ r, (m.versions r).Pairwise (fun v w => v.toNat < w.toNat) ∧
        ∀ v, v ∈ m.versions r ↔ ∃ row ∈ accepted requests, row.objectRef = r ∧ row.version = v) ∧
      m.size = ((accepted requests).map fun row => (row.objectRef, row.version)).toFinset.card := by
  obtain ⟨m, hm, hnodup⟩ := memory_after requests
  obtain ⟨d, hd, himages⟩ := directory_after hfits
  have hget (r : String) (v : UInt16) : m.get? r v = latest? (accepted requests) r v := by
    have hpeek := peek_after (memory .empty) requests
      (fun row _ => insert_memory_fst .empty row) r v
    rw [hm] at hpeek
    cases hlatest : latest? (accepted requests) r v <;> rw [hlatest] at hpeek <;>
      exact Except.ok.inj hpeek
  have htaken (row : Row) (hrow : row.check = .ok () → row.Fits) :
      ((directory d).insert row).1 = row.check.mapError .invariant := by
    rw [← hd, insert_after_fst, insert_directory_fst hrow]
  have hfind {r : String} {v : UInt16} {key : Key} (h : Identity.validate r v = .ok key) :
      (d.find r v).1 = .ok (latest? (accepted requests) r v) := by
    have hpeek := peek_after (directory .empty) requests
      (fun row hrow => insert_directory_fst fun hcheck =>
        hfits row (mem_accepted_iff.mpr ⟨hrow, hcheck⟩)) r v
    rw [hd] at hpeek
    refine hpeek.trans ?_
    cases latest? (accepted requests) r v with
    | none => exact Directory.find_empty h
    | some row => rfl
  refine ⟨m, d, hm, hd, fun row hrow => ⟨insert_memory_fst m row, htaken row fun _ => hrow⟩,
    fun row fault h => ⟨(insert_of_refused h).1 m, (insert_of_refused h).2 d⟩,
    fun r v key h => ⟨congrArg Except.ok (hget r v), hfind h⟩, fun r v e h => ⟨?_, ?_⟩, himages,
    fun r => ⟨MemoryTable.pairwise_versions hnodup r, fun v => ?_⟩, ?_⟩
  · exact congrArg Except.ok ((hget r v).trans (latest?_of_invalid h))
  · exact (d.find_eq_identity_iff r v e).mpr h
  · rw [MemoryTable.mem_versions_iff, hget, isSome_latest?_iff]
  · have hidentities : m.rows.keys.toFinset =
        ((accepted requests).map fun row => (row.objectRef, row.version)).toFinset := by
      ext ⟨r, v⟩
      rw [List.mem_toFinset, List.mem_toFinset, MemoryTable.mem_keys_iff, hget, isSome_latest?_iff,
        List.mem_map]
      simp only [Prod.mk.injEq]
    rw [← hidentities, List.toFinset_card_of_nodup hnodup]
    exact (List.length_map _).symm

/-- A row, a newer one in its place, between them one with an empty key id, and a look-up of a
reference that is no name. -/
theorem after_empty_replaced : ∃ old bad new requests m d,
    old = ⟨"a", 1, [1], none, 0⟩ ∧ bad = ⟨"a", 2, [2], some "", 0⟩ ∧
    new = ⟨"a", 1, [3], none, 5⟩ ∧
    requests = [.insert old, .insert bad, .insert new, .find "a/b" 1] ∧
    (∀ row ∈ accepted requests, row.Fits) ∧ (memory .empty).after requests = .memory m ∧
    (directory .empty).after requests = .directory d ∧
    ((directory d).find "a" 1).1 = .ok (some new) ∧ ((directory d).find "a" 2).1 = .ok none ∧
    ((directory d).find "a/b" 1).1 = .error (.invariant (.identity (.invalidCharacter '/' 1))) ∧
    d.files.get? ["a", "00001.row"] = some new.toBytes ∧ 2 ∉ m.versions "a" ∧ m.size = 1 := by
  let old : Row := ⟨"a", 1, [1], none, 0⟩
  let bad : Row := ⟨"a", 2, [2], some "", 0⟩
  let new : Row := ⟨"a", 1, [3], none, 5⟩
  let requests : List Request := [.insert old, .insert bad, .insert new, .find "a/b" 1]
  have haccepted : accepted requests = [old, new] := by decide +kernel
  have hfits : ∀ row ∈ accepted requests, row.Fits := by
    rw [haccepted]
    refine List.forall_mem_cons.mpr ⟨?_, List.forall_mem_cons.mpr ⟨?_, nofun⟩⟩ <;>
      exact Row.fits_of_length_lt (by decide +kernel)
  obtain ⟨m, d, hm, hd, -, -, hvalid, hinvalid, himages, hversions, hsize⟩ :=
    after_empty requests hfits
  rw [haccepted] at hvalid himages hversions hsize
  refine ⟨old, bad, new, requests, m, d, rfl, rfl, rfl, rfl, hfits, hm, hd,
    (hvalid "a" 1 ⟨"a", 1⟩ (by decide +kernel)).2, (hvalid "a" 2 ⟨"a", 2⟩ (by decide +kernel)).2,
    (hinvalid "a/b" 1 _ (by decide +kernel)).2, ?_, ?_, hsize⟩
  · exact (himages.file _ _).mpr ⟨new, by decide +kernel, by decide +kernel, rfl⟩
  · rw [(hversions "a").2]
    decide +kernel

end Table

end ObjectTiers
