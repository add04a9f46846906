/-
What a table answers. The view of a table is `peek`, its answer when it does not fail: a look-up
leaves it as it is (`peek_find`), a row that is taken changes the answer for its own identity alone
(`peek_insert_ok`), and a row that is refused changes no answer (`peek_insert_error`). That holds
of directories with any files in them as well, since a row is written two names deep. Whether a row
is taken depends neither on its time (`insert_dated_fst`) nor on the rows before it
(`insert_insert_fst`), and a `view` leaves the times of rows out.

The rows that are handed out are those of the identity that was asked for, if the rows of a table
in the memory stand under their own identities (`Filed`), which every write keeps up; a directory
checks what it reads (`filed_directory`).
-/
import ObjectTiers.Tier.Table
import ObjectTiers.Proofs.Key
import ObjectTiers.Proofs.Record

namespace ObjectTiers

/-! ### Directories -/

namespace Directory

variable {d d' : Directory} {a b x y : String} {bytes : Bytes}

theorem isBlocked_pair (d : Directory) (x y : String) : d.isBlocked [x, y] = d.isFile [x] := by
  simp [isBlocked, parents, List.range_succ]

/-- Folders one name deep hide no file two names deep. -/
theorem contains_folders (fs new : List Path) (h : ∀ p ∈ new, p = [a]) :
    (fs ++ new.filter fun q => !fs.contains q).contains [x, y] = fs.contains [x, y] := by
  rw [Bool.eq_iff_iff]
  simp only [List.contains_iff_mem, List.mem_append, List.mem_filter]
  constructor
  · rintro (hmem | ⟨hmem, -⟩)
    · exact hmem
    · cases h _ hmem
  · exact .inl

theorem isFile_makeFolder (h : d.makeFolder? [a] = some d') : d'.isFile = d.isFile := by
  unfold makeFolder? at h
  split at h
  · cases h
  · cases h; rfl

theorem isFolder_makeFolder (h : d.makeFolder? [a] = some d') :
    d'.isFolder [x, y] = d.isFolder [x, y] := by
  unfold makeFolder? at h
  split at h
  · cases h
  · cases h
    have hparents : ∀ p ∈ parents [a] ++ [[a]], p = [a] := by simp [parents, List.range_succ]
    simp only [isFolder, contains_folders _ _ hparents]

theorem read_makeFolder (h : d.makeFolder? [a] = some d') : d'.read [x, y] = d.read [x, y] := by
  have hfiles : d'.files = d.files := by
    unfold makeFolder? at h
    split at h
    · cases h
    · cases h; rfl
  simp only [read, isBlocked_pair, isFile_makeFolder h, isFolder_makeFolder h, hfiles]

theorem get?_write (h : d.write? [a, b] bytes = some d') (p : Path) :
    d'.files.get? p = if p = [a, b] then some bytes else d.files.get? p := by
  unfold write? at h
  split at h
  · cases h
  · cases h
    by_cases hp : p = [a, b]
    · rw [hp, Dictionary.get?_insert_self, if_pos rfl]
    · rw [Dictionary.get?_insert_of_ne _ _ hp, if_neg hp]

theorem isFile_write (h : d.write? [a, b] bytes = some d') : d'.isFile [x] = d.isFile [x] := by
  simp only [isFile, Dictionary.contains, get?_write h, if_neg (by simp : ¬ [x] = [a, b])]

theorem isFolder_write (h : d.write? [a, b] bytes = some d') :
    d'.isFolder [x, y] = d.isFolder [x, y] := by
  unfold write? at h
  split at h
  · cases h
  · cases h
    have hparents : ∀ p ∈ parents [a, b], p = [a] := by simp [parents, List.range_succ]
    have hnames : (d.files.insert [a, b] bytes).keys.any (fun q => (parents q).contains [x, y]) =
        d.files.keys.any fun q => (parents q).contains [x, y] := by
      have hself : (parents [a, b]).contains [x, y] = false := by
        simp [parents, List.range_succ]
      rw [Bool.eq_iff_iff]
      simp only [List.any_eq_true, Dictionary.keys, Dictionary.insert, Dictionary.erase,
        List.map_cons, List.mem_cons, List.mem_map, List.mem_filter]
      constructor
      · rintro ⟨q, rfl | ⟨p, ⟨hp, -⟩, rfl⟩, hq⟩
        · rw [hself] at hq
          cases hq
        · exact ⟨p.1, ⟨p, hp, rfl⟩, hq⟩
      · rintro ⟨q, ⟨p, hp, rfl⟩, hq⟩
        have hne : p.1 ≠ [a, b] := by
          intro he
          rw [he, hself] at hq
          cases hq
        exact ⟨p.1, .inr ⟨p, ⟨hp, by simpa using hne⟩, rfl⟩, hq⟩
    simp only [isFolder, contains_folders _ _ hparents, hnames]

/-- A file that is written is what is read in its place, and no other file is hidden by it. -/
theorem read_write (h : d.write? [a, b] bytes = some d') :
    d'.read [x, y] = if [x, y] = [a, b] then .ok bytes else d.read [x, y] := by
  have hfree : ¬ (d.isBlocked [a, b] || d.isFolder [a, b]) = true := by
    intro hblocked
    rw [write?, if_pos hblocked] at h
    cases h
  simp only [read, isBlocked_pair, isFile_write h, isFolder_write h, get?_write h]
  by_cases hp : [x, y] = [a, b]
  · cases hp
    rw [isBlocked_pair] at hfree
    simp only [if_neg hfree, if_true]
  · simp only [if_neg hp]

/-- The last name of the file of a row. -/
def rowName (v : UInt16) : String :=
  String.ofList (Text.paddedDigits Identity.versionWidth v.toNat) ++ ".row"

theorem rowPath_ok {r : String} {v : UInt16} {path : Path} (h : rowPath r v = .ok path) :
    path = [r, rowName v] := by
  unfold rowPath at h
  split at h
  · cases h
  · cases h
    rfl

theorem rowName_injective {v w : UInt16} (h : rowName v = rowName w) : v = w := by
  have hchars := congrArg String.toList h
  simp only [rowName, String.toList_append, String.toList_ofList] at hchars
  exact UInt16.toNat_inj.mp (Text.paddedDigits_injective (List.append_cancel_right hchars))

theorem rowPath_injective {r s : String} {v w : UInt16} {path : Path} (h : rowPath r v = .ok path)
    (h' : rowPath s w = .ok path) : r = s ∧ v = w := by
  have heq := (rowPath_ok h).symm.trans (rowPath_ok h')
  simp only [List.cons.injEq, and_true] at heq
  exact ⟨heq.1, rowName_injective heq.2⟩

theorem eq_of_find {r : String} {v : UInt16} {row : Row}
    (h : (d.find r v).1 = .ok (some row)) : row.objectRef = r ∧ row.version = v := by
  unfold find at h
  split at h
  · cases h
  · split at h
    · cases h
    · cases h
    · split at h
      · cases h
      · split at h
        · next hid => cases h; exact hid
        · cases h

theorem find_congr {r : String} {v : UInt16}
    (h : ∀ path, rowPath r v = .ok path → d'.read path = d.read path) :
    d'.find r v = d.find r v := by
  unfold find
  split
  · rfl
  · next path hpath => rw [h path hpath]

theorem find_insert_ok {row : Row} (h : d.insert row = (.ok (), d')) (r : String) (v : UInt16) :
    (d'.find r v).1 =
      if r = row.objectRef ∧ v = row.version then .ok (some row) else (d.find r v).1 := by
  unfold insert at h
  split at h
  · cases h
  split at h
  · cases h
  next path hpath =>
  split at h
  · cases h
  next d₁ hfolder =>
  split at h
  · cases h
  next bytes hbytes =>
  split at h
  · cases h
  next d₂ hwrite =>
  cases h
  rw [rowPath_ok hpath] at hwrite
  by_cases hid : r = row.objectRef ∧ v = row.version
  · obtain ⟨rfl, rfl⟩ := hid
    rw [if_pos ⟨rfl, rfl⟩]
    unfold find
    rw [hpath]
    simp only [rowPath_ok hpath, read_write hwrite, if_true, Row.ofBytes?_of_encode? hbytes,
      and_self]
  · rw [if_neg hid, find_congr]
    intro p hp
    have hne : p ≠ path := by
      rintro rfl
      exact hid (rowPath_injective hp hpath)
    rw [rowPath_ok hp, rowPath_ok hpath] at hne
    rw [rowPath_ok hp, read_write hwrite, if_neg hne, read_makeFolder hfolder]

theorem find_insert_error {row : Row} {e : TableError} (h : d.insert row = (.error e, d'))
    (r : String) (v : UInt16) : d'.find r v = d.find r v := by
  unfold insert at h
  split at h
  · cases h; rfl
  split at h
  · cases h; rfl
  split at h
  · cases h; rfl
  next d₁ hfolder =>
  have hsame : d₁.find r v = d.find r v := by
    refine find_congr fun path hpath => ?_
    rw [rowPath_ok hpath]
    exact read_makeFolder hfolder
  split at h
  · cases h; exact hsame
  split at h
  · cases h; exact hsame
  · cases h

theorem rowPath_of_check {row : Row} (h : row.check = .ok ()) :
    rowPath row.objectRef row.version = .ok [row.objectRef, rowName row.version] := by
  unfold Row.check at h
  split at h
  · cases h
  · next key hkey => simp only [rowPath, hkey, rowName]

/-- Whether a row is taken: its folder must not be a file, nor its file a folder. -/
theorem insert_fst (d : Directory) (row : Row) : (d.insert row).1 =
    match row.check with
    | .error fault => .error (.invariant fault)
    | .ok () =>
      if d.isFile [row.objectRef] then .error .io
      else if row.encode?.isNone then .error .serialization
      else if d.isFolder [row.objectRef, rowName row.version] then .error .io
      else .ok () := by
  unfold insert
  cases hcheck : row.check with
  | error fault => rfl
  | ok u =>
  simp only [rowPath_of_check hcheck]
  cases hfile : d.isFile [row.objectRef] with
  | true => simp [makeFolder?, hfile]
  | false =>
  obtain ⟨d', hfolder⟩ : ∃ d', d.makeFolder? [row.objectRef] = some d' := by
    simp [makeFolder?, hfile, isBlocked, parents, List.range_succ]
  rw [hfolder]
  cases row.encode? with
  | none => rfl
  | some bytes =>
    simp only [write?, isBlocked_pair, isFile_makeFolder hfolder, isFolder_makeFolder hfolder,
      hfile]
    cases d.isFolder [row.objectRef, rowName row.version] <;> rfl

/-- No write makes or takes away what another one meets. -/
theorem unmet_insert (d : Directory) (row : Row) (x y : String) :
    (d.insert row).2.isFile [x] = d.isFile [x] ∧
      (d.insert row).2.isFolder [x, y] = d.isFolder [x, y] := by
  unfold insert
  split
  · exact ⟨rfl, rfl⟩
  split
  · exact ⟨rfl, rfl⟩
  next path hpath =>
  split
  · exact ⟨rfl, rfl⟩
  next d₁ hfolder =>
  have hmade : d₁.isFile [x] = d.isFile [x] ∧ d₁.isFolder [x, y] = d.isFolder [x, y] :=
    ⟨by rw [isFile_makeFolder hfolder], isFolder_makeFolder hfolder⟩
  split
  · exact hmade
  split
  · exact hmade
  next d₂ hwrite =>
  rw [rowPath_ok hpath] at hwrite
  exact ⟨(isFile_write hwrite).trans hmade.1, (isFolder_write hwrite).trans hmade.2⟩

end Directory

/-! ### Tables in the memory -/

namespace MemoryTable

variable {m m' : MemoryTable} {row : Row}

theorem get?_place (m : MemoryTable) (row : Row) (r : String) (v : UInt16) :
    (m.place row).get? r v =
      if r = row.objectRef ∧ v = row.version then some row else m.get? r v := by
  unfold get? place
  by_cases hid : r = row.objectRef ∧ v = row.version
  · obtain ⟨rfl, rfl⟩ := hid
    rw [Dictionary.get?_insert_self, if_pos ⟨rfl, rfl⟩]
  · have hne : (r, v) ≠ (row.objectRef, row.version) := by simpa using hid
    rw [Dictionary.get?_insert_of_ne _ _ hne, if_neg hid]

theorem get?_insert_ok (h : m.insert row = (.ok (), m')) (r : String) (v : UInt16) :
    m'.get? r v = if r = row.objectRef ∧ v = row.version then some row else m.get? r v := by
  unfold insert at h
  split at h
  · cases h
  · cases h
    exact m.get?_place row r v

theorem eq_of_insert_error {e : TableError} (h : m.insert row = (.error e, m')) : m' = m := by
  unfold insert at h
  split at h
  · cases h
    rfl
  · cases h

end MemoryTable

/-! ### Tables -/

namespace Table

variable {t t' : Table} {r s : String} {v w : UInt16} {row : Row}

/-- The answer of a table that does not fail. -/
def peek (t : Table) (r : String) (v : UInt16) : Except TableError (Option Row) :=
  match t with
  | .memory m => .ok (m.get? r v)
  | .trial t => .ok (t.inner.get? r v)
  | .directory d => (d.find r v).1

/-- Whether the table fails at look-ups. -/
def fails : Table → Bool
  | .trial t => t.failReads
  | _ => false

/-- Whether the rows of a table in the memory stand under their own identities. -/
def Filed (t : Table) : Prop :=
  ∀ r v row, t.peek r v = .ok (some row) → row.objectRef = r ∧ row.version = v

theorem find_eq (t : Table) (r : String) (v : UInt16) :
    (t.find r v).1 = if t.fails then .error (.backend "injected read failure") else t.peek r v := by
  cases t with
  | memory m => rfl
  | directory d => rfl
  | trial t =>
    obtain ⟨inner, findCalls, insertCalls, failReads⟩ := t
    cases failReads <;> rfl

@[simp] theorem peek_find (t : Table) (r : String) (v : UInt16) :
    (t.find r v).2.1.peek = t.peek := by
  cases t with
  | memory m => rfl
  | directory d => rfl
  | trial t =>
    simp only [find, TrialTable.find]
    split <;> rfl

@[simp] theorem fails_find (t : Table) (r : String) (v : UInt16) :
    (t.find r v).2.1.fails = t.fails := by
  cases t with
  | memory m => rfl
  | directory d => rfl
  | trial t =>
    simp only [find, TrialTable.find]
    split <;> rfl

theorem peek_of_find {o : Option Row} (h : (t.find r v).1 = .ok o) : t.peek r v = .ok o := by
  rw [find_eq] at h
  split at h
  · cases h
  · exact h

@[simp] theorem fails_insert (t : Table) (row : Row) : (t.insert row).2.fails = t.fails := by
  cases t with
  | memory m => rfl
  | directory d => rfl
  | trial t => rfl

/-- Whether a row is taken depends neither on its time nor on the rows that were taken before. -/
theorem insert_dated_fst (t : Table) (row : Row) (n : Int64) :
    (t.insert (row.dated n)).1 = (t.insert row).1 := by
  have hmemory (m : MemoryTable) : (m.insert (row.dated n)).1 = (m.insert row).1 := by
    simp only [MemoryTable.insert, Row.check_dated]
    split <;> rfl
  cases t with
  | memory m => exact hmemory m
  | trial t => exact hmemory t.inner
  | directory d =>
    have hrecord : (row.dated n).encode?.isNone = row.encode?.isNone := by
      rw [← Option.not_isSome, ← Option.not_isSome, Row.isSome_encode?_dated]
    simp only [insert, Directory.insert_fst, Row.check_dated, hrecord]
    rfl

theorem insert_insert_fst (t : Table) (row row' : Row) :
    ((t.insert row').2.insert row).1 = (t.insert row).1 := by
  have hmemory (m m' : MemoryTable) : (m'.insert row).1 = (m.insert row).1 := by
    simp only [MemoryTable.insert]
    split <;> rfl
  cases t with
  | memory m => exact hmemory _ _
  | trial t => exact hmemory _ _
  | directory d =>
    obtain ⟨hfile, hfolder⟩ :=
      d.unmet_insert row' row.objectRef (Directory.rowName row.version)
    simp only [insert, Directory.insert_fst, hfile, hfolder]

theorem insert_find_fst (t : Table) (r : String) (v : UInt16) (row : Row) :
    ((t.find r v).2.1.insert row).1 = (t.insert row).1 := by
  cases t with
  | memory m => rfl
  | directory d => rfl
  | trial t =>
    simp only [find, TrialTable.find]
    split <;> rfl

/-- A row that is taken is found under its identity, and every other row stays. -/
theorem peek_insert_ok (h : t.insert row = (.ok (), t')) (r : String) (v : UInt16) :
    t'.peek r v =
      if r = row.objectRef ∧ v = row.version then .ok (some row) else t.peek r v := by
  cases t with
  | memory m =>
    cases hm : m.insert row with
    | mk x m' =>
    simp only [insert, hm] at h
    cases h
    simp only [peek, MemoryTable.get?_insert_ok hm]
    split <;> rfl
  | trial t =>
    cases hm : t.inner.insert row with
    | mk x m' =>
    simp only [insert, TrialTable.insert, hm] at h
    cases h
    simp only [peek, MemoryTable.get?_insert_ok hm]
    split <;> rfl
  | directory d =>
    cases hd : d.insert row with
    | mk x d' =>
    simp only [insert, hd] at h
    cases h
    exact Directory.find_insert_ok hd r v

theorem peek_insert_error {e : TableError} (h : t.insert row = (.error e, t')) :
    t'.peek = t.peek := by
  funext r v
  cases t with
  | memory m =>
    cases hm : m.insert row with
    | mk x m' =>
    simp only [insert, hm] at h
    cases h
    simp only [peek, MemoryTable.eq_of_insert_error hm]
  | trial t =>
    cases hm : t.inner.insert row with
    | mk x m' =>
    simp only [insert, TrialTable.insert, hm] at h
    cases h
    simp only [peek, MemoryTable.eq_of_insert_error hm]
  | directory d =>
    cases hd : d.insert row with
    | mk x d' =>
    simp only [insert, hd] at h
    cases h
    simp only [peek, Directory.find_insert_error hd]

theorem peek_insert (t : Table) (row : Row) (r : String) (v : UInt16) :
    (t.insert row).2.peek r v =
      if (r = row.objectRef ∧ v = row.version) ∧ (t.insert row).1.isOk = true then .ok (some row)
      else t.peek r v := by
  cases hins : t.insert row with
  | mk x t' =>
  cases x with
  | ok u => simp [peek_insert_ok hins, Except.isOk, Except.toBool]
  | error e => simp [peek_insert_error hins, Except.isOk, Except.toBool]

/-- The answer of a table that does not fail, with the time of the row left out. -/
def view (t : Table) (r : String) (v : UInt16) : Except TableError (Option Row) :=
  (t.peek r v).map (Option.map fun row => row.dated 0)

@[simp] theorem view_find (t : Table) (r : String) (v : UInt16) :
    (t.find r v).2.1.view = t.view := by
  funext s w
  simp only [view, peek_find]

theorem view_insert (t : Table) (row : Row) (r : String) (v : UInt16) :
    (t.insert row).2.view r v =
      if (r = row.objectRef ∧ v = row.version) ∧ (t.insert row).1.isOk = true then
        .ok (some (row.dated 0))
      else t.view r v := by
  simp only [view, peek_insert]
  split <;> rfl

/-- The operations of a table. -/
inductive Operation
  | find | insert
  deriving DecidableEq

/-- How often an operation was called, if the table counts. -/
def count? : Table → Operation → Option Nat
  | .trial t, .find => some t.findCalls
  | .trial t, .insert => some t.insertCalls
  | _, _ => none

theorem count?_find (t : Table) (r : String) (v : UInt16) (op : Operation) :
    (t.find r v).2.1.count? op = (t.count? op).map (· + if op = .find then 1 else 0) := by
  cases t with
  | memory m => cases op <;> rfl
  | directory d => cases op <;> rfl
  | trial t =>
    simp only [Table.find, TrialTable.find]
    split <;> cases op <;> rfl

theorem count?_insert (t : Table) (row : Row) (op : Operation) :
    (t.insert row).2.count? op = (t.count? op).map (· + if op = .insert then 1 else 0) := by
  cases t with
  | memory m => cases op <;> rfl
  | trial t => cases op <;> rfl
  | directory d => cases op <;> rfl

theorem Filed.insert {x : Except TableError Unit} (h : t.Filed) (hins : t.insert row = (x, t')) :
    t'.Filed := by
  intro r v row' hrow
  cases x with
  | ok u =>
    rw [peek_insert_ok hins] at hrow
    split at hrow
    · next hid => cases hrow; exact ⟨hid.1.symm, hid.2.symm⟩
    · exact h r v row' hrow
  | error e =>
    rw [peek_insert_error hins] at hrow
    exact h r v row' hrow

theorem Filed.place {m : MemoryTable} (h : (Table.memory m).Filed) (row : Row) :
    (Table.memory (m.place row)).Filed := by
  intro r v row' hrow
  simp only [peek, MemoryTable.get?_place] at hrow
  split at hrow
  · next hid => cases hrow; exact ⟨hid.1.symm, hid.2.symm⟩
  · exact h r v row' hrow

/-- Whatever its files hold, a directory answers with rows of the identity it was asked for. -/
theorem filed_directory (d : Directory) : (Table.directory d).Filed :=
  fun _ _ _ h => Directory.eq_of_find h

theorem Filed.find (h : t.Filed) (r : String) (v : UInt16) : (t.find r v).2.1.Filed := by
  intro s w row hrow
  rw [peek_find] at hrow
  exact h s w row hrow

end Table

end ObjectTiers
