/-
Tier 2: rows under their identities. Three tables offer the same two operations: `MemoryTable`,
`TrialTable` around it, which counts calls and fails when told to, and a directory with one file
a row, `<ref>/<version>.row`.
-/
import ObjectTiers.Record.Row
import ObjectTiers.Tier
import ObjectTiers.Tier.Directory

namespace ObjectTiers

/-- Why a table does not do what it is asked. -/
inductive TableError
  | io
  | serialization
  | invariant (fault : RowFault)
  | backend (reason : String)
  deriving DecidableEq, Repr

/-- The text of an error; the first two carry words of the operating system and the codec. -/
def TableError.message? : TableError → Option String
  | .io => none
  | .serialization => none
  | .invariant fault => some ("row invariant violated: " ++ fault.message)
  | .backend reason => some s!"table backend error: {reason}"

/-- Rows in the process, under their references and versions. -/
structure MemoryTable where
  rows : Dictionary (String × UInt16) Row

namespace MemoryTable

/-- A table without rows. -/
def empty : MemoryTable := ⟨.empty⟩

/-- The row of an identity, valid or not. -/
def get? (t : MemoryTable) (r : String) (v : UInt16) : Option Row := t.rows.get? (r, v)

/-- Puts a row under its own identity, unchecked. -/
def place (t : MemoryTable) (row : Row) : MemoryTable :=
  ⟨t.rows.insert (row.objectRef, row.version) row⟩

/-- The number of rows. -/
def size (t : MemoryTable) : Nat := t.rows.size

/-- Takes a row that passes its check. -/
def insert (t : MemoryTable) (row : Row) : Except TableError Unit × MemoryTable :=
  match row.check with
  | .error fault => (.error (.invariant fault), t)
  | .ok () => (.ok (), t.place row)

/-- The versions of a reference in ascending order. -/
def versions (t : MemoryTable) (r : String) : List UInt16 :=
  ((t.rows.keys.filter fun k => k.1 == r).map (·.2)).mergeSort fun a b => a ≤ b

end MemoryTable

/-- A table to try things on: it counts calls, and fails at look-ups when told to. -/
structure TrialTable where
  inner : MemoryTable
  findCalls : Nat
  insertCalls : Nat
  failReads : Bool

namespace TrialTable

/-- A table that was never called and fails at nothing. -/
def empty : TrialTable := ⟨.empty, 0, 0, false⟩

/-- Starts the counts of calls anew. -/
def resetCalls (t : TrialTable) : TrialTable := { t with findCalls := 0, insertCalls := 0 }

/-- The row of an identity, unless it is told to fail at that. -/
def find (t : TrialTable) (r : String) (v : UInt16) :
    Except TableError (Option Row) × TrialTable :=
  let t := { t with findCalls := t.findCalls + 1 }
  if t.failReads then (.error (.backend "injected read failure"), t)
  else (.ok (t.inner.get? r v), t)

/-- Takes a row that passes its check; the call counts either way. -/
def insert (t : TrialTable) (row : Row) : Except TableError Unit × TrialTable :=
  let (result, inner) := t.inner.insert row
  (result, { t with inner, insertCalls := t.insertCalls + 1 })

end TrialTable

namespace Directory

/-- The file of a row, as a path below the directory. -/
def rowPath (r : String) (v : UInt16) : Except TableError Path :=
  match Identity.validate r v with
  | .error e => .error (.invariant (.identity e))
  | .ok _ =>
    .ok [r, String.ofList (Text.paddedDigits Identity.versionWidth v.toNat) ++ ".row"]

/-- A path as messages name it. -/
def pathText (p : Path) : String := String.intercalate "/" ("<root>" :: p)

/-- The row of an identity; a row of another identity in its place is an error. -/
def find (d : Directory) (r : String) (v : UInt16) :
    Except TableError (Option Row) × List Warning :=
  match rowPath r v with
  | .error e => (.error e, [])
  | .ok path =>
    match d.read path with
    | .error .missing => (.ok none, [])
    | .error .other => (.error .io, [])
    | .ok bytes =>
      match Row.ofBytes? bytes with
      | none => (.error .serialization, [])
      | some row =>
        if row.objectRef = r ∧ row.version = v then (.ok (some row), [])
        else
          (.error (.invariant (.misplaced (pathText path) row.objectRef row.version)),
            [.misplacedRow])

/-- Writes a row into its file. Its folder is made first, and stays if the row has no record or the
file cannot be put into place. -/
def insert (d : Directory) (row : Row) : Except TableError Unit × Directory :=
  match row.check with
  | .error fault => (.error (.invariant fault), d)
  | .ok () =>
    match rowPath row.objectRef row.version with
    | .error e => (.error e, d)
    | .ok path =>
      match d.makeFolder? [row.objectRef] with
      | none => (.error .io, d)
      | some d =>
        match row.encode? with
        | none => (.error .serialization, d)
        | some bytes =>
          match d.write? path bytes with
          | none => (.error .io, d)
          | some d => (.ok (), d)

end Directory

/-- The tables that a store may have. -/
inductive Table
  | memory (t : MemoryTable)
  | trial (t : TrialTable)
  | directory (d : Directory)

namespace Table

/-- The row of an identity, the table afterwards, and the warnings given. -/
def find (t : Table) (r : String) (v : UInt16) :
    Except TableError (Option Row) × Table × List Warning :=
  match t with
  | .memory m => (.ok (m.get? r v), .memory m, [])
  | .trial t => let (result, t) := t.find r v; (result, .trial t, [])
  | .directory d => let (result, ws) := d.find r v; (result, .directory d, ws)

/-- Takes a row, in the place of one with the same identity. -/
def insert (t : Table) (row : Row) : Except TableError Unit × Table :=
  match t with
  | .memory m => let (result, m) := m.insert row; (result, .memory m)
  | .trial t => let (result, t) := t.insert row; (result, .trial t)
  | .directory d => let (result, d) := d.insert row; (result, .directory d)

end Table

end ObjectTiers
