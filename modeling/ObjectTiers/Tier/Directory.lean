/-
Directories of files, as far as a table needs them: paths are lists of names, a file holds bytes,
and a folder may be empty. No file lies below a file.
-/
import ObjectTiers.Bytes
import ObjectTiers.Dictionary

namespace ObjectTiers

/-- The names on the way to a file, from the whole directory down. -/
abbrev Path := List String

/-- The files with their bytes, and the folders that were made. -/
structure Directory where
  files : Dictionary Path Bytes
  folders : List Path

namespace Directory

/-- No files and no folders. -/
def empty : Directory := ⟨.empty, []⟩

/-- What keeps a file from being read. -/
inductive ReadFault
  | missing
  | other
  deriving DecidableEq, Repr

/-- The proper starts of a path, the whole directory apart. -/
def parents (p : Path) : List Path := ((List.range p.length).map p.take).filter fun q => !q.isEmpty

/-- Whether a file stands at a path. -/
def isFile (d : Directory) (p : Path) : Bool := d.files.contains p

/-- Whether a folder stands at a path: the whole, one that was made, or one above a file. -/
def isFolder (d : Directory) (p : Path) : Bool :=
  p.isEmpty || d.folders.contains p || d.files.keys.any fun q => (parents q).contains p

/-- Whether a file stands where a folder is needed to reach the path. -/
def isBlocked (d : Directory) (p : Path) : Bool := (parents p).any d.isFile

/-- The bytes of a file. A file is missing only where one could be written. -/
def read (d : Directory) (p : Path) : Except ReadFault Bytes :=
  if d.isBlocked p || d.isFolder p then .error .other
  else match d.files.get? p with
    | some b => .ok b
    | none => .error .missing

/-- The directory with a folder and all above it; none if a file is in the way. -/
def makeFolder? (d : Directory) (p : Path) : Option Directory :=
  if d.isBlocked p || d.isFile p then none
  else some { d with
    folders := d.folders ++ (parents p ++ [p]).filter fun q => !d.folders.contains q }

/-- The directory with a file in the place of what was there; none if that is a folder, or a file
is in the way. -/
def write? (d : Directory) (p : Path) (b : Bytes) : Option Directory :=
  if d.isBlocked p || d.isFolder p then none
  else some { d with
    files := d.files.insert p b,
    folders := d.folders ++ (parents p).filter fun q => !d.folders.contains q }

/-- Copies a file, and tells whether that was done. The folder it goes into is made first, and
stays if there is nothing to copy. The target is emptied before the source is read, so a file
copied onto itself ends up empty. -/
def copy (d : Directory) (source target : Path) : Bool × Directory :=
  let made := if target.length ≤ 1 then some d else d.makeFolder? target.dropLast
  match made with
  | none => (false, d)
  | some d =>
    match d.read source with
    | .error _ => (false, d)
    | .ok b =>
      match d.write? target (if source = target then [] else b) with
      | none => (false, d)
      | some d => (true, d)

/-- All files with their sizes. -/
def sizes (d : Directory) : List (Path × Nat) := d.files.pairs.map fun f => (f.1, f.2.length)

end Directory

end ObjectTiers
