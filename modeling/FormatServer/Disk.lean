import FormatServer.Path
import FormatServer.SystemError
import FormatServer.Text.Utf8

/-!
Files and directories. A place is the list of names that leads to it from the root; every operation
resolves a path to its place and says why it cannot when a name is missing, too long, or no directory.
-/

namespace FormatServer

/-- What stands at a place. -/
inductive FileEntry where
  | file (content : List UInt8)
  | directory
  deriving DecidableEq, Repr

/-- A place: the names that lead to it. -/
abbrev Location := List (List Char)

/-- Why an operation on a path fails. -/
inductive DiskError where
  | notFound
  | notDirectory
  | isDirectory
  | nameTooLong
  deriving DecidableEq, Repr

namespace DiskError

def number : DiskError → Nat
  | notFound => 2
  | notDirectory => 20
  | isDirectory => 21
  | nameTooLong => 36

/-- The text of an error at a path. -/
def message (e : DiskError) (p : Path) : String := systemErrorMessage e.number p.toString

end DiskError

/-- The files and directories by their places. -/
structure Disk where
  entries : List (Location × FileEntry) := []
  deriving DecidableEq, Repr

namespace Disk

/-- What stands at a place. The root is a directory. -/
def find? (d : Disk) (l : Location) : Option FileEntry :=
  if l = [] then some .directory else d.entries.lookup l

def erase (d : Disk) (l : Location) : Disk := ⟨d.entries.filter (·.1 ≠ l)⟩

def put (d : Disk) (l : Location) (e : FileEntry) : Disk := ⟨(l, e) :: (d.erase l).entries⟩

def countIn (d : Disk) (l : Location) : Nat :=
  (d.entries.filter fun (place, _) => place ≠ [] ∧ place.dropLast = l).length

def nameLimit : Nat := 255

def pathLimit : Nat := 4095

/-- Follows names from a place. Two points lead back. -/
def follow (d : Disk) (l : Location) : List (List Char) → Except DiskError Location
  | [] => .ok l
  | name :: rest =>
    match d.find? l with
    | none => .error .notFound
    -- A file has nothing in it, not even the way back.
    | some (.file _) => .error .notDirectory
    | some .directory =>
      if name = ['.', '.'] then d.follow l.dropLast rest
      else if nameLimit < (Text.Utf8.encode name).length then .error .nameTooLong
      else d.follow (l ++ [name]) rest

/-- The place of a path. -/
def locate (d : Disk) (p : Path) : Except DiskError Location :=
  if pathLimit < (Text.Utf8.encode p.chars).length then .error .nameTooLong
  else d.follow [] p.parts

def write (d : Disk) (p : Path) (content : List UInt8) : Except DiskError Disk := do
  let l ← d.locate p
  match d.find? l with
  | some .directory => throw .isDirectory
  | _ => return d.put l (.file content)

def read (d : Disk) (p : Path) : Except DiskError (List UInt8) := do
  match d.find? (← d.locate p) with
  | none => throw .notFound
  | some .directory => throw .isDirectory
  | some (.file content) => return content

def remove (d : Disk) (p : Path) : Except DiskError Disk := do
  let l ← d.locate p
  match d.find? l with
  | none => throw .notFound
  | some .directory => throw .isDirectory
  | some (.file _) => return d.erase l

/-- The entry that a path leads to, if it leads to one. -/
def entryAt? (d : Disk) (p : Path) : Option FileEntry :=
  match d.locate p with
  | .ok l => d.find? l
  | .error _ => none

end Disk

end FormatServer
