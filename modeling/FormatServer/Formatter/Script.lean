import FormatServer.Disk

/-!
What a formatter process does: a script of output, changes to its file, pauses and an exit code.
-/

namespace FormatServer

/-- The two streams of a process's output. -/
inductive OutputStream where
  | stdout
  | stderr
  deriving DecidableEq, Repr

def OutputStream.name : OutputStream → String
  | stdout => "stdout"
  | stderr => "stderr"

/-- A change that a formatter makes to its file. -/
inductive FileChange where
  | write (content : List UInt8)
  | append (content : List UInt8)
  | replace (old new : List UInt8)
  | delete
  | makeDirectory
  deriving DecidableEq, Repr

/-- A step of a script. -/
inductive ScriptStep where
  | output (stream : OutputStream) (bytes : List UInt8)
  | change (c : FileChange)
  | exit (code : Int)
  /-- a pause, in ticks of the clock -/
  | sleep (ticks : Nat)
  /-- a pause without end -/
  | hang
  deriving DecidableEq, Repr

/-- What the system answers when a process is to be sent the signal to end at once. -/
inductive KillAnswer where
  | sent
  /-- there is no such process any more -/
  | gone
  /-- the process may not be sent signals -/
  | forbidden
  deriving DecidableEq, Repr

/-- How a process goes down: the system's answer, and the turns that pass until it has ended. -/
structure Killing where
  answer : KillAnswer := .sent
  turns : Nat := 0
  deriving DecidableEq, Repr

/-- What happens when a formatter is started: the system's error, or the steps of its process. -/
structure Script where
  refusal : Option Int := none
  /-- the turns that pass until the output of the process is connected -/
  startup : Nat := 0
  steps : List ScriptStep := []
  killing : Killing := {}
  deriving DecidableEq, Repr

/-- Replaces every occurrence of a sequence of bytes, from the left, by another. An empty sequence occurs
around every byte. -/
def replaceBytes (old new : List UInt8) : Nat → List UInt8 → List UInt8
  | 0, bytes => bytes
  | _ + 1, [] => if old.isEmpty then new else []
  | fuel + 1, b :: rest =>
    if old.isEmpty then new ++ b :: replaceBytes old new fuel rest
    else if old.isPrefixOf (b :: rest) then
      new ++ replaceBytes old new fuel ((b :: rest).drop old.length)
    else b :: replaceBytes old new fuel rest

/-- The entry that a change leaves in the place of another. -/
def FileChange.apply (c : FileChange) (e : Option FileEntry) : Option FileEntry :=
  match c, e with
  | .write content, none | .write content, some (.file _) => some (.file content)
  | .append content, none => some (.file content)
  | .append content, some (.file old) => some (.file (old ++ content))
  | .replace old new, some (.file content) =>
    some (.file (replaceBytes old new (content.length + 1) content))
  | .delete, some (.file _) => none
  | .makeDirectory, _ => some .directory
  | _, e => e

/-- The disk after a change to the file at a path. -/
def Disk.change (d : Disk) (p : Path) (c : FileChange) : Disk :=
  match d.locate p with
  | .error _ => d
  | .ok l =>
    match c.apply (d.find? l) with
    | none => d.erase l
    | some e => d.put l e

end FormatServer
