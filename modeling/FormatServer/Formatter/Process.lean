import FormatServer.Formatter.LineReader
import FormatServer.Formatter.Script

/-!
A formatter process under way: its output is read line by line, and what it says on stderr is kept.
-/

namespace FormatServer

structure Process where
  pid : Nat
  /-- the file it was given -/
  path : Path
  stdout : LineReader := {}
  stderr : LineReader := {}
  /-- the text of the lines read from stderr -/
  diagnostics : List Char := []
  exitCode : Int := 0
  /-- what comes of an attempt to kill it -/
  killing : Killing := {}
  deriving DecidableEq, Repr

namespace Process

/-- A process may be sent signals. -/
def killable (p : Process) : Bool := p.killing.answer ≠ .forbidden

def logEntry (stream : OutputStream) (line : List UInt8) : String :=
  stream.name ++ ": " ++ loggedLine line

def keep (p : Process) (stream : OutputStream) (lines : List (List UInt8)) : Process :=
  match stream with
  | .stdout => p
  | .stderr => { p with diagnostics := p.diagnostics ++ lines.flatMap Text.Utf8.decodeLossy }

def reader (p : Process) : OutputStream → LineReader
  | .stdout => p.stdout
  | .stderr => p.stderr

def setReader (p : Process) (stream : OutputStream) (r : LineReader) : Process :=
  match stream with
  | .stdout => { p with stdout := r }
  | .stderr => { p with stderr := r }

/-- What comes of some output: the process, its log entries, and an overrun if a line was too long. -/
structure Heard where
  process : Process
  logs : List String
  overrun : Option Overrun

/-- Reads a chunk of output. -/
def hear (p : Process) (stream : OutputStream) (bytes : List UInt8) : Heard :=
  let f := (p.reader stream).feed bytes
  { process := (p.setReader stream f.reader).keep stream f.lines
    logs := f.lines.map (logEntry stream)
    overrun := f.overrun }

def hearEnd (p : Process) (stream : OutputStream) : Process × List String :=
  let (r, lines) := (p.reader stream).finish
  ((p.setReader stream r).keep stream lines, lines.map (logEntry stream))

/-- Reads the ends of both streams, stdout first. -/
def close (p : Process) : Process × List String :=
  let (p, out) := p.hearEnd .stdout
  let (p, err) := p.hearEnd .stderr
  (p, out ++ err)

/-- What comes of a step that takes no time. -/
structure Performed where
  process : Process
  disk : Disk
  logs : List String := []
  overrun : Option Overrun := none

/-- Performs a step. Pauses do nothing here. -/
def perform (p : Process) (d : Disk) : ScriptStep → Performed
  | .output stream bytes =>
    let h := p.hear stream bytes
    { process := h.process, disk := d, logs := h.logs, overrun := h.overrun }
  | .change c => { process := p, disk := d.change p.path c }
  | .exit code => { process := { p with exitCode := code }, disk := d }
  | .sleep _ | .hang => { process := p, disk := d }

end Process

end FormatServer
