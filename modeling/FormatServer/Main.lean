import FormatServer.CommandLine.Launch
import FormatServer.Protocol.Frame
import FormatServer.Protocol.Reading
import FormatServer.Session.Step

/-!
The program: it reads the command line and, over the standard streams, serves one client. It starts no
processes of its own, so every formatter is refused as the system refuses what it does not offer.
-/

namespace FormatServer.Program

/-- Reads the head of a frame: the length of the body, or nothing when the input has ended. -/
partial def readHead (input : IO.FS.Stream) (length : Nat) : IO (Option Nat) := do
  let line ← input.getLine
  if line.isEmpty then return none
  if Frame.endsHead line then return some length
  readHead input ((Frame.length? line).getD length)

/-- Reads so many bytes, or what there is. -/
partial def readBody (input : IO.FS.Stream) (length : Nat) (found : ByteArray) : IO ByteArray := do
  if length ≤ found.size then return found
  let more ← input.read (USize.ofNat (length - found.size))
  if more.isEmpty then return found
  readBody input length (found ++ more)

/-- Writes what a session has sent since an earlier state. -/
def writeSent (output : IO.FS.Stream) (s old : Session) : IO Unit := do
  for e in s.since old do
    match e with
    | .sent m => output.putStr (Frame.ofValue m.toValue)
    | _ => pure ()
  output.flush

/-- Serves a client until its input or the session ends; the exit code. -/
partial def serve (input output : IO.FS.Stream) (s : Session) : IO UInt32 := do
  match ← readHead input 0 with
  | none => return 0
  | some length =>
    let body ← readBody input length ByteArray.empty
    let message := Incoming.ofText (Text.Utf8.decodeLossy body.toList)
    let next := if body.isEmpty then s else s.deliver [message]
    writeSent output next s
    match next.trace.getLast? with
    | some (.ended code) => return UInt32.ofNat code
    | _ => serve input output next

/-- The number of the error of a service that the system does not offer. -/
def notOffered : Int := 38

/-- Does what a command line asks for; the exit code. -/
def run (l : CommandLine.Launch) : IO UInt32 := do
  match l with
  | .exit code out err =>
    IO.print out
    IO.eprint err
    return UInt32.ofNat code
  | .breakOff kind text =>
    IO.eprintln (kind ++ ": " ++ text)
    return 1
  | .serve (.tcp _ _) _ _ =>
    IO.eprintln "TCP is not available"
    return 1
  | .serve .streams overrides _ =>
    let directory := Path.ofString "/tmp"
    let disk : Disk := { entries := [(directory.parts, .directory)] }
    match Session.start overrides directory id disk with
    | .error e =>
      IO.eprintln e.message
      return 2
    | .ok s =>
      serve (← IO.getStdin) (← IO.getStdout) { s with script := { refusal := some notOffered } }

end FormatServer.Program

def main (args : List String) : IO UInt32 := do
  let environment ← IO.getEnv "FMTBRIDGE_FORMATTER"
  FormatServer.Program.run (FormatServer.CommandLine.launch environment args)
