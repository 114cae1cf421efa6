import FormatServer.Document.Store
import FormatServer.Formatter.Error
import FormatServer.Formatter.Process
import FormatServer.Formatter.TemporaryFile

/-!
One formatting run: the text is written to a temporary file, a process rewrites the file, and the new
content becomes an edit. However a run ends, its temporary file is removed.
-/

namespace FormatServer

/-- The importance of a log entry. -/
inductive LogLevel where
  | error
  | warning
  | info
  | log
  deriving DecidableEq, Repr

def LogLevel.number : LogLevel → Nat
  | error => 1
  | warning => 2
  | info => 3
  | log => 4

/-- What a run does that others see. -/
inductive RunEvent where
  | logged (level : LogLevel) (text : String)
  /-- a process was started with these words and this content of its file -/
  | spawned (command : List String) (content : List UInt8)
  /-- a process and all it started were sent the signal to end at once -/
  | killed (pid : Nat)
  /-- a process was sent this signal alone -/
  | stopped (pid : Nat)
  /-- a process was not sent this signal, alone or with all it started, because that is forbidden -/
  | spared (pid : Nat) (group : Bool)
  deriving DecidableEq, Repr

/-- A failure of a run that is no formatting error. -/
inductive Crash where
  | uri (cause : Uri.Error)
  | nullByte
  | line (cause : Overrun)
  /-- the process may not be killed -/
  | forbidden
  deriving DecidableEq, Repr

/-- The text of the error with which the system forbids to send a signal. -/
def notPermitted : String := systemErrorNotice 1

namespace Crash

def kind : Crash → String
  | forbidden => "PermissionError"
  | _ => "ValueError"

def message : Crash → String
  | uri cause => cause.message
  | nullByte => "embedded null byte"
  | line cause => cause.message
  | forbidden => notPermitted

end Crash

/-- Why a process is told to end. -/
inductive Farewell where
  /-- the time of its request is up -/
  | expired
  /-- its request is withdrawn -/
  | withdrawn
  /-- its request is withdrawn before its output is connected -/
  | unconnected
  deriving DecidableEq, Repr

/-- A replacement of a range of a document. -/
structure TextEdit where
  range : TextRange
  text : String
  deriving DecidableEq, Repr

/-- How a run ends. -/
inductive Outcome where
  | edits (edits : List TextEdit)
  | failed (e : FormatError)
  | crashed (c : Crash)
  deriving DecidableEq, Repr

/-- What a run is asked to do. -/
structure FormatRequest where
  uri : String
  range : Option TextRange := none
  settings : Settings
  deriving DecidableEq, Repr

/-- What a run works with: the open documents, the client's units, the directory of temporary files, the
token of this run's file, and what happens when the formatter is started. -/
structure RunContext where
  store : DocumentStore
  encoding : Text.Encoding
  directory : Path
  token : String
  pid : Nat
  script : Script

/-- A run whose process is under way. -/
structure Run where
  request : FormatRequest
  /-- the range of the edit -/
  range : TextRange
  process : Process
  deriving DecidableEq, Repr

/-- The end of a run, or its process under way; what it did on the disk; and its events. -/
structure Stage (α : Type) where
  result : α
  disk : Disk
  events : List RunEvent := []

/-- Removes a temporary file. Nothing is said when it is gone already. -/
def cleanUp (d : Disk) (p : Path) : Disk × List RunEvent :=
  match d.remove p with
  | .ok d => (d, [])
  -- The process may have removed its file.
  | .error .notFound => (d, [])
  | .error e => (d, [.logged .warning ("Could not remove " ++ p.toString ++ ": " ++ e.message p)])

/-- Ends a run: its temporary file is removed after the events so far. -/
def endWith {α : Type} (result : α) (d : Disk) (p : Path) (events : List RunEvent) : Stage α :=
  let (d, warnings) := cleanUp d p
  ⟨result, d, events ++ warnings⟩

/-- The words that start a formatter on a file. -/
def commandLine (s : Settings) (p : Path) : List String := s.command ++ [p.toString]

/-- Starts the process of a run whose temporary file is written. -/
def spawn (c : RunContext) (r : FormatRequest) (range : TextRange) (p : Path) (d : Disk)
    (events : List RunEvent) : Stage (Except Outcome Run) :=
  match r.settings.command with
  | [] => endWith (.error (.failed (.spawn [] "no formatter command configured"))) d p events
  | program :: _ =>
    -- The system is not even asked to run such a command.
    if r.settings.command.any (·.toList.contains '\x00') then
      endWith (.error (.crashed .nullByte)) d p events
    else
      let command := commandLine r.settings p
      let events := events ++ [.spawned command ((d.read p).toOption.getD [])]
      match c.script.refusal with
      | some number =>
        endWith (.error (.failed (.spawn command (systemErrorMessage number program)))) d p events
      | none =>
        ⟨.ok ⟨r, range, { pid := c.pid, path := p, killing := c.script.killing }⟩, d, events⟩

/-- Starts a run: writes the text to its temporary file and starts the process. -/
def start (c : RunContext) (r : FormatRequest) (d : Disk) : Stage (Except Outcome Run) :=
  match c.store.find? r.uri with
  | none => ⟨.error (.failed (.documentNotFound r.uri)), d, []⟩
  | some document =>
    match temporaryPath c.directory r.settings c.token r.uri with
    | .error e => ⟨.error (.crashed (.uri e)), d, []⟩
    | .ok p =>
      let text := document.textIn c.encoding r.range
      -- Without a range the whole document is replaced.
      let range := r.range.getD (document.fullRange c.encoding)
      let events := [.logged .log ("Formatting " ++ r.uri ++ " using " ++ p.toString)]
      -- Such a name reaches no disk, so there is nothing to remove.
      if p.chars.contains '\x00' then ⟨.error (.crashed .nullByte), d, events⟩
      else match d.write p (Text.Utf8.encode text) with
        | .error e => endWith (.error (.failed (.temporaryFile p.toString (e.message p)))) d p events
        | .ok d => spawn c r range p d events

def outputEvents (logs : List String) : List RunEvent := logs.map (.logged .log)

namespace Run

/-- Reads the new text back from the temporary file. -/
def readBack (r : Run) (d : Disk) : Outcome :=
  let p := r.process.path
  match d.read p with
  | .error e => .failed (.temporaryFile p.toString (e.message p))
  | .ok content =>
    match Text.Utf8.decode content with
    | .error e => .failed (.temporaryFile p.toString e.message)
    | .ok text => .edits [⟨r.range, String.ofList text⟩]

/-- Ends a run whose process has ended. -/
def conclude (r : Run) (d : Disk) : Stage Outcome :=
  let code := r.process.exitCode
  let events := [.logged .log ("Formatter exited with code " ++ writtenInt code)]
  let outcome :=
    if code ≠ 0 then .failed (.failed code (String.ofList r.process.diagnostics))
    else r.readBack d
  endWith outcome d r.process.path events

/-- The signal that a process is sent to end: with all it started, except when its output is not connected. -/
def signal (r : Run) : Farewell → RunEvent
  | .unconnected => .stopped r.process.pid
  | .expired | .withdrawn => .killed r.process.pid

/-- The log entry about a process that was killed and has ended. -/
def killNotice (r : Run) : RunEvent :=
  .logged .warning ("Formatter process " ++ toString r.process.pid ++ " killed")

/-- Ends a run that is out of time and whose process has been killed. -/
def timeOut (r : Run) (d : Disk) : Stage Outcome :=
  endWith (.failed (.timeout r.request.settings.timeout)) d r.process.path [r.killNotice]

/-- Ends a run that is no longer wanted and whose process has been killed. -/
def abandon (r : Run) (d : Disk) : Stage Unit :=
  endWith () d r.process.path [r.killNotice]

/-- Ends a run that is no longer wanted, without a word about its process. -/
def leave (r : Run) (d : Disk) : Stage Unit :=
  endWith () d r.process.path []

/-- Ends a run whose process may not be told to end. The process goes on. -/
def spare (r : Run) (d : Disk) : Farewell → Stage Outcome
  | .unconnected =>
    -- Here the error counts as one of starting the process.
    let command := commandLine r.request.settings r.process.path
    endWith (.failed (.spawn command notPermitted)) d r.process.path [.spared r.process.pid false]
  | .expired | .withdrawn =>
    endWith (.crashed .forbidden) d r.process.path [.spared r.process.pid true]

/-- Ends a run whose time is up, with nothing else going on. -/
def expire (r : Run) (d : Disk) : Stage Outcome :=
  if r.process.killable then
    let s := r.timeOut d
    { s with events := r.signal .expired :: s.events }
  else r.spare d .expired

/-- Ends a run one of whose lines was too long. The process goes on. -/
def overrun (r : Run) (d : Disk) (cause : Overrun) : Stage Outcome :=
  endWith (.crashed (.line cause)) d r.process.path []

/-- Reads the ends of the output of a run. -/
def close (r : Run) : Run × List RunEvent :=
  let (p, logs) := r.process.close
  ({ r with process := p }, outputEvents logs)

end Run

/-- What a process says and does after its run has ended, up to its next pause. -/
def afterRun (p : Process) (d : Disk) : List ScriptStep → Disk × List RunEvent
  | [] => (d, outputEvents p.close.2)
  | .sleep _ :: _ | .hang :: _ => (d, [])
  | step :: rest =>
    let done := p.perform d step
    let (d, events) := afterRun done.process done.disk rest
    (d, outputEvents done.logs ++ events)

/-- Ends a run whose time is up before these steps. A process that may not be killed takes them all the same. -/
def Run.expireBefore (r : Run) (d : Disk) (steps : List ScriptStep) : Stage Outcome :=
  let s := r.expire d
  if r.process.killable then s else { s with disk := (afterRun r.process s.disk steps).1 }

/-- The least difference that the clock tells apart: a billionth of a second. -/
def clockResolution : Nat := ((Binary64.ofDecimal false 1 (-9)).ticks?).getD 0

/-- The time is up before a pause is over. -/
def runsOut (left pause : Nat) : Bool := left < pause + clockResolution

/-- Plays a process's steps with so many ticks left until the time is up. -/
def play (r : Run) (d : Disk) (left : Nat) : List ScriptStep → Stage Outcome
  | [] =>
    let (r, events) := r.close
    let s := r.conclude d
    { s with events := events ++ s.events }
  | .hang :: _ => r.expire d
  | .sleep ticks :: rest =>
    -- Of two ends at one moment the time limit comes first.
    if runsOut left ticks then r.expire d else play r d (left - ticks) rest
  | step :: rest =>
    let done := r.process.perform d step
    let r := { r with process := done.process }
    match done.overrun with
    | some cause =>
      -- The run is over, but the process says what it still has to say.
      let s := r.overrun done.disk cause
      let (d, events) := afterRun r.process s.disk rest
      ⟨s.result, d, outputEvents done.logs ++ s.events ++ events⟩
    | none =>
      let s := play r done.disk left rest
      { s with events := outputEvents done.logs ++ s.events }

/-- Formats a document: a whole run with nothing else going on. -/
def format (c : RunContext) (r : FormatRequest) (d : Disk) : Stage Outcome :=
  let started := start c r d
  match started.result with
  | .error outcome => ⟨outcome, started.disk, started.events⟩
  | .ok run =>
    let left := r.settings.timeout.ticks?.getD 0
    let s :=
      -- A limit below the clock's resolution is up before the first step.
      if runsOut left 0 then run.expireBefore started.disk c.script.steps
      else play run started.disk left c.script.steps
    { s with events := started.events ++ s.events }

end FormatServer
