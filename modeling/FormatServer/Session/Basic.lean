import FormatServer.Protocol.Outgoing
import FormatServer.Schedule.TimerHeap
import FormatServer.Settings.File

/-!
The state of a session with one client, and what the session has done so far.

Work is done in turns. A turn is short and does not wait; what it leaves to do becomes another turn, at
the end of the queue, or a timer. So every formatting request is a job that goes through phases, one
turn each, while other jobs take their turns in between.
-/

namespace FormatServer

/-- How a client answers a request for settings. -/
inductive ClientReply where
  | result (v : Value)
  | error (v : Value)
  | never
  deriving Repr

/-- An answer to a request for settings that could be read. -/
inductive ClientAnswer where
  /-- the settings of the one document that was asked for -/
  | settings (v : Value)
  | error (e : ResponseError)
  deriving Repr

/-- Where a formatting request stands. -/
inductive Phase where
  /-- it has not begun -/
  | accepted
  /-- the client was asked for settings -/
  | asking
  /-- the client has answered -/
  | answered (a : ClientAnswer)
  /-- the process was started, and so many turns pass until its output is connected -/
  | starting (run : Run) (steps : List ScriptStep) (turns : Nat)
  /-- the process is about to take a step -/
  | playing (run : Run) (steps : List ScriptStep)
  /-- the process pauses before its next step -/
  | pausing (run : Run) (steps : List ScriptStep)
  /-- the process was told to end, and so many turns pass until it has -/
  | ending (run : Run) (why : Farewell) (turns : Nat)
  /-- the process has ended, and its output was read -/
  | closed (run : Run)
  /-- the request is done, and its response is to be sent -/
  | done (r : Response)

/-- A formatting request under way. -/
structure Job where
  number : Nat
  id : RequestId
  uri : String
  range : Option TextRange
  phase : Phase := .accepted
  /-- the client has withdrawn the request -/
  cancelled : Bool := false

/-- A process whose request has ended without it. -/
structure Orphan where
  process : Process
  steps : List ScriptStep
  /-- its output is still read -/
  heard : Bool := true

/-- Something to do in a turn. -/
inductive Turn where
  /-- the next phase of a job -/
  | advance (job : Nat)
  /-- the client's answer to a job's request for settings arrives -/
  | reply (job : Nat) (r : ClientReply)
  /-- the pause of a job's process is over -/
  | wake (job : Nat)
  /-- the time of a job is up -/
  | expire (job : Nat)
  /-- the next step of a process without a job -/
  | orphan (pid : Nat)
  | opened (uri : String)
  | closed (uri : String)

/-- What a session does that others see. -/
inductive SessionEvent where
  | sent (m : Outgoing)
  | spawned (command : List String) (content : List UInt8)
  | killed (pid : Nat)
  | stopped (pid : Nat)
  | spared (pid : Nat) (group : Bool)
  | ended (code : Nat)
  deriving Repr

/-- The open documents, and the units in which the client counts characters. -/
structure Workspace where
  store : DocumentStore := {}
  units : Text.Encoding
  deriving Repr

/-- How far a session has come. -/
inductive SessionStatus where
  | running
  | shutDown
  | ended
  deriving DecidableEq, Repr

structure Session where
  /-- settings that win over those of the workspace's file -/
  overrides : Value := .map []
  /-- where temporary files are written -/
  directory : Path
  /-- the numbers that the system gives to processes, in the order in which they are started -/
  pids : Nat → Nat := id
  disk : Disk
  /-- nothing before the handshake -/
  workspace : Option Workspace := none
  cache : SettingsCache
  /-- the client answers requests for settings -/
  configuration : Bool := false
  /-- the client tells of changes of its workspace folders -/
  folderEvents : Bool := false
  /-- changes of the workspace folders are logged -/
  watchesFolders : Bool := false
  status : SessionStatus := .running
  /-- what processes do that are started from now on -/
  script : Script := {}
  /-- how the client answers from now on -/
  reply : ClientReply := .result (.list [])
  /-- the time, in ticks -/
  now : Nat := 0
  timers : TimerHeap Turn := {}
  /-- turns to be taken, the next one in front -/
  ready : List Turn := []
  jobs : List Job := []
  /-- the jobs that can be withdrawn by an identifier -/
  withdrawable : List (RequestId × Nat) := []
  orphans : List Orphan := []
  nextJob : Nat := 0
  /-- the processes that were started -/
  launched : Nat := 0
  nextToken : Nat := 0
  /-- all that the session has done -/
  trace : List SessionEvent := []

namespace Session

def emit (s : Session) (e : SessionEvent) : Session := { s with trace := s.trace ++ [e] }

def send (s : Session) (m : Outgoing) : Session := s.emit (.sent m)

def log (s : Session) (level : LogLevel) (text : String) : Session := s.send (.log level text)

/-- Shows the user that a notification could not be handled. -/
def alert (s : Session) (kind text : String) : Session := s.send (.alert (kind ++ ": " ++ text))

def respond (s : Session) (id : RequestId) (r : Response) : Session := s.send (.response id r)

/-- The event of a session that an event of a run is. -/
def eventOf : RunEvent → SessionEvent
  | .logged level text => .sent (.log level text)
  | .spawned command content => .spawned command content
  | .killed pid => .killed pid
  | .stopped pid => .stopped pid
  | .spared pid group => .spared pid group

/-- Takes over what a run did on the disk, and its events. -/
def absorb (s : Session) (d : Disk) (events : List RunEvent) : Session :=
  { s with disk := d, trace := s.trace ++ events.map eventOf }

/-- Puts a turn at the end of the queue. -/
def enqueue (s : Session) (t : Turn) : Session := { s with ready := s.ready ++ [t] }

def schedule (s : Session) (delay : Nat) (t : Turn) : Session :=
  { s with timers := s.timers.push ⟨Binary64.roundTicks (s.now + delay) 1, t⟩ }

/-- The number of the process that is started next. -/
def nextPid (s : Session) : Nat := s.pids s.launched

/-- A token that was not given out before. -/
def takeToken (s : Session) : String × Session :=
  (tokenOf s.nextToken, { s with nextToken := s.nextToken + 1 })

def job? (s : Session) (number : Nat) : Option Job := s.jobs.find? (·.number = number)

/-- Puts a job in the place of the one with its number. -/
def setJob (s : Session) (j : Job) : Session :=
  { s with jobs := s.jobs.map fun old => if old.number = j.number then j else old }

/-- Puts a job into a phase, from which it goes on in a later turn. -/
def proceed (s : Session) (j : Job) (p : Phase) : Session :=
  (s.setJob { j with phase := p }).enqueue (.advance j.number)

end Session

/-- What is said when a document is needed before the handshake. -/
def noWorkspace : String × String :=
  ("RuntimeError", "The workspace is not available - has the server been initialized?")

end FormatServer
