import FormatServer.Session.Basic

/-!
Formatting requests of a session. The settings of the document are found first, asking the client if it
answers such requests; then a process is started and played, step by step; then the response is sent.
-/

namespace FormatServer.Session

/-- Ends a job with a response, which is sent in a turn of its own. -/
def conclude (s : Session) (j : Job) (r : Response) : Session := s.proceed j (.done r)

/-- Ends a job as its run has ended. A formatting error is logged before. -/
def settle (s : Session) (j : Job) : Outcome → Session
  | .edits edits => s.conclude j (.edits edits)
  | .failed e => (s.log .error e.message).conclude j (.error (.formatting e))
  -- A crash is no formatting error and is not logged.
  | .crashed c => s.conclude j (.error (.unforeseen c.kind c.message))

/-- Lets a process begin, unless its time is up at once. -/
def launch (s : Session) (j : Job) (run : Run) (steps : List ScriptStep) : Session :=
  let limit := run.request.settings.timeout.ticks?.getD 0
  if runsOut limit 0 then
    -- The time is up before the process takes a step.
    (s.setJob { j with phase := .pausing run steps }).enqueue (.expire j.number)
  else (s.schedule limit (.expire j.number)).proceed j (.playing run steps)

/-- Lets a process begin when so many turns have passed. -/
def connect (s : Session) (j : Job) (run : Run) (steps : List ScriptStep) : Nat → Session
  | 0 => s.launch j run steps
  | turns + 1 => s.proceed j (.starting run steps turns)

/-- Starts the run of a job with its settings. -/
def startRun (s : Session) (j : Job) (settings : Settings) : Session :=
  match s.workspace with
  | none => s.conclude j (.error (.unforeseen noWorkspace.1 noWorkspace.2))
  | some w =>
    let (token, s) := s.takeToken
    let context : RunContext :=
      { store := w.store, encoding := w.units, directory := s.directory, token, pid := s.nextPid,
        script := s.script }
    let stage := start context { uri := j.uri, range := j.range, settings } s.disk
    let s := s.absorb stage.disk stage.events
    match stage.result with
    | .error outcome => s.settle j outcome
    | .ok run =>
      let s := { s with launched := s.launched + 1 }
      s.connect j run s.script.steps s.script.startup

/-- Asks the client for the settings of a job's document. -/
def ask (s : Session) (j : Job) : Session :=
  let (token, s) := s.takeToken
  let s := (s.send (.configuration token j.uri)).setJob { j with phase := .asking }
  match s.reply with
  | .never => s
  | r => s.enqueue (.reply j.number r)

def begin (s : Session) (j : Job) : Session :=
  match s.workspace with
  | none => s.conclude j (.error (.unforeseen noWorkspace.1 noWorkspace.2))
  | some w =>
    -- The document may have been closed since the request.
    if !w.store.contains j.uri then s.settle j (.failed (.documentNotFound j.uri))
    else if !s.configuration then s.startRun j s.cache.globals
    else match s.cache.find? j.uri with
      | some settings => s.startRun j settings
      | none => s.ask j

/-- Reads a client's answer: an error, or a list of settings whose first item counts. -/
def answer? : ClientReply → Option ClientAnswer
  | .never => none
  | .error v => (ResponseError.ofValue? v).map .error
  | .result v => v.sequence?.map fun items => .settings (items.headD .null)

/-- A client's answer to a job's request arrives. One that cannot be read is lost. -/
def takeReply (s : Session) (j : Job) (r : ClientReply) : Session :=
  match j.phase, answer? r with
  | .asking, some a => s.proceed j (.answered a)
  | .asking, none => s.send (.alert MessageFault.parameters.message)
  | _, _ => s

/-- Goes on with a job whose client has answered. -/
def takeAnswer (s : Session) (j : Job) : ClientAnswer → Session
  | .error e => s.conclude j (.error e)
  | .settings v =>
    match s.cache.settle j.uri v with
    | .ok (settings, cache) =>
      let s := { s with cache }
      s.startRun j settings
    | .error e =>
      if e.isRefusal then s.settle j (.failed (.invalidSettings j.uri e.message))
      else s.conclude j (.error (.unforeseen e.kind e.message))

/-- Leaves a process to itself. -/
def abandon (s : Session) (o : Orphan) : Session :=
  let s := { s with orphans := s.orphans ++ [o] }
  s.enqueue (.orphan o.process.pid)

/-- Plays the next step of a job's process. -/
def playStep (s : Session) (j : Job) (run : Run) : List ScriptStep → Session
  | [] =>
    let (run, events) := run.close
    (s.absorb s.disk events).proceed j (.closed run)
  | .hang :: rest => s.setJob { j with phase := .pausing run rest }
  | .sleep ticks :: rest =>
    (s.setJob { j with phase := .pausing run rest }).schedule ticks (.wake j.number)
  | step :: rest =>
    let done := run.process.perform s.disk step
    let run := { run with process := done.process }
    let s := s.absorb done.disk (outputEvents done.logs)
    match done.overrun with
    | none => s.proceed j (.playing run rest)
    | some cause =>
      let stage := run.overrun s.disk cause
      ((s.absorb stage.disk stage.events).settle j stage.result).abandon { process := run.process, steps := rest }

/-- Ends the run of a job whose process has ended. -/
def finishRun (s : Session) (j : Job) (run : Run) : Session :=
  let stage := run.conclude s.disk
  (s.absorb stage.disk stage.events).settle j stage.result

/-- Ends a job that the client has withdrawn, and with it a run. -/
def resign (s : Session) (j : Job) (stage : Stage Unit) : Session :=
  (s.absorb stage.disk stage.events).conclude j (.error (.cancelled j.id))

/-- Ends a job whose process was told to end, and has. -/
def part (s : Session) (j : Job) (run : Run) : Farewell → Session
  | .expired =>
    let stage := run.timeOut s.disk
    (s.absorb stage.disk stage.events).settle j stage.result
  | .withdrawn => s.resign j (run.abandon s.disk)
  | .unconnected => s.resign j (run.leave s.disk)

/-- Ends a job when so many turns have passed in which its process comes to its end. -/
def bury (s : Session) (j : Job) (run : Run) (why : Farewell) : Nat → Session
  | 0 => s.part j run why
  | turns + 1 => s.proceed j (.ending run why turns)

/-- Tells the process of a job to end, which then has these steps before it. -/
def kill (s : Session) (j : Job) (run : Run) (steps : List ScriptStep) (why : Farewell) : Session :=
  if run.process.killable then
    (s.absorb s.disk [run.signal why]).bury j run why run.process.killing.turns
  else
    let stage := run.spare s.disk why
    ((s.absorb stage.disk stage.events).settle j stage.result).abandon
      { process := run.process, steps, heard := false }

/-- Ends a job that the client has withdrawn. Its process is killed. -/
def giveUp (s : Session) (j : Job) : Session :=
  match j.phase with
  | .starting run steps _ => s.kill j run steps .unconnected
  | .playing run steps | .pausing run steps => s.kill j run steps .withdrawn
  -- The process was killed before, and is not waited for any more.
  | .ending run _ _ => s.resign j (run.leave s.disk)
  | _ => s.conclude j (.error (.cancelled j.id))

/-- The jobs that can be withdrawn by another identifier. -/
def withdrawableBut (s : Session) (id : RequestId) : List (RequestId × Nat) :=
  s.withdrawable.filter (·.1 ≠ id)

/-- Sends the response of a job, which ends with it. -/
def finish (s : Session) (j : Job) (r : Response) : Session :=
  let s := s.respond j.id r
  { s with
    jobs := s.jobs.filter (·.number ≠ j.number)
    withdrawable := s.withdrawableBut j.id }

def advance (s : Session) (j : Job) : Session :=
  match j.phase, j.cancelled with
  -- A job that has ended can no longer be withdrawn.
  | .done r, _ => s.finish j r
  | .closed run, _ => s.finishRun j run
  -- Nor can one that was withdrawn before.
  | .ending run .withdrawn turns, _ => s.bury j run .withdrawn turns
  | .ending run .unconnected turns, _ => s.bury j run .unconnected turns
  | _, true => s.giveUp j
  | .accepted, false => s.begin j
  | .answered a, false => s.takeAnswer j a
  | .starting run steps turns, false => s.connect j run steps turns
  | .playing run steps, false => s.playStep j run steps
  | .ending run .expired turns, false => s.bury j run .expired turns
  | .asking, false | .pausing _ _, false => s

/-- The pause of a job's process is over. -/
def wake (s : Session) (j : Job) : Session :=
  match j.phase with
  | .pausing run steps => s.playStep j run steps
  | _ => s

/-- The time of a job is up. Its process is killed. -/
def expire (s : Session) (j : Job) : Session :=
  match j.phase, j.cancelled with
  | .playing run steps, false | .pausing run steps, false => s.kill j run steps .expired
  -- A job that was withdrawn before its time was up is given up in its next turn.
  | _, _ => s

/-- Plays the next step of a process without a job. -/
def playOrphan (s : Session) (o : Orphan) : Session :=
  let tell := fun (logs : List String) => outputEvents (if o.heard then logs else [])
  let rest := s.orphans.filter (·.process.pid ≠ o.process.pid)
  let put := fun (s : Session) (o : Orphan) => { s with orphans := rest ++ [o] }
  let pid := o.process.pid
  match o.steps with
  | [] =>
    let s := s.absorb s.disk (tell o.process.close.2)
    { s with orphans := rest }
  -- Nothing more is heard of it.
  | .hang :: _ => { s with orphans := rest }
  | .sleep ticks :: steps => (put s { o with steps }).schedule ticks (.orphan pid)
  | step :: steps =>
    let done := o.process.perform s.disk step
    let s := s.absorb done.disk (tell done.logs)
    (put s { o with process := done.process, steps }).enqueue (.orphan pid)

/-- A client asks for a document to be formatted. -/
def accept (s : Session) (id : RequestId) (uri : String) (range : Option TextRange) : Session :=
  let j : Job := { number := s.nextJob, id, uri, range }
  let s := { s with
    nextJob := s.nextJob + 1
    -- An identifier that is used again names the newer request.
    jobs := s.jobs ++ [j]
    withdrawable := s.withdrawableBut id ++ [(id, j.number)] }
  s.enqueue (.advance j.number)

/-- Marks a job as withdrawn. One that waits takes another turn. -/
def withdraw (s : Session) (number : Nat) : Session :=
  match s.job? number with
  | none => s
  | some j =>
    let s := s.setJob { j with cancelled := true }
    match j.phase with
    -- Any other phase has its next turn in the queue already.
    | .asking | .pausing _ _ => s.enqueue (.advance number)
    | _ => s

/-- A client withdraws a request. -/
def cancel (s : Session) (id : RequestId) : Session :=
  match s.withdrawable.lookup id with
  | none => s
  | some number =>
    let s := { s with withdrawable := s.withdrawableBut id }
    s.withdraw number

def cancelAll (s : Session) : Session :=
  s.withdrawable.foldl (fun s (_, number) => s.withdraw number) s

end FormatServer.Session
