import FormatServer.Session.Documents
import FormatServer.Session.Formatting

/-!
How a session goes on: rounds of turns, and the passing of time. A round takes the turns that are in the
queue when it begins, and those of the timers that are due; turns that they leave behind belong to the
next round. Without new messages a session comes to rest after a bounded number of rounds.
-/

namespace FormatServer.Session

/-- Does something with the job of a number, if there is one. -/
def withJob (s : Session) (number : Nat) (f : Session → Job → Session) : Session :=
  match s.job? number with
  | none => s
  | some j => f s j

def take (s : Session) : Turn → Session
  | .advance number => s.withJob number advance
  | .reply number r => s.withJob number fun s j => s.takeReply j r
  | .wake number => s.withJob number wake
  | .expire number => s.withJob number expire
  | .orphan pid =>
    match s.orphans.find? (·.process.pid = pid) with
    | none => s
    | some o => s.playOrphan o
  | .opened uri => s.logOpened uri
  | .closed uri => s.logClosed uri

/-- A timer that has nothing to do any more. -/
def isStale (s : Session) : Turn → Bool
  | .wake number =>
    match (s.job? number).map Job.phase with
    | some (.pausing _ _) => false
    | _ => true
  | .expire number =>
    match (s.job? number).map Job.phase with
    | some (.playing _ _) | some (.pausing _ _) => false
    | _ => true
  | _ => false

/-- Drops stale timers from the front. -/
def dropStale : Nat → Session → Session
  | 0, s => s
  | n + 1, s =>
    match s.timers.first? with
    | some t => if s.isStale t.event then dropStale n { s with timers := s.timers.pop } else s
    | none => s

/-- The session with only live timers in front. -/
def freshen (s : Session) : Session := s.dropStale s.timers.size

/-- A time has come, as far as the clock can tell. -/
def isDue (now due : Nat) : Bool := due < now + clockResolution

/-- Moves the timers that are due into the queue. -/
def fire : Nat → Session → Session
  | 0, s => s
  | n + 1, s =>
    match s.timers.first? with
    | some t =>
      if isDue s.now t.due then
        let s := { s with timers := s.timers.pop }
        fire n (s.enqueue t.event)
      else s
    | none => s

/-- Takes the turns of one round. -/
def round (s : Session) : Session :=
  -- Turns that the turns of this round leave behind wait for the next one.
  let s := s.freshen
  let s := s.fire s.timers.size
  s.ready.foldl take { s with ready := [] }

/-- The turns of a process that begins so, takes so many steps and goes down so. -/
def turnsOf (startup steps : Nat) (k : Killing) : Nat := startup + steps + k.turns

/-- The turns that a process may still have before it. -/
def turnsLeft (s : Session) : Nat :=
  let ofJob := fun (j : Job) => match j.phase with
    | .starting run steps turns => turnsOf turns steps.length run.process.killing
    | .playing run steps | .pausing run steps => turnsOf 0 steps.length run.process.killing
    | .ending _ _ turns => turns
    | _ => 0
  let new := turnsOf s.script.startup s.script.steps.length s.script.killing
  (s.jobs.map ofJob ++ s.orphans.map (·.steps.length)).foldl max new

/-- Rounds until the session is at rest. -/
def settleDown (s : Session) : Session := go (s.turnsLeft + 8) s
where
  go : Nat → Session → Session
    | 0, s => s
    | n + 1, s => go n s.round

/-- Sets the clock, which never goes back. -/
def passTo (s : Session) (time : Nat) : Session := { s with now := max s.now time }

/-- Lets time pass up to a deadline. Timers that are due fire at their time. -/
def passUntil (deadline : Nat) : Nat → Session → Session
  | 0, s => s.passTo deadline
  | n + 1, s =>
    let s := s.freshen
    match s.timers.first? with
    | some t =>
      if isDue deadline t.due then
        passUntil deadline n (s.passTo (min t.due deadline)).settleDown
      else s.passTo deadline
    | none => s.passTo deadline

/-- The timers that may fire before the session is at rest for good. -/
def firings (s : Session) : Nat :=
  let ofJob := fun (j : Job) => match j.phase with
    | .starting _ steps _ | .playing _ steps | .pausing _ steps => steps.length
    | _ => 0
  (s.jobs.map ofJob ++ s.orphans.map (·.steps.length)).foldl (· + ·) s.timers.size + 1

def wait (s : Session) (ticks : Nat) : Session :=
  if s.status = .ended then s else passUntil (Binary64.roundTicks (s.now + ticks) 1) s.firings s

end FormatServer.Session
