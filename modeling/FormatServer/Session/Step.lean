import FormatServer.Session.Progress
import FormatServer.Session.Receive

/-!
A session from outside: it is started with overrides, messages are delivered to it, and time passes.
-/

namespace FormatServer.Session

/-- A session in a system that gives processes these numbers. -/
def start (overrides : Value) (directory : Path) (pids : Nat → Nat) (disk : Disk) :
    Except Settings.Error Session := do
  let overrides := if overrides.isFalsy then .map [] else overrides
  let globals ← Settings.merged {} overrides
  return { overrides, directory, pids, disk, cache := { globals } }

/-- Delivers messages back to back, and goes on until the session is at rest. -/
def deliver (s : Session) (messages : List (Except MessageFault Incoming)) : Session :=
  (messages.foldl receive s).settleDown

/-- What the session has done since an earlier state. -/
def since (s old : Session) : List SessionEvent := s.trace.drop old.trace.length

end FormatServer.Session
