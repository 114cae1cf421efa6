import FormatServer.Session.Documents
import FormatServer.Session.Formatting
import FormatServer.Session.Handshake

/-!
Messages as they arrive. Each is handled at once; what it leaves to do becomes a turn. After a shutdown
all messages but the last one are passed over, and after that one nothing happens any more.
-/

namespace FormatServer.Session

/-- Gets ready for the end: every request under way is withdrawn. -/
def shutDown (s : Session) (id : RequestId) : Session :=
  { s.cancelAll with status := .shutDown }.respond id .nothing

def handleCall (s : Session) (id : RequestId) : Call → Session
  | .handshake client => s.handshake id client
  | .shutdown => s.shutDown id
  | .format uri range => s.accept id uri range
  | .command name => s.respond id (.error (.noCommand name))
  | .other method => s.respond id (.error (.methodNotFound method))

/-- The session ends, well if it was shut down before. -/
def exit (s : Session) : Session :=
  let code := if s.status = .shutDown then 0 else 1
  -- What is still under way is neither finished nor answered.
  { s with status := .ended, ready := [], timers := {} }.emit (.ended code)

def handleNotice (s : Session) : Notice → Session
  | .ready => s.clientReady
  | .exit => s.exit
  | .opened document => s.documentOpened document
  | .changed uri version texts => s.documentChanged uri version texts
  | .closed uri => s.documentClosed uri
  | .configured settings => s.configured settings
  | .folders changed => s.foldersChanged changed
  | .cancel id => s.cancel id
  | .other => s

/-- A message that is handled after a shutdown too. -/
def isLast : Incoming → Bool
  | .notice .exit => true
  | _ => false

def handle (s : Session) (m : Incoming) : Session :=
  if s.status = .running || isLast m then
    match m with
    | .call id c => s.handleCall id c
    | .notice n => s.handleNotice n
    | .ignored => s
  else s

/-- Handles what was read of a message. -/
def receive (s : Session) (m : Except MessageFault Incoming) : Session :=
  if s.status = .ended then s
  else match m with
    | .ok m => s.handle m
    | .error fault => s.send (.alert fault.message)

end FormatServer.Session
