import FormatServer.Document.Store
import FormatServer.Json.Reader
import FormatServer.Value.Basic

/-!
Messages from a client. A request has an identifier and expects one response; a notification has none.
-/

namespace FormatServer

/-- The identifier that a client gives a request. -/
inductive RequestId where
  | number (i : Int)
  | text (s : String)
  deriving DecidableEq, Repr

/-- What a client says of itself when a session begins. -/
structure ClientProfile where
  rootUri : Option String
  /-- the URIs of the workspace folders -/
  folders : List String
  /-- the names of the units in which the client can count characters -/
  encodings : List String
  /-- the client answers requests for settings -/
  configuration : Bool
  /-- the client tells of changes of its workspace folders -/
  folderEvents : Bool
  deriving DecidableEq, Repr

/-- What a client asks for. -/
inductive Call where
  | handshake (client : ClientProfile)
  | shutdown
  | format (uri : String) (range : Option TextRange)
  | command (name : String)
  | other (method : String)
  deriving DecidableEq, Repr

/-- What a client tells. -/
inductive Notice where
  | ready
  | exit
  | opened (document : Document)
  | changed (uri : String) (version : Int) (texts : List String)
  | closed (uri : String)
  | configured (settings : Value)
  /-- the workspace folders changed; whether any was added or removed -/
  | folders (changed : Bool)
  | cancel (id : RequestId)
  | other
  deriving Repr

/-- A message from a client. -/
inductive Incoming where
  | call (id : RequestId) (c : Call)
  | notice (n : Notice)
  /-- a message of another protocol, or an answer to nothing that was asked -/
  | ignored
  deriving Repr

/-- Why a text is no message. -/
inductive MessageFault where
  | json (cause : Json.Error)
  /-- no message at all, but a value of this kind -/
  | shape (kind : String)
  | parameters
  | internal
  deriving Repr

def MessageFault.message : MessageFault → String
  | json cause => cause.message
  | shape kind => Text.quoted kind ++ " object has no attribute 'jsonrpc'"
  | parameters => "Invalid Params"
  | internal => "Internal Error"

end FormatServer
