import FormatServer.Formatter.Run
import FormatServer.Protocol.Incoming
import FormatServer.Protocol.ResponseError
import FormatServer.Settings.Cache

/-!
Messages to a client: responses to its requests, requests of the server's own, log entries and messages
for the user.
-/

namespace FormatServer

def serverName : String := "fmtbridge"

def serverVersion : String := "0.1.0"

namespace ResponseError

/-- A request that the client withdrew. -/
def cancelled (id : RequestId) : ResponseError :=
  let shown := match id with
    | .number i => writtenInt i
    | .text s => s
  ⟨-32800, "Request with id \"" ++ shown ++ "\" is canceled", none⟩

/-- A failed formatting request. -/
def formatting (e : FormatError) : ResponseError := ⟨e.code, e.message, none⟩

end ResponseError

/-- What a request is answered with. -/
inductive Response where
  | capabilities (units : Text.Encoding)
  | nothing
  | edits (edits : List TextEdit)
  | error (e : ResponseError)
  deriving Repr

/-- A message to a client. -/
inductive Outgoing where
  | response (id : RequestId) (r : Response)
  | log (level : LogLevel) (text : String)
  /-- an error that the user is shown -/
  | alert (text : String)
  /-- a request to be told of changed settings -/
  | registration (token name : String)
  /-- a request for the settings of a document -/
  | configuration (token uri : String)
  deriving Repr

namespace Outgoing

/-- A mapping with texts for keys. -/
def fields (entries : List (String × Value)) : Value := .map (entries.map fun (k, v) => (.text k, v))

/-- What the server can do, for a client that counts in these units. -/
def capabilities (units : Text.Encoding) : Value :=
  fields [
    ("positionEncoding", .text units.name),
    ("textDocumentSync", fields [("openClose", .bool true), ("change", .int 1), ("save", .bool false)]),
    ("documentFormattingProvider", .bool true),
    ("documentRangeFormattingProvider", .bool true),
    ("executeCommandProvider", fields [("commands", .list [])]),
    ("workspace", fields [
      ("workspaceFolders", fields [("supported", .bool true), ("changeNotifications", .bool true)]),
      ("fileOperations", .map [])])]

def position (p : Position) : Value :=
  fields [("line", .int p.line), ("character", .int p.character)]

def edit (e : TextEdit) : Value :=
  fields [
    ("range", fields [("start", position e.range.start), ("end", position e.range.stop)]),
    ("newText", .text e.text)]

def identifier : RequestId → Value
  | .number i => .int i
  | .text s => .text s

def error (e : ResponseError) : Value :=
  fields ([("code", .int e.code), ("message", .text e.text)] ++
    e.data.toList.map fun d => ("data", d))

/-- The part of a response that tells how the request ended. -/
def ending : Response → String × Value
  | .capabilities units => ("result", fields [
      ("capabilities", capabilities units),
      ("serverInfo", fields [("name", .text serverName), ("version", .text serverVersion)])])
  | .nothing => ("result", .null)
  | .edits edits => ("result", .list (edits.map edit))
  | .error e => ("error", error e)

/-- A notification of a text with a level. -/
def notification (method : String) (level : LogLevel) (text : String) : List (String × Value) :=
  [("method", .text method),
   ("params", fields [("type", .int level.number), ("message", .text text)])]

def request (token method : String) (params : List (String × Value)) : List (String × Value) :=
  [("id", .text token), ("method", .text method), ("params", fields params)]

def parts : Outgoing → List (String × Value)
  | response id r => [("id", identifier id), ending r]
  | log level text => notification "window/logMessage" level text
  | alert text => notification "window/showMessage" .error ("Error in server: " ++ text)
  | registration token name =>
    request token "client/registerCapability" [("registrations", .list [fields [
      ("id", .text name), ("method", .text "workspace/didChangeConfiguration")]])]
  | configuration token uri =>
    request token "workspace/configuration" [("items", .list [fields [
      ("scopeUri", .text uri), ("section", .text settingsSection)]])]

def toValue (m : Outgoing) : Value := fields (("jsonrpc", .text "2.0") :: m.parts)

end Outgoing

end FormatServer
