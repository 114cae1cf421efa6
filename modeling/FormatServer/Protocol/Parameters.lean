import FormatServer.Protocol.Field
import FormatServer.Protocol.Incoming

/-!
The parameters of requests and notifications. Every reader gives nothing when a field is missing that the
protocol demands, or when one cannot be turned into what it should be. Methods of the protocol that the
server does not serve are read too, so that a fault in their parameters is found.
-/

namespace FormatServer

def RequestId.ofValue? : Value → Option RequestId
  | .int i => some (.number i)
  | .text s => some (.text s)
  | _ => none

namespace ClientProfile

/-- Reads the URI of a workspace folder, which must have a name too. -/
def folder? (v : Value) : Option String := do
  let _ ← v.field? "name"
  v.textField? "uri"

/-- Reads how much a client wants to be told of the server's work. -/
def trace? (v : Value) : Option String :=
  v.text?.filter ["off", "messages", "compact", "verbose"].contains

/-- Checks what a client says of itself that does not matter here. -/
def checkRest (p capabilities : Value) : Option Unit := do
  let _ ← p.optionally "processId" (·.intWithin? (-2147483648) 2147483647)
  let _ ← p.optionally "clientInfo" (·.field? "name")
  let _ ← p.optionally "trace" trace?
  let _ ← ["textDocument", "notebookDocument", "window"].mapM capabilities.optionalMapping?

/-- Reads what a client says of itself. -/
def ofValue? (p : Value) : Option ClientProfile := do
  let capabilities ← (← p.field? "capabilities").mapping?
  let workspace ← capabilities.optionalMapping? "workspace"
  let general ← capabilities.optionalMapping? "general"
  let encodings ← general.optionalSequence? "positionEncodings"
  let folders ← (← p.optionalSequence? "workspaceFolders").mapM folder?
  checkRest p capabilities
  let supports := fun name => ((workspace.field? name).map Value.asBool).getD false
  return {
    rootUri := (p.optional "rootUri").map Value.asText
    folders
    encodings := encodings.map Value.asText
    configuration := supports "configuration"
    folderEvents := supports "workspaceFolders" }

end ClientProfile

namespace Parameters

def position? (v : Value) : Option Position := do
  let line ← (← v.field? "line").asInt?
  let character ← (← v.field? "character").asInt?
  (Position.ofInts line character).toOption

def range? (v : Value) : Option TextRange := do
  return ⟨← position? (← v.field? "start"), ← position? (← v.field? "end")⟩

/-- The URI of the document that parameters name. -/
def documentUri? (p : Value) : Option String := do
  (← p.field? "textDocument").textField? "uri"

/-- Checks the options of a formatting request. -/
def checkOptions (p : Value) : Option Unit := do
  let options ← p.field? "options"
  let _ ← options.natField? "tabSize"
  let _ ← options.field? "insertSpaces"

/-- Reads the parameters of a formatting request for a whole document. -/
def format? (p : Value) : Option Call := do
  let uri ← documentUri? p
  checkOptions p
  return .format uri none

/-- Reads the parameters of a formatting request for a range. -/
def rangeFormat? (p : Value) : Option Call := do
  let uri ← documentUri? p
  checkOptions p
  return .format uri (some (← range? (← p.field? "range")))

def document? (p : Value) : Option Document := do
  let d ← p.field? "textDocument"
  return {
    uri := ← d.textField? "uri"
    language := ← d.textField? "languageId"
    version := ← d.intField? "version"
    text := ← d.textField? "text" }

/-- Reads the text of a change. A range must be one, but does not matter. -/
def change? (v : Value) : Option String := do
  match v.field? "range" with
  | some r =>
    let _ ← range? r
    let _ ← v.optionally "rangeLength" (·.intWithin? 0 2147483647)
  | none => pure ()
  v.textField? "text"

/-- Reads the changes of a document. -/
def changes? (p : Value) : Option Notice := do
  let version ← (← p.field? "textDocument").intField? "version"
  let changes ← (← p.field? "contentChanges").sequence?
  return .changed (← documentUri? p) version (← changes.mapM change?)

def folders? (p : Value) : Option Notice := do
  let event ← p.field? "event"
  let added ← (← (← event.field? "added").sequence?).mapM ClientProfile.folder?
  let removed ← (← (← event.field? "removed").sequence?).mapM ClientProfile.folder?
  return .folders (!(added ++ removed).isEmpty)

def configured? (p : Value) : Option Notice := do
  return .configured (((← p.mapping?).field? "settings").getD .null)

/-- Reads the withdrawal of a request. What is no identifier withdraws nothing. -/
def cancel? (p : Value) : Option Notice := do
  return ((RequestId.ofValue? (← p.field? "id")).map .cancel).getD .other

def checkPlace (p : Value) : Option Unit := do
  let _ ← documentUri? p
  let _ ← position? (← p.field? "position")

def checkDocument (p : Value) : Option Unit := (documentUri? p).map fun _ => ()

def checkField (name : String) (p : Value) : Option Unit := (p.field? name).map fun _ => ()

/-- Requests of the protocol that are not served, about a place in a document. -/
def placeMethods : List String :=
  ["textDocument/completion", "textDocument/declaration", "textDocument/definition",
   "textDocument/documentHighlight", "textDocument/hover", "textDocument/implementation",
   "textDocument/linkedEditingRange", "textDocument/moniker", "textDocument/prepareCallHierarchy",
   "textDocument/prepareRename", "textDocument/prepareTypeHierarchy", "textDocument/signatureHelp",
   "textDocument/typeDefinition"]

/-- Requests of the protocol that are not served, about a whole document. -/
def documentMethods : List String :=
  ["textDocument/codeLens", "textDocument/diagnostic", "textDocument/documentColor",
   "textDocument/documentLink", "textDocument/documentSymbol", "textDocument/foldingRange",
   "textDocument/semanticTokens/full"]

/-- Reads the parameters of a request that is not served; nothing when the protocol has no such method. -/
def unserved? (method : String) (p : Value) : Option (Option Call) :=
  let checked := fun (check : Value → Option Unit) => some ((check p).map fun _ => Call.other method)
  if placeMethods.contains method then checked checkPlace
  else if documentMethods.contains method then checked checkDocument
  else if method = "workspace/symbol" then checked (checkField "query")
  else none

/-- Reads the parameters of a request, if there are any; nothing when the protocol has no such method. -/
def call? (method : String) (p : Option Value) : Option (Option Call) :=
  match method with
  | "initialize" => some (p.bind fun p => (ClientProfile.ofValue? p).map .handshake)
  | "shutdown" => some (some .shutdown)
  | "textDocument/formatting" => some (p.bind format?)
  | "textDocument/rangeFormatting" => some (p.bind rangeFormat?)
  | "workspace/executeCommand" => some (p.bind fun p => (p.textField? "command").map .command)
  | method => unserved? method (p.getD .null)

/-- Reads the parameters of a notification, if there are any; nothing when the protocol has no such
method. -/
def notice? (method : String) (p : Option Value) : Option (Option Notice) :=
  let checked := fun (check : Value → Option Unit) => some ((p.bind check).map fun _ => Notice.other)
  match method with
  | "initialized" => some (p.map fun _ => .ready)
  | "exit" => some (some .exit)
  | "textDocument/didOpen" => some (p.bind fun p => (document? p).map .opened)
  | "textDocument/didChange" => some (p.bind changes?)
  | "textDocument/didClose" => some (p.bind fun p => (documentUri? p).map .closed)
  | "textDocument/didSave" => checked checkDocument
  | "workspace/didChangeConfiguration" => some (p.bind configured?)
  | "workspace/didChangeWorkspaceFolders" => some (p.bind folders?)
  | "workspace/didChangeWatchedFiles" => checked (checkField "changes")
  | "window/workDoneProgress/cancel" => checked (checkField "token")
  | "$/setTrace" => checked fun p => do
    let _ ← ClientProfile.trace? (← p.field? "value")
  | "$/cancelRequest" => some (p.bind cancel?)
  | _ => none

end Parameters

end FormatServer
