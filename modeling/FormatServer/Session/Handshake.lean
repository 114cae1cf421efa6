import FormatServer.Session.Basic

/-!
The beginning of a session: what the client says of itself is noted, and the settings of its workspace are
read. Settings that are refused leave the ones there were, and a log entry; the session begins all the same.
-/

namespace FormatServer

/-- Why a workspace gives no settings: its file cannot be read, or a value is none. -/
inductive WorkspaceError where
  | file (cause : SettingsFileError)
  | layer (cause : Settings.Error)

namespace WorkspaceError

def kind : WorkspaceError → String
  | file cause => cause.kind
  | layer cause => cause.kind

def message : WorkspaceError → String
  | file cause => cause.message
  | layer cause => cause.message

/-- The error is reported and gone on from. -/
def isRefusal : WorkspaceError → Bool
  | file cause => cause.isRefusal
  | layer cause => cause.isRefusal

end WorkspaceError

/-- The settings of a workspace: the defaults with the layers of its file and of the overrides; and whether
the file holds anything. -/
def workspaceSettings (d : Disk) (root : Path) (overrides : Value) :
    Except WorkspaceError (Settings × Bool) := do
  let layer ← (loadSettings d root).mapError .file
  let settings ← (Settings.mergedAll {} [layer, overrides]).mapError .layer
  return (settings, !layer.isFalsy)

namespace ClientProfile

/-- The URI of the root of the workspace: the first folder's, or the one given as the root. -/
def root? (c : ClientProfile) : Option String :=
  let uri := match c.folders with
    | uri :: _ => uri
    | [] => c.rootUri.getD ""
  if uri.isEmpty then none else some uri

/-- The units in which positions are counted: the first known ones that the client offers. -/
def units (c : ClientProfile) : Text.Encoding :=
  (c.encodings.findSome? Text.Encoding.ofName?).getD .utf16

end ClientProfile

namespace Session

/-- Makes the settings of a workspace the global ones. -/
def loadWorkspace (s : Session) (root : Path) : Except WorkspaceError Session :=
  match workspaceSettings s.disk root s.overrides with
  | .ok (settings, found) =>
    let s := { s with cache := { s.cache with globals := settings } }
    .ok (if found then s.log .info ("Loaded formatter settings from " ++ root.toString) else s)
  | .error e =>
    if e.isRefusal then
      .ok (s.log .error ("Ignoring invalid workspace settings: " ++ e.message))
    else .error e

/-- Notes what a client says of itself. The workspace starts without documents. -/
def meet (s : Session) (c : ClientProfile) : Session :=
  { s with
    workspace := some { units := c.units }
    configuration := c.configuration
    folderEvents := c.folderEvents }

/-- Begins to work for a client. -/
def handshake (s : Session) (id : RequestId) (c : ClientProfile) : Session :=
  let refuse := fun (s : Session) (kind text : String) =>
    s.respond id (.error (.unforeseen kind text))
  -- The root is checked even when a folder is used in its place.
  match Uri.parse (c.rootUri.getD "").toList with
  | .error e => refuse s "ValueError" e.message
  | .ok _ =>
    let s := s.meet c
    let welcome := fun (s : Session) => s.respond id (.capabilities c.units)
    match c.root? with
    | none => welcome s
    | some uri =>
      match Uri.parse uri.toList with
      | .error e => refuse s "ValueError" e.message
      | .ok uri =>
        match uri.filePath? with
        -- A workspace that is no directory has no settings file.
        | none | some [] => welcome s
        | some path =>
          match s.loadWorkspace (.ofChars path) with
          | .ok s => welcome s
          | .error e => refuse s e.kind e.message

end Session

end FormatServer
