import FormatServer.Session.Basic
import FormatServer.Settings.Source

/-!
What a client tells of its documents, of its settings and of its workspace folders.
-/

namespace FormatServer.Session

/-- Applies a change to the open documents, if there is a workspace. -/
def withStore (s : Session) (f : DocumentStore → Session → Session) : Session :=
  match s.workspace with
  | none => s.alert noWorkspace.1 noWorkspace.2
  | some w => f w.store s

def setStore (s : Session) (store : DocumentStore) : Session :=
  { s with workspace := s.workspace.map fun w => { w with store } }

def documentOpened (s : Session) (d : Document) : Session :=
  s.withStore fun store s =>
    match store.openDocument d with
    | .error e => s.alert "ValueError" e.message
    | .ok store => (s.setStore store).enqueue (.opened d.uri)

/-- The documents after changes of one of them, each of which gives its whole text. -/
def changedStore (uri : String) (version : Int) : List String → DocumentStore → Option DocumentStore
  | [], store => some store
  | text :: rest, store => (store.change? uri version text).bind (changedStore uri version rest)

def documentChanged (s : Session) (uri : String) (version : Int) (texts : List String) : Session :=
  s.withStore fun store s =>
    match changedStore uri version texts store with
    | none => s.alert "KeyError" (Text.quoted (Uri.decode uri))
    | some store => s.setStore store

def documentClosed (s : Session) (uri : String) : Session :=
  s.withStore fun store s => (s.setStore (store.close uri)).enqueue (.closed uri)

def logOpened (s : Session) (uri : String) : Session := s.log .log ("Document opened: " ++ uri)

/-- The log entry of a closed document, and the hooks on that: the one of the settings is alone. -/
def logClosed (s : Session) (uri : String) : Session :=
  let s := s.log .log ("Document closed: " ++ uri)
  { s with cache := s.cache.documentClosed [] [] uri }

/-- The client's settings changed. A client that answers requests for settings is asked again when they are
needed; from any other the new settings come at once. -/
def configured (s : Session) (pushed : Value) : Session :=
  if s.configuration then { s with cache := s.cache.clear }
  else
    match s.cache.updateGlobals pushed with
    | .ok cache => { s with cache }
    | .error e =>
      if e.isRefusal then s.log .error ("Ignoring invalid formatter settings: " ++ e.message)
      else s.alert e.kind e.message

/-- The client is ready for requests of the server. -/
def clientReady (s : Session) : Session :=
  let s :=
    if s.configuration then
      -- One token for the request and one for what it registers.
      let (token, s) := s.takeToken
      let (name, s) := s.takeToken
      s.send (.registration token name)
    else s
  if s.folderEvents then { s with watchesFolders := true } else s

def foldersChanged (s : Session) (changed : Bool) : Session :=
  if changed && s.workspace.isNone then s.alert noWorkspace.1 noWorkspace.2
  else if s.watchesFolders then s.log .log "Workspace folder change event received."
  else s

end FormatServer.Session
