import FormatServer.Formatter.Error
import FormatServer.Hooks
import FormatServer.Settings.Cache

/-!
Where the settings of a document come from: the global ones, or the client, who is asked once for a document.
What it has said is kept until the document is closed or all is to be asked again. Operations come one after
another; none begins while another one waits for the client.
-/

namespace FormatServer

/-- A hook that leaves the settings alone, and all of whose calls end alike. -/
structure Listener where
  name : Except HookFailure String
  failure : Option HookFailure := none

def Listener.callback {σ π : Type} (l : Listener) : Callback σ π where
  name := l.name
  body _ shared := (l.failure, shared)

namespace SettingsCache

/-- The hook by which a cache hears of closed documents. -/
def closeHook : Callback SettingsCache String where
  name := .ok "_on_close"
  body uri c := (none, c.forget uri)

/-- A document was closed, and the hooks on that are called: some that were added before the cache's own and
some that were added after it. -/
def documentClosed (c : SettingsCache) (before after : List Listener) (uri : String) : SettingsCache :=
  let hooks := before.map Listener.callback ++ closeHook :: after.map Listener.callback
  (({ closed := hooks } : Callbacks SettingsCache String).broadcast .closed uri).runFrom { shared := c }
    |>.2.shared

end SettingsCache

/-- Why there are no settings for a document. The client fails in ways of its own. -/
inductive SettingsFault (ε : Type) where
  /-- the client gave no answer -/
  | client (cause : ε)
  /-- its answer is refused -/
  | refused (e : FormatError)
  /-- its answer could not even be examined -/
  | unforeseen (e : Settings.Error)

/-- A cache, and whether the client is asked for what it does not hold. -/
structure SettingsSource where
  cache : SettingsCache := {}
  asks : Bool := false
  deriving DecidableEq, Repr

/-- What comes of the need for settings: the settings, and the documents for which the client was asked. -/
structure Supply (ε : Type) where
  source : SettingsSource
  result : Except (SettingsFault ε) Settings
  asked : List String := []

namespace SettingsSource

variable {ε : Type}

def start (globals : Settings) : SettingsSource := { cache := { globals } }

/-- Asks the client for the settings of a document. What it answers is kept if it can be used. -/
def fetch (s : SettingsSource) (uri : String) : Except ε Value → Supply ε
  | .error cause => ⟨s, .error (.client cause), [uri]⟩
  | .ok v =>
    match s.cache.settle uri v with
    | .ok (settings, cache) => ⟨{ s with cache }, .ok settings, [uri]⟩
    | .error e =>
      if e.isRefusal then ⟨s, .error (.refused (.invalidSettings uri e.message)), [uri]⟩
      else ⟨s, .error (.unforeseen e), [uri]⟩

/-- The settings for a document. The client's answer counts if it is asked. -/
def get (s : SettingsSource) (uri : String) (answer : Except ε Value) : Supply ε :=
  if !s.asks then ⟨s, .ok s.cache.globals, []⟩
  else match s.cache.find? uri with
    | some settings => ⟨s, .ok settings, []⟩
    | none => s.fetch uri answer

/-- What is done to a source of settings. -/
inductive Operation (ε : Type) where
  | get (uri : String) (answer : Except ε Value)
  | forget (uri : String)
  | close (uri : String) (before after : List Listener)
  | clear
  | push (pushed : Value)
  /-- whether the client is asked from now on -/
  | ask (on : Bool)

/-- The source after an operation. One that fails leaves it as it was. -/
def perform (s : SettingsSource) : Operation ε → SettingsSource
  | .get uri answer => (s.get uri answer).source
  | .forget uri => { s with cache := s.cache.forget uri }
  | .close uri before after => { s with cache := s.cache.documentClosed before after uri }
  | .clear => { s with cache := s.cache.clear }
  | .push pushed => { s with cache := (s.cache.updateGlobals pushed).toOption.getD s.cache }
  | .ask on => { s with asks := on }

/-- The source after operations, one after another. -/
def run (s : SettingsSource) (ops : List (Operation ε)) : SettingsSource := ops.foldl perform s

end SettingsSource

end FormatServer
