import FormatServer.Settings.Layer

/-!
Global settings, and the settings of single documents that a client has sent. An entry is made from
one answer of the client and stays until it is dropped.
-/

namespace FormatServer

/-- The name of the client's section of settings. -/
def settingsSection : String := "fmtbridge"

/-- Global settings, and those kept for single documents by the URI they were asked for. -/
structure SettingsCache where
  globals : Settings := {}
  documents : List (String × Settings) := []
  deriving DecidableEq, Repr

namespace SettingsCache

def find? (c : SettingsCache) (uri : String) : Option Settings := c.documents.lookup uri

def contains (c : SettingsCache) (uri : String) : Bool := (c.find? uri).isSome

def clear (c : SettingsCache) : SettingsCache := { c with documents := [] }

def forget (c : SettingsCache) (uri : String) : SettingsCache :=
  { c with documents := c.documents.filter (·.1 ≠ uri) }

def keep (c : SettingsCache) (uri : String) (s : Settings) : SettingsCache :=
  { c with documents := (c.forget uri).documents ++ [(uri, s)] }

/-- Applies the client's answer for a document to the global settings and keeps the outcome. An answer
that is no mapping changes nothing. -/
def settle (c : SettingsCache) (uri : String) (answer : Value) :
    Except Settings.Error (Settings × SettingsCache) := do
  let s ← c.globals.merged (if answer.isMap then answer else .null)
  return (s, c.keep uri s)

/-- The part of a pushed value that holds settings: the section of its own if that is a mapping, else
the mapping itself. -/
def pushedLayer? (pushed : Value) : Option Value :=
  if pushed.isMap then
    match pushed.field? settingsSection with
    -- A section that is no mapping does not count as one.
    | some (.map entries) => some (.map entries)
    | _ => some pushed
  else none

/-- Applies settings that a client pushed to the global ones. A value that is no mapping does nothing. -/
def updateGlobals (c : SettingsCache) (pushed : Value) : Except Settings.Error SettingsCache :=
  match pushedLayer? pushed with
  | none => .ok c
  | some layer => do return { c with globals := ← c.globals.merged layer }

def uris (c : SettingsCache) : List String := c.documents.map (·.1)

end SettingsCache

end FormatServer
