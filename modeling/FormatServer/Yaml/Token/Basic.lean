import FormatServer.Yaml.Error

/-!
The tokens of a YAML text.
-/

namespace FormatServer.Yaml

/-- The tag of a node as it is written: a handle, if it has one, and the rest. -/
structure WrittenTag where
  handle : Option String
  suffix : String
  deriving DecidableEq, Repr

inductive Directive where
  | version (major : Nat)
  | tagHandle (handle start : String)
  | other
  deriving DecidableEq, Repr

/-- A token. The last one of a text is its end, or the fault that reading stopped at. -/
inductive Token where
  | streamEnd
  | fault (e : Error)
  | directive (d : Directive)
  | documentStart
  | documentEnd
  | blockSequenceStart
  | blockMappingStart
  | blockEnd
  | flowSequenceStart
  | flowSequenceEnd
  | flowMappingStart
  | flowMappingEnd
  | flowEntry
  | blockEntry
  | key
  | value
  | alias (name : String)
  | anchor (name : String)
  | tag (t : WrittenTag)
  | scalar (text : List Char) (plain : Bool)

end FormatServer.Yaml
