import FormatServer.Settings.Basic

/-!
Layers of settings. A layer is a mapping whose known entries replace fields; unknown names and null
values do not count. A layer with a bad entry is refused as a whole, for the first one.
-/

namespace FormatServer.Settings

/-- A field with its new content in normal form. -/
inductive Change where
  | command (words : List String)
  | tempPrefix (s : String)
  | defaultExtension (s : String)
  | timeout (seconds : Binary64)
  deriving DecidableEq, Repr

/-- Puts a change into effect. -/
def Change.apply (s : Settings) : Change → Settings
  | command words => { s with command := words }
  | tempPrefix p => { s with tempPrefix := p }
  | defaultExtension e => { s with defaultExtension := e }
  | timeout x => { s with timeout := x }

/-- Reads the change that a value of a field makes. -/
def Field.read (field : Field) (key : String) (value : Value) : Except Error Change :=
  match field with
  | .command => (readCommand value).map .command
  | .tempPrefix => (readText key value).map .tempPrefix
  | .defaultExtension => (readText key value).map fun s => .defaultExtension (dotted s)
  | .timeout => (readTimeout value).map .timeout

/-- The change that an entry of a layer makes, if it makes one. -/
def entryChange? : Value × Value → Option (Except Error Change)
  | (.text key, value) =>
    match Field.ofName? key, value with
    -- Null stands for a value that is not given.
    | none, _ | _, .null => none
    | some field, value => some (field.read key value)
  | _ => none

/-- The changes of a layer in their order, or the first error. -/
def changes : List (Value × Value) → Except Error (List Change)
  | [] => .ok []
  | entry :: rest =>
    match entryChange? entry with
    | none => changes rest
    | some (.error e) => .error e
    | some (.ok c) => (changes rest).map (c :: ·)

/-- The settings with a layer on top. A value that counts as absent changes nothing. -/
def merged (s : Settings) (layer : Value) : Except Error Settings :=
  if layer.isFalsy then .ok s
  else match layer with
    | .map entries => (changes entries).map (·.foldl Change.apply s)
    | v => .error (.notMapping v)

/-- The settings with layers on top, one after another; a refused layer leaves them as they are. -/
def layered (s : Settings) (layers : List Value) : Settings :=
  layers.foldl (fun s layer => (s.merged layer).toOption.getD s) s

/-- The settings with layers on top, all of which must be accepted. -/
def mergedAll (s : Settings) : List Value → Except Error Settings
  | [] => .ok s
  | layer :: rest => do (← s.merged layer).mergedAll rest

end FormatServer.Settings
