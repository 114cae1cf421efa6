import FormatServer.Command.Words
import FormatServer.Value.Shown

/-!
Settings of a formatting run and the reading of one setting from a dynamic value. A reading either
gives the normal form of the setting or says why the value is none.
-/

namespace FormatServer

structure Settings where
  /-- the formatter and its first arguments -/
  command : List String := []
  /-- how names of temporary files start -/
  tempPrefix : String := "fmtbridge"
  /-- the extension for documents without one, with its dot -/
  defaultExtension : String := ".txt"
  /-- seconds until the formatter is stopped -/
  timeout : Binary64 := .finite false (10 * Binary64.ticksPerUnit)
  deriving DecidableEq, Repr

namespace Settings

/-- The settings that a formatting run has one of. -/
inductive Field where
  | command
  | tempPrefix
  | defaultExtension
  | timeout
  deriving DecidableEq, Repr

/-- The names of the fields: as clients write them, and as files do. -/
def Field.names : List (String × Field) :=
  [("command", .command), ("tempPrefix", .tempPrefix), ("temp_prefix", .tempPrefix),
   ("defaultExtension", .defaultExtension), ("default_extension", .defaultExtension),
   ("timeout", .timeout)]

def Field.ofName? (name : String) : Option Field := Field.names.lookup name

/-- Why a value is no setting, or no layer of settings. -/
inductive Error where
  | notText (key : String) (value : Value)
  | notCommand (value : Value)
  | words (cause : Command.SplitError)
  | notNumber (value : Value)
  | notPositive (value : Value)
  | tooLarge
  | notMapping (value : Value)

namespace Error

/-- The value whose text is part of the message. -/
def value? : Error → Option Value
  | notText _ v | notCommand v | notNumber v | notPositive v => some v
  | _ => none

/-- The text of an error. An integer with too many digits for a message takes its place. -/
def message (e : Error) : String :=
  if (e.value?.map Value.isOversize).getD false then
    "Exceeds the limit (4300 digits) for integer string conversion; " ++
      "use sys.set_int_max_str_digits() to increase the limit"
  else match e with
    | notText key v => key ++ " must be a string, got " ++ v.shown
    | notCommand v => "command must be a string or a list of strings, got " ++ v.shown
    | words cause => cause.message
    | notNumber v => "timeout must be a number of seconds, got " ++ v.shown
    | notPositive v => "timeout must be positive, got " ++ v.shown
    | tooLarge => "int too large to convert to float"
    | notMapping v => Text.quoted v.kind ++ " object has no attribute 'items'"

def kind : Error → String
  | tooLarge => "OverflowError"
  | notMapping _ => "AttributeError"
  | _ => "ValueError"

/-- The error is a refusal of a value, which callers report and go on from. The other two mean that
the value could not even be examined. -/
def isRefusal : Error → Bool
  | tooLarge | notMapping _ => false
  | _ => true

end Error

/-- Reads a command: a line of words, or a list of them. -/
def readCommand : Value → Except Error (List String)
  | .text line => (Command.words line).mapError .words
  | .list items =>
    match Value.texts? items with
    | some words => .ok words
    | none => .error (.notCommand (.list items))
  | v => .error (.notCommand v)

/-- The timeout of an integer, with the number nearest to it if there is one. -/
def wholeTimeout (i : Int) : Option Binary64 → Except Error Binary64
  | none => .error .tooLarge
  | some x => if 0 < i then .ok x else .error (.notPositive (.int i))

/-- Reads a timeout: a positive number of seconds. -/
def readTimeout : Value → Except Error Binary64
  | .int i => wholeTimeout i (Binary64.ofInt? i)
  | .float x =>
    if x.isFinite && x.isPositive then .ok x else .error (.notPositive (.float x))
  | v => .error (.notNumber v)

def readText (key : String) : Value → Except Error String
  | .text s => .ok s
  | v => .error (.notText key v)

/-- An extension with a dot in front. -/
def dotted (extension : String) : String :=
  match extension.toList with
  | '.' :: _ => extension
  | cs => String.ofList ('.' :: cs)

end Settings

end FormatServer
