import FormatServer.Text.Digit
import FormatServer.Text.Pieces
import FormatServer.Value.Shown

/-!
The switches of the command line, and what a single word of it is taken for. A long switch may be
shortened as long as no other one starts in the same way, and may have its value after an equals sign.
A negative number is no switch.
-/

namespace FormatServer.CommandLine

open Text

inductive Switch where
  | help
  | formatter
  | timeout
  | tcp
  | host
  | port
  | version
  deriving DecidableEq, Repr

def names : List (String × Switch) :=
  [("-h", .help), ("--help", .help), ("--formatter", .formatter), ("--timeout", .timeout),
   ("--tcp", .tcp), ("--host", .host), ("--port", .port), ("--version", .version)]

namespace Switch

def takesValue : Switch → Bool
  | formatter | timeout | host | port => true
  | help | tcp | version => false

def label (s : Switch) : String := joined "/" ((names.filter (·.2 = s)).map (·.1))

end Switch

/-- What a word of the command line is taken for. -/
inductive Word where
  /-- a value, or a word too many -/
  | plain
  /-- two dashes, after which every word is plain -/
  | separator
  /-- a switch by its name, with the value attached to it -/
  | switch (s : Switch) (name : String) (attached : Option (List Char))
  /-- a switch that does not exist -/
  | unknown
  deriving DecidableEq, Repr

/-- A short form that more than one switch has. -/
structure Ambiguity where
  word : String
  candidates : List String
  deriving DecidableEq, Repr

/-- A negative number: a dash and digits, which may have a point before the last of them. A line feed may
follow. -/
def isNegativeNumber : List Char → Bool
  | '-' :: cs =>
    let body := if cs.getLast? = some '\n' then cs.dropLast else cs
    let isDigit := fun c => (digitValue? c).isSome
    match cutAt '.' body with
    | (whole, none) => !whole.isEmpty && whole.all isDigit
    | (whole, some fraction) => whole.all isDigit && !fraction.isEmpty && fraction.all isDigit
  | _ => false

/-- A word that is no switch and no value unless it looks like a value. -/
def leftover (cs : List Char) : Word :=
  if isNegativeNumber cs || cs.contains ' ' then .plain else .unknown

/-- The switches that a word with two dashes may be short for. -/
def candidates (stem : List Char) : List (String × Switch) :=
  names.filter fun (name, _) => stem.isPrefixOf name.toList

/-- What a word with two dashes is taken for when it is no full name. -/
def readLong (word : String) : Except Ambiguity Word :=
  let (stem, attached) := cutAt '=' word.toList
  match candidates stem with
  | [] => .ok (leftover word.toList)
  | [(name, s)] => .ok (.switch s name attached)
  | many => .error ⟨word, many.map (·.1)⟩

/-- What a word with one dash is taken for when it is no full name. A short switch may have its value
right after it. -/
def readShort (word : String) : Word :=
  let name := String.ofList (word.toList.take 2)
  match names.lookup name with
  | some s => .switch s name (some (word.toList.drop 2))
  | none => leftover word.toList

/-- What a word is taken for. -/
def readWord (word : String) : Except Ambiguity Word :=
  match word.toList with
  | '-' :: second :: _ =>
    match names.lookup word with
    | some s => .ok (.switch s word none)
    | none =>
      let (stem, attached) := cutAt '=' word.toList
      match names.lookup (String.ofList stem), attached with
      | some s, some value => .ok (.switch s (String.ofList stem) (some value))
      -- Full names come first, so a name that starts another is never ambiguous.
      | _, _ => if second = '-' then readLong word else .ok (readShort word)
  | _ => .ok .plain

/-- What the words of a command line are taken for. -/
def readWords : List String → Except Ambiguity (List (String × Word))
  | [] => .ok []
  -- Words after the dashes are not looked at, so none of them is at fault.
  | "--" :: rest => .ok (("--", .separator) :: rest.map (·, .plain))
  | word :: rest => do return (word, ← readWord word) :: (← readWords rest)

end FormatServer.CommandLine
