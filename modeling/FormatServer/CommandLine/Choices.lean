import FormatServer.CommandLine.Switch
import FormatServer.Number.Literal

/-!
What a command line asks for. Switches take effect in their order, so the first fault or the first request
for a text ends the reading; words too many are found out last.
-/

namespace FormatServer.CommandLine

/-- What is left of the value that a switch is given. -/
inductive Given (α : Type) where
  | value (a : α)
  /-- an empty list, when the value was taken away -/
  | nothing
  deriving DecidableEq, Repr

namespace Given

/-- What is left of a word. Two dashes count as the end of the switches and are taken away. -/
def ofWord (word : String) : Given String := if word = "--" then nothing else value word

/-- Reads what is left. Nothing is read as nothing. -/
def read {α β : Type} (f : α → Option β) : Given α → Option (Given β)
  | value a => (f a).map value
  | nothing => some nothing

end Given

/-- What the switches choose. -/
structure Choices where
  formatter : Option (Given String) := none
  timeout : Option (Given Binary64) := none
  tcp : Bool := false
  host : Given String := .value "127.0.0.1"
  port : Given Int := .value 2087
  deriving DecidableEq, Repr

/-- A fault of a command line. -/
inductive Fault where
  | ambiguous (cause : Ambiguity)
  | noValue (s : Switch)
  | needlessValue (s : Switch) (value : List Char)
  | notNumber (s : Switch) (kind : String) (value : String)
  | tooMany (words : List String)
  /-- the settings are refused -/
  | settings (text : String)
  deriving DecidableEq, Repr

namespace Fault

def ofSwitch (s : Switch) (text : String) : String := "argument " ++ s.label ++ ": " ++ text

def message : Fault → String
  | ambiguous cause =>
    "ambiguous option: " ++ cause.word ++ " could match " ++ joined ", " cause.candidates
  | noValue s => ofSwitch s "expected one argument"
  | needlessValue s value =>
    ofSwitch s ("ignored explicit argument " ++ String.ofList (Text.quotedChars value))
  | notNumber s kind value => ofSwitch s ("invalid " ++ kind ++ " value: " ++ Text.quoted value)
  | tooMany words => "unrecognized arguments: " ++ joined " " words
  | settings text => text

end Fault

/-- Why the reading of a command line ends before its end. -/
inductive Halt where
  | help
  | version
  | fault (f : Fault)
  deriving DecidableEq, Repr

def readSeconds (text : String) : Option Binary64 := Literal.readFloat? text.toList

def readNumber (text : String) : Option Int := (Literal.readInt 10 text.toList).toOption

def choose (c : Choices) (s : Switch) (word : String) : Except Halt Choices :=
  let given := Given.ofWord word
  match s with
  | .formatter => .ok { c with formatter := some given }
  | .timeout =>
    match given.read readSeconds with
    | some x => .ok { c with timeout := some x }
    | none => .error (.fault (.notNumber s "float" word))
  | .host => .ok { c with host := given }
  | .port =>
    match given.read readNumber with
    | some i => .ok { c with port := i }
    | none => .error (.fault (.notNumber s "int" word))
  | .help | .tcp | .version => .ok c

def turnOn (c : Choices) : Switch → Except Halt Choices
  | .help => .error .help
  | .version => .error .version
  | .tcp => .ok { c with tcp := true }
  | _ => .ok c

/-- The short switch of a letter. -/
def short? (letter : Char) : Option Switch := names.lookup (String.ofList ['-', letter])

/-- The switches of a short one with letters after it, each of which must be another short one. -/
def cluster (s : Switch) : List Char → Except Halt (List Switch)
  | [] => .ok [s]
  | letter :: rest =>
    match short? letter with
    | none => .error (.fault (.needlessValue s (letter :: rest)))
    | some next => (cluster next rest).map (s :: ·)

/-- A name of one dash. -/
def isShort (name : String) : Bool :=
  match name.toList with
  | [_, c] => c ≠ '-'
  | _ => false

def takeAttached (c : Choices) (s : Switch) (name : String) (value : List Char) :
    Except Halt Choices :=
  if s.takesValue then choose c s (String.ofList value)
  else if isShort name && !value.isEmpty then do (← cluster s value).foldlM turnOn c
  else .error (.fault (.needlessValue s value))

/-- Takes the words of a command line one after another. Words too many are kept until the end. -/
def takeWords (c : Choices) (extra : List String) : List (String × Word) → Except Halt Choices
  | [] => if extra.isEmpty then .ok c else .error (.fault (.tooMany extra))
  | (_, .switch s name (some value)) :: rest => do
    takeWords (← takeAttached c s name value) extra rest
  | (_, .switch s _ none) :: rest =>
    if s.takesValue then
      -- Only a plain word can be a value; what looks like a switch is none.
      match rest with
      | (value, .plain) :: rest => do takeWords (← choose c s value) extra rest
      | _ => .error (.fault (.noValue s))
    else do takeWords (← turnOn c s) extra rest
  | (word, _) :: rest => takeWords c (extra ++ [word]) rest

/-- Reads a command line. The formatter of the environment is taken when no switch names one. -/
def read (environment : Option String) (words : List String) : Except Halt Choices := do
  let words ← (readWords words).mapError fun cause => .fault (.ambiguous cause)
  takeWords { formatter := environment.map .value } [] words

end FormatServer.CommandLine
