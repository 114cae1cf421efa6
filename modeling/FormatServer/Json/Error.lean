/-!
Why a text is no JSON document, and where.
-/

namespace FormatServer.Json

/-- What a reader of JSON met. -/
inductive Cause where
  | value
  | propertyName
  | colon
  | comma
  | extraData
  | unterminated
  | controlCharacter
  | escape
  | unicodeEscape
  | longInteger (digits : Nat)
  deriving DecidableEq, Repr

def Cause.message : Cause → String
  | value => "Expecting value"
  | propertyName => "Expecting property name enclosed in double quotes"
  | colon => "Expecting ':' delimiter"
  | comma => "Expecting ',' delimiter"
  | extraData => "Extra data"
  | unterminated => "Unterminated string starting at"
  | controlCharacter => "Invalid control character at"
  | escape => "Invalid \\escape"
  | unicodeEscape => "Invalid \\uXXXX escape"
  | longInteger digits =>
    "Exceeds the limit (4300 digits) for integer string conversion: value has " ++ toString digits ++
      " digits; use sys.set_int_max_str_digits() to increase the limit"

/-- A refusal: its cause, and how much of the text was left there. -/
structure Refusal where
  cause : Cause
  left : Nat
  deriving DecidableEq, Repr

/-- A refusal with its place: line and column from one, and the count of characters before. -/
structure Error where
  cause : Cause
  line : Nat
  column : Nat
  offset : Nat
  deriving DecidableEq, Repr

/-- Finds the place of a refusal in the text. -/
def Refusal.locate (text : List Char) (r : Refusal) : Error :=
  let offset := text.length - r.left
  let before := text.take offset
  { cause := r.cause
    line := before.count '\n' + 1
    column := (before.reverse.takeWhile (· ≠ '\n')).length + 1
    offset }

def Error.message (e : Error) : String :=
  match e.cause with
  | .longInteger digits => (Cause.longInteger digits).message
  | cause =>
    cause.message ++ ": line " ++ toString e.line ++ " column " ++ toString e.column ++
      " (char " ++ toString e.offset ++ ")"

end FormatServer.Json
