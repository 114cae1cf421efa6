import FormatServer.Number.Literal
import FormatServer.Value.Shown

/-!
Why a YAML document has no value.
-/

namespace FormatServer.Yaml

/-- A part of a date or time that is out of range. -/
inductive DateDefect where
  | year (n : Nat)
  | month
  | day
  | hour
  | minute
  | second
  | zone (seconds : Int)
  deriving DecidableEq, Repr

def DateDefect.message : DateDefect → String
  | year n => "year " ++ toString n ++ " is out of range"
  | month => "month must be in 1..12"
  | day => "day is out of range for month"
  | hour => "hour must be in 0..23"
  | minute => "minute must be in 0..59"
  | second => "second must be in 0..59"
  | zone seconds =>
    "offset must be a timedelta strictly between -timedelta(hours=24) and timedelta(hours=24), not " ++
      shownSpan seconds ++ "."

/-- Why a document has no value. -/
inductive Error where
  /-- the text is no YAML document, or one with a part that no value stands for -/
  | malformed
  /-- a number without a digit -/
  | emptyNumber
  /-- a truth value that is no known word -/
  | truth (word : String)
  /-- a malformed integer -/
  | integer (cause : Literal.IntError)
  /-- a malformed floating-point number -/
  | decimal (text : String)
  /-- a number in sixtieths with more places than a power of sixty can stand for -/
  | sixtiethSize
  /-- a malformed point in time -/
  | timestamp
  /-- a point in time that a mapping gives by its default value -/
  | mappedTimestamp
  /-- a date out of range -/
  | date (defect : DateDefect)
  /-- an escaped code point past the last character -/
  | codePoint
  /-- an escaped code point past all bounds -/
  | codeSize

def integerMessage : Literal.IntError → String
  | .malformed base text =>
    "invalid literal for int() with base " ++ toString base ++ ": " ++
      String.ofList (Text.quotedChars text)
  | .tooLong digits =>
    "Exceeds the limit (4300 digits) for integer string conversion: value has " ++ toString digits ++
      " digits; use sys.set_int_max_str_digits() to increase the limit"

def Error.message : Error → String
  | malformed => "<yaml>"
  | emptyNumber => "string index out of range"
  | truth word => Text.quoted word
  | integer cause => integerMessage cause
  | decimal text => "could not convert string to float: " ++ Text.quoted text
  | sixtiethSize => "int too large to convert to float"
  | timestamp => "'NoneType' object has no attribute 'groupdict'"
  | mappedTimestamp => "expected string or bytes-like object, got 'list'"
  | date defect => defect.message
  | codePoint => "chr() arg not in range(0x110000)"
  | codeSize => "Python int too large to convert to C int"

def Error.kind : Error → String
  | malformed => "YAMLError"
  | emptyNumber => "IndexError"
  | truth _ => "KeyError"
  | timestamp => "AttributeError"
  | mappedTimestamp => "TypeError"
  | sixtiethSize | codeSize => "OverflowError"
  | integer _ | decimal _ | date _ | codePoint => "ValueError"

/-- The error is one that a reader of settings reports and goes on from. -/
def Error.isRefusal : Error → Bool
  | malformed | integer _ | decimal _ | date _ | codePoint => true
  | emptyNumber | truth _ | sixtiethSize | timestamp | mappedTimestamp | codeSize => false

end FormatServer.Yaml
