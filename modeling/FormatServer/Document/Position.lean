import FormatServer.Number.Written
import FormatServer.Text.Lines
import FormatServer.Text.Units

/-!
Positions in a text as a client counts them: lines, and characters of a line in code units. A position
past the end of a line stands at its end, before the line break; one past the last line at the end of
the text.
-/

namespace FormatServer

open Text

/-- A place in a text: a line, and code units from its start. -/
structure Position where
  line : Nat
  character : Nat
  deriving DecidableEq, Repr

/-- A range of a text, the end not included. -/
structure TextRange where
  start : Position
  stop : Position
  deriving DecidableEq, Repr

namespace Position

/-- The largest component of a position. -/
def limit : Nat := 2147483647

/-- A component that is out of range: its name and its text. -/
structure RangeError where
  component : String
  shown : String
  deriving DecidableEq, Repr

def RangeError.message (e : RangeError) : String :=
  "Position." ++ e.component ++ " should be in range [0:2147483647], but was " ++ e.shown ++ "."

def component (name : String) (i : Int) : Except RangeError Nat :=
  if 0 ≤ i ∧ i ≤ (limit : Int) then .ok i.toNat else .error ⟨name, writtenInt i⟩

/-- A position from any two integers. -/
def ofInts (line character : Int) : Except RangeError Position := do
  return ⟨← component "line" line, ← component "character" character⟩

end Position

namespace Text.Encoding

/-- The least count of characters of a text whose size is a number of code units at least; all of them
when the text is smaller. -/
def indexOf (e : Encoding) (units : Nat) : List Char → Nat
  | [] => 0
  | c :: cs => if units = 0 then 0 else e.indexOf (units - e.width c) cs + 1

end Text.Encoding

/-- The index in a text that a position stands for. -/
def offsetAt (e : Encoding) (text : List Char) (p : Position) : Nat :=
  let ls := lines text
  match ls[p.line]? with
  | none => text.length
  | some line => (ls.take p.line).flatten.length + e.indexOf p.character (lineContent line)

/-- A line that ends with a carriage return or a line feed. -/
def isTerminated (line : List Char) : Bool := line.getLast?.any isProtocolBreak

/-- The position after the last character of a text. -/
def endPosition (e : Encoding) (text : List Char) : Position :=
  let ls := lines text
  match ls.getLast? with
  | none => ⟨0, 0⟩
  | some last =>
    -- After a line break there is one more line, with nothing on it.
    if isTerminated last then ⟨ls.length, 0⟩ else ⟨ls.length - 1, e.size last⟩

/-- The part of a text from one index to another; nothing when the second is not after the first. -/
def slice (text : List Char) (first last : Nat) : List Char := (text.take last).drop first

/-- The part of a text in a range. -/
def textIn (e : Encoding) (text : List Char) (r : TextRange) : List Char :=
  slice text (offsetAt e text r.start) (offsetAt e text r.stop)

end FormatServer
