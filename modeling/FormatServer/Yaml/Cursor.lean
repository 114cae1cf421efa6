/-!
A place in a YAML text: what is left of it, and how far it is from the start, by characters, lines and
columns. Past the end stands the null character, which no text holds.
-/

namespace FormatServer.Yaml

def isBreak (c : Char) : Bool :=
  c = '\n' || c = '\r' || c = '\x85' || c = '\u2028' || c = '\u2029'

def isEnd (c : Char) : Bool := c = '\x00'

def endsLine (c : Char) : Bool := isEnd c || isBreak c

def endsPart (c : Char) : Bool := c = ' ' || endsLine c

/-- A space, a tab, a line break, or the end of the text. -/
def endsWord (c : Char) : Bool := c = '\t' || endsPart c

/-- A place in a text. -/
structure Cursor where
  rest : List Char
  index : Nat
  line : Nat
  column : Nat
  deriving Repr

namespace Cursor

def start (text : List Char) : Cursor := ⟨text, 0, 0, 0⟩

/-- The character some places ahead. -/
def peek (c : Cursor) (ahead : Nat) : Char := c.rest.getD ahead '\x00'

def next (c : Cursor) : Char := c.peek 0

/-- The place after the next character. A carriage return in front of a line feed does not end the line,
and a byte order mark takes no column. -/
def forward (c : Cursor) : Cursor :=
  match c.rest with
  | [] => c
  | d :: rest =>
    if isBreak d && !(d = '\r' && rest.head? = some '\n') then ⟨rest, c.index + 1, c.line + 1, 0⟩
    else if d = '\uFEFF' then ⟨rest, c.index + 1, c.line, c.column⟩
    else ⟨rest, c.index + 1, c.line, c.column + 1⟩

/-- The place after some characters. -/
def forwardBy (c : Cursor) : Nat → Cursor
  | 0 => c
  | n + 1 => c.forward.forwardBy n

/-- The characters ahead that have a property. -/
def run (c : Cursor) (p : Char → Bool) : List Char := c.rest.takeWhile p

/-- The characters ahead that have a property, and the place after them. -/
def takeWhile (c : Cursor) (p : Char → Bool) : List Char × Cursor :=
  let taken := c.run p
  (taken, c.forwardBy taken.length)

/-- The place after the characters ahead that have a property. -/
def skipWhile (c : Cursor) (p : Char → Bool) : Cursor := (c.takeWhile p).2

/-- Passes a line break. Those of the ASCII characters and the next line are read as a line feed. -/
def takeBreak (c : Cursor) : List Char × Cursor :=
  if isBreak c.next then
    if c.next = '\r' && c.peek 1 = '\n' then (['\n'], c.forwardBy 2)
    else if c.next = '\u2028' || c.next = '\u2029' then ([c.next], c.forward)
    else (['\n'], c.forward)
  else ([], c)

/-- Three dashes or three points ahead that stand alone. -/
def isAtMark (c : Cursor) : Bool :=
  let three := c.rest.take 3
  (three = ['-', '-', '-'] || three = ['.', '.', '.']) && endsWord (c.peek 3)

/-- Passes spaces, a comment and the end of the line; none when anything else is in the line. -/
def finishLine? (c : Cursor) : Option Cursor :=
  let c := c.skipWhile (· = ' ')
  let c := if c.next = '#' then c.skipWhile (!endsLine ·) else c
  if endsLine c.next then some c.takeBreak.2 else none

end Cursor

end FormatServer.Yaml
