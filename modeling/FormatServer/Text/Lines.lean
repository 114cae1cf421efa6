/-!
Lines of a text with their line breaks. `cutLines` cuts after every break of a chosen set, a carriage
return and the line feed after it being one break; nothing is lost (`flatten_cutLines`).
-/

namespace FormatServer.Text

/-- The line breaks of Unicode text: line feed, carriage return, the other vertical spaces, the
information separators down to the record, the next line, and the line and paragraph separators. -/
def isLineBreak (c : Char) : Bool :=
  [0xA, 0xB, 0xC, 0xD, 0x1C, 0x1D, 0x1E, 0x85, 0x2028, 0x2029].contains c.toNat

/-- The line breaks of the Language Server Protocol: line feed and carriage return. -/
def isProtocolBreak (c : Char) : Bool := c = '\n' || c = '\r'

/-- Puts a character in front of the first line. -/
def consChar (c : Char) : List (List Char) → List (List Char)
  | [] => [[c]]
  | line :: rest => (c :: line) :: rest

/-- The lines of a text with their breaks. A text that ends with a break has no empty line after it. -/
def cutLines (isBreak : Char → Bool) : List Char → List (List Char)
  | [] => []
  | [c] => [[c]]
  | c :: d :: rest =>
    if c = '\r' ∧ d = '\n' ∧ isBreak c then ['\r', '\n'] :: cutLines isBreak rest
    else if isBreak c then [c] :: cutLines isBreak (d :: rest)
    else consChar c (cutLines isBreak (d :: rest))

/-- The lines of a text with their breaks, by all breaks of Unicode text. -/
def lines (cs : List Char) : List (List Char) := cutLines isLineBreak cs

/-- The lines of a text with their breaks, by the protocol's breaks. -/
def protocolLines (cs : List Char) : List (List Char) := cutLines isProtocolBreak cs

/-- A line without the carriage returns and line feeds at its end. -/
def lineContent (line : List Char) : List Char :=
  (line.reverse.dropWhile isProtocolBreak).reverse

@[simp] theorem flatten_consChar (c : Char) (ls : List (List Char)) :
    (consChar c ls).flatten = c :: ls.flatten := by
  cases ls <;> simp [consChar]

/-- Cutting loses nothing. -/
@[simp] theorem flatten_cutLines (isBreak : Char → Bool) (cs : List Char) :
    (cutLines isBreak cs).flatten = cs := by
  fun_induction cutLines isBreak cs <;> simp_all

end FormatServer.Text
