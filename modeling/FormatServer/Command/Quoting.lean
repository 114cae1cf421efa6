import FormatServer.Command.Words

/-!
Writing words so that splitting gives them back: between single quotes, between double quotes, or
bare with a backslash before every character.
-/

namespace FormatServer.Command

/-- The ways to write a word. -/
inductive Style where
  | single
  | double
  | bare
  deriving DecidableEq, Repr

/-- One character between single quotes. A single quote closes them, stands between double quotes, and
opens them again. -/
def singleChar (c : Char) : List Char :=
  if c = '\'' then ['\'', '"', '\'', '"', '\''] else [c]

/-- One character between double quotes. -/
def doubleChar (c : Char) : List Char :=
  if c = '"' ∨ c = '\\' then ['\\', c] else [c]

/-- A word as it is written in a style. A bare word must not be empty. -/
def Style.write : Style → List Char → List Char
  | single, word => '\'' :: word.flatMap singleChar ++ ['\'']
  | double, word => '"' :: word.flatMap doubleChar ++ ['"']
  | bare, word => word.flatMap fun c => ['\\', c]

/-- A word that can be written in a style. -/
def Style.Admits (style : Style) (word : List Char) : Prop := style = bare → word ≠ []

/-- Characters that separate words, at least one of them. -/
def IsGap (gap : List Char) : Prop := gap ≠ [] ∧ ∀ c ∈ gap, isSeparator c = true

/-- A written word with the style it is written in and the gap before it. -/
structure Written where
  gap : List Char
  style : Style
  word : List Char

/-- Words written one after another, each after its gap. -/
def writeLine : List Written → List Char
  | [] => []
  | w :: rest => w.gap ++ w.style.write w.word ++ writeLine rest

end FormatServer.Command
