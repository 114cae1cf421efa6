import FormatServer.Number.Written
import FormatServer.Text.Digit
import FormatServer.Value.Basic

/-!
Writing JSON. Characters stand for themselves but for quotes, backslashes and controls. Values that
JSON has no form for are written as null, and the names of a mapping's members are texts.
-/

namespace FormatServer.Json

/-- One character of a string. -/
def writtenChar (c : Char) : List Char :=
  if c = '"' ∨ c = '\\' then ['\\', c]
  else if c = '\n' then ['\\', 'n']
  else if c = '\r' then ['\\', 'r']
  else if c = '\t' then ['\\', 't']
  else if c.toNat < 0x20 then '\\' :: 'u' :: Text.hexadecimal 4 c.toNat
  else [c]

/-- A string between its quotes. -/
def writtenString (s : String) : List Char := '"' :: s.toList.flatMap writtenChar ++ ['"']

/-- The text of a floating-point number. -/
def writtenFloat : Binary64 → List Char
  | .nan => ['N', 'a', 'N']
  | .infinite negative => Binary64.signed negative "Infinity".toList
  | x => x.writtenChars

mutual

def written : Value → List Char
  | .bool true => ['t', 'r', 'u', 'e']
  | .bool false => ['f', 'a', 'l', 's', 'e']
  | .int i => (writtenInt i).toList
  | .float x => writtenFloat x
  | .text s => writtenString s
  | .list [] => ['[', ']']
  | .list (v :: rest) => '[' :: written v ++ writtenItems rest
  | .map [] => ['\x7b', '\x7d']
  | .map (entry :: rest) => '\x7b' :: writtenMember entry ++ writtenMembers rest
  | _ => ['n', 'u', 'l', 'l']

/-- The items after the first, and the closing bracket. -/
def writtenItems : List Value → List Char
  | [] => [']']
  | v :: rest => ',' :: written v ++ writtenItems rest

/-- The members after the first, and the closing brace. -/
def writtenMembers : List (Value × Value) → List Char
  | [] => ['\x7d']
  | entry :: rest => ',' :: writtenMember entry ++ writtenMembers rest

/-- A member: its name, a colon, its value. -/
def writtenMember : Value × Value → List Char
  | (name, v) => writtenString (name.text?.getD "") ++ ':' :: written v

end

def write (v : Value) : String := String.ofList (written v)

end FormatServer.Json
