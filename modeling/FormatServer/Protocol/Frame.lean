import FormatServer.Json.Writer
import FormatServer.Number.Literal
import FormatServer.Text.Pieces
import FormatServer.Text.Utf8

/-!
Frames: a message on a stream of bytes has a head, which gives the length of its body in bytes, an empty
line, and the body.
-/

namespace FormatServer.Frame

/-- The name of the line of a head that gives the length. -/
def lengthField : String := "Content-Length"

/-- The length that a line of a head gives, if it gives one. -/
def length? (line : String) : Option Nat :=
  match Text.cutAt ':' line.toList with
  | (name, some value) =>
    if String.ofList name = lengthField then
      ((Literal.readInt 10 value).toOption).map Int.toNat
    else none
  | _ => none

/-- A line that ends a head. -/
def endsHead (line : String) : Bool := (Text.strip line.toList).isEmpty

/-- The frame of a message. -/
def ofValue (v : Value) : String :=
  let body := Json.write v
  lengthField ++ ": " ++ toString (Text.Utf8.encode body.toList).length ++ "\r\n\r\n" ++ body

end FormatServer.Frame
