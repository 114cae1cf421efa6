import FormatServer.Text.Digit
import FormatServer.Text.Utf8

/-!
Percent decoding. In every run of ASCII characters a percent sign with two hexadecimal digits is a byte
and every other character its own; the bytes are read as UTF-8, with the replacement character for what
is none. Other characters stand for themselves.
-/

namespace FormatServer.Uri

open Text

/-- The bytes of a run of ASCII characters. -/
def runBytes : List Char → List UInt8
  | [] => []
  | '%' :: a :: b :: rest =>
    match hexDigit? a, hexDigit? b with
    | some x, some y => UInt8.ofNat (16 * x + y) :: runBytes rest
    | _, _ => 0x25 :: runBytes (a :: b :: rest)
  | c :: rest => UInt8.ofNat c.toNat :: runBytes rest

/-- Decodes from a place in the text. `run` holds the ASCII characters before it, last first. -/
def decodeFrom (run : List Char) : List Char → List Char
  | [] => Utf8.decodeLossy (runBytes run.reverse)
  | c :: rest =>
    if c.toNat < 0x80 then decodeFrom (c :: run) rest
    else Utf8.decodeLossy (runBytes run.reverse) ++ c :: decodeFrom [] rest

def decodeChars (cs : List Char) : List Char := decodeFrom [] cs

def decode (s : String) : String := String.ofList (decodeChars s.toList)

end FormatServer.Uri
