import FormatServer.Text.Digit

/-!
UTF-8: writing, strict reading with the cause of a refusal, and lossy reading, which puts the
replacement character for every piece that strict reading would refuse.
-/

namespace FormatServer.Text.Utf8

def encode (cs : List Char) : List UInt8 := cs.flatMap String.utf8EncodeChar

/-- Why a byte sequence is no UTF-8. -/
inductive Defect where
  | startByte
  | continuation
  | truncated
  deriving DecidableEq, Repr

/-- The first piece of a byte sequence: a character, or a piece that is not part of any, with its
length in bytes. -/
inductive Piece where
  | char (c : Char) (length : Nat)
  | bad (defect : Defect) (length : Nat)
  deriving DecidableEq, Repr

def Piece.length : Piece → Nat
  | char _ n => n
  | bad _ n => n

/-- What a byte that starts a longer character says of it: the number of further bytes, its own bits,
and the bounds of the byte after it. -/
structure Lead where
  more : Nat
  bits : Nat
  low : Nat
  high : Nat

/-- Reads the first byte of a character of two to four bytes. -/
def Lead.ofByte? (b : Nat) : Option Lead :=
  if 0xC2 ≤ b ∧ b ≤ 0xDF then some ⟨1, b - 0xC0, 0x80, 0xBF⟩
  else if b = 0xE0 then some ⟨2, 0, 0xA0, 0xBF⟩
  else if b = 0xED then some ⟨2, 0xD, 0x80, 0x9F⟩
  else if 0xE1 ≤ b ∧ b ≤ 0xEF then some ⟨2, b - 0xE0, 0x80, 0xBF⟩
  else if b = 0xF0 then some ⟨3, 0, 0x90, 0xBF⟩
  else if b = 0xF4 then some ⟨3, 4, 0x80, 0x8F⟩
  else if 0xF1 ≤ b ∧ b ≤ 0xF3 then some ⟨3, b - 0xF0, 0x80, 0xBF⟩
  else none

/-- Reads the further bytes of a character. `seen` counts the bytes already read. -/
def continuation (more bits seen low high : Nat) : List UInt8 → Piece
  | [] => if more = 0 then .char (Char.ofNat bits) seen else .bad .truncated seen
  | b :: rest =>
    if more = 0 then .char (Char.ofNat bits) seen
    -- Only the second byte has bounds of its own.
    else if low ≤ b.toNat ∧ b.toNat ≤ high then
      continuation (more - 1) (bits * 64 + (b.toNat - 0x80)) (seen + 1) 0x80 0xBF rest
    else .bad .continuation seen

/-- The first piece of a sequence that starts with `b`. -/
def firstPiece (b : UInt8) (rest : List UInt8) : Piece :=
  if b.toNat < 0x80 then .char (Char.ofNat b.toNat) 1
  else match Lead.ofByte? b.toNat with
    | none => .bad .startByte 1
    | some lead => continuation lead.more lead.bits 1 lead.low lead.high rest

/-- The pieces of a byte sequence, in order. -/
def pieces : List UInt8 → List Piece
  | [] => []
  | b :: rest =>
    let piece := firstPiece b rest
    piece :: pieces (rest.drop (piece.length - 1))
termination_by bs => bs.length
decreasing_by simp only [List.length_drop, List.length_cons]; omega

/-- Why a byte sequence was refused, where, and the first byte of the piece. -/
structure DecodeError where
  defect : Defect
  position : Nat
  length : Nat
  first : UInt8
  deriving DecidableEq, Repr

/-- Reads the pieces from a position on. -/
def decodeFrom (position : Nat) (bytes : List UInt8) : List Piece → Except DecodeError (List Char)
  | [] => .ok []
  | .char c n :: rest => do
    let cs ← decodeFrom (position + n) (bytes.drop n) rest
    return c :: cs
  | .bad defect n :: _ => .error ⟨defect, position, n, bytes.headD 0⟩

/-- Reads bytes that must be UTF-8 throughout. -/
def decode (bytes : List UInt8) : Except DecodeError (List Char) :=
  decodeFrom 0 bytes (pieces bytes)

def replacement : Char := '\uFFFD'

/-- The character shown for a piece. -/
def Piece.shown : Piece → Char
  | char c _ => c
  | bad _ _ => replacement

/-- Reads any bytes, with the replacement character for every piece that is not UTF-8. -/
def decodeLossy (bytes : List UInt8) : List Char := (pieces bytes).map Piece.shown

def Defect.message : Defect → String
  | startByte => "invalid start byte"
  | continuation => "invalid continuation byte"
  | truncated => "unexpected end of data"

def DecodeError.message (e : DecodeError) : String :=
  let place :=
    if e.length = 1 then
      "byte 0x" ++ String.ofList (hexadecimal 2 e.first.toNat) ++ " in position " ++
        toString e.position
    else "bytes in position " ++ toString e.position ++ "-" ++ toString (e.position + e.length - 1)
  "'utf-8' codec can't decode " ++ place ++ ": " ++ e.defect.message

end FormatServer.Text.Utf8
