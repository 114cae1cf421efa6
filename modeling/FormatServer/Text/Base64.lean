/-!
Reading base 64. Characters that are no digits do not count; a padding sign ends the text once a group of
four is full.
-/

namespace FormatServer.Text.Base64

/-- The value of a digit. -/
def digit? (c : Char) : Option Nat :=
  if 'A' ≤ c ∧ c ≤ 'Z' then some (c.toNat - 65)
  else if 'a' ≤ c ∧ c ≤ 'z' then some (c.toNat - 71)
  else if '0' ≤ c ∧ c ≤ '9' then some (c.toNat + 4)
  else if c = '+' then some 62
  else if c = '/' then some 63
  else none

/-- Reads on: `filled` digits of the group are read, `held` are the bits not yet written, and `pads`
padding signs stand since the last digit. -/
def decodeFrom (filled held pads : Nat) : List Char → Option (List UInt8)
  | [] => if filled = 0 then some [] else none
  | c :: rest =>
    if c = '=' then
      if 2 ≤ filled ∧ 4 ≤ filled + (pads + 1) then some []
      else decodeFrom filled held (if 2 ≤ filled then pads + 1 else pads) rest
    else match digit? c with
      | none => decodeFrom filled held pads rest
      | some d =>
        match filled with
        | 0 => decodeFrom 1 d 0 rest
        | 1 => (decodeFrom 2 (d % 16) 0 rest).map (UInt8.ofNat (held * 4 + d / 16) :: ·)
        | 2 => (decodeFrom 3 (d % 4) 0 rest).map (UInt8.ofNat (held * 16 + d / 4) :: ·)
        | _ => (decodeFrom 0 0 0 rest).map (UInt8.ofNat (held * 64 + d) :: ·)

/-- The bytes of a text, or none when it ends inside a group. -/
def decode? (cs : List Char) : Option (List UInt8) := decodeFrom 0 0 0 cs

end FormatServer.Text.Base64
