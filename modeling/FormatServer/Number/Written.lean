import FormatServer.Number.Shortest

/-!
Written forms of numbers. The full form has the fewest digits that read back, positional for values
from 10^-4 to below 10^16 and always with a point or an exponent; the brief form has six digits at
most and no needless point.
-/

namespace FormatServer

namespace Decimal

/-- The digits with the point in its place. -/
def positional (d : Decimal) : List Char :=
  if d.point ≤ 0 then '0' :: '.' :: List.replicate d.point.natAbs '0' ++ d.digits
  else
    let before := d.point.toNat
    if d.digits.length ≤ before then d.digits ++ List.replicate (before - d.digits.length) '0'
    else d.digits.take before ++ '.' :: d.digits.drop before

/-- The exponent with its sign and at least two digits. -/
def exponentMark (e : Int) : List Char :=
  let digits := Nat.toDigits 10 e.natAbs
  'e' :: (if e < 0 then '-' else '+') :: List.replicate (2 - digits.length) '0' ++ digits

/-- One digit before the point, and an exponent. -/
def scientific (d : Decimal) : List Char :=
  let mantissa := match d.digits with
    | [] => ['0']
    | [c] => [c]
    | c :: rest => c :: '.' :: rest
  mantissa ++ exponentMark (d.point - 1)

end Decimal

namespace Binary64

/-- A sign in front of the digits of a negative number. -/
def signed (negative : Bool) (digits : List Char) : List Char :=
  if negative then '-' :: digits else digits

/-- The full form: the fewest digits that read back. -/
def writtenChars : Binary64 → List Char
  | nan => ['n', 'a', 'n']
  | infinite negative => signed negative ['i', 'n', 'f']
  | finite negative ticks =>
    if ticks = 0 then signed negative ['0', '.', '0']
    else
      let d := shortest ticks
      signed negative <|
        if -4 < d.point ∧ d.point ≤ 16 then
          let digits := d.positional
          if digits.contains '.' then digits else digits ++ ['.', '0']
        else d.scientific

/-- The full form: the fewest digits that read back. -/
def written (x : Binary64) : String := String.ofList x.writtenChars

/-- The brief form: six digits at most. -/
def brief : Binary64 → String
  | nan => "nan"
  | infinite negative => if negative then "-inf" else "inf"
  | finite negative ticks =>
    if ticks = 0 then if negative then "-0" else "0"
    else
      let d := roundedTo 6 ticks
      String.ofList <| signed negative <|
        if -4 < d.point ∧ d.point ≤ 6 then d.positional else d.scientific

end Binary64

/-- An integer in decimal digits. -/
def writtenInt (i : Int) : String := toString i

end FormatServer
