/-!
Binary floating-point numbers of 64 bits, held exactly. Every finite one is a whole multiple of the
smallest, 2^-1074, so a sign and a count of such ticks give it, and different values have different
forms. Rounding goes to the nearest number and, from the middle, to the even one.
-/

namespace FormatServer

/-- A binary floating-point number of 64 bits. -/
inductive Binary64 where
  | nan
  | infinite (negative : Bool)
  | finite (negative : Bool) (ticks : Nat)
  deriving DecidableEq, Repr

namespace Binary64

/-- The ticks of the number one. -/
def ticksPerUnit : Nat := Nat.pow 2 1074

/-- The first count of ticks that is too large for a finite number. -/
def tickLimit : Nat := Nat.pow 2 2098

/-- The quotient rounded to the nearest whole number, and from the middle to the even one. -/
def roundDiv (num den : Nat) : Nat :=
  let q := num / den
  let r := num % den
  if 2 * r < den then q
  else if den < 2 * r then q + 1
  else if q % 2 = 0 then q else q + 1

/-- The places of binary digits that a number of that many ticks, rounded down, has no room for. -/
def spacing (ticks : Nat) : Nat := ticks.log2 - 52

/-- The ticks of the number nearest to a quotient of ticks: 53 binary digits are kept. -/
def roundTicks (num den : Nat) : Nat :=
  let s := spacing (num / den)
  roundDiv num (den * Nat.pow 2 s) * Nat.pow 2 s

/-- The number of that sign and size, infinite when the size is past the largest finite number. -/
def ofTicks (negative : Bool) (ticks : Nat) : Binary64 :=
  if ticks < tickLimit then .finite negative ticks else .infinite negative

/-- The number nearest to a quotient. -/
def ofRatio (negative : Bool) (num den : Nat) : Binary64 :=
  ofTicks negative (roundTicks (num * ticksPerUnit) den)

/-- The number nearest to `digits` times a power of ten. -/
def ofDecimal (negative : Bool) (digits : Nat) (exponent : Int) : Binary64 :=
  if digits = 0 then .finite negative 0
  else
    let magnitude := (Nat.toDigits 10 digits).length + exponent
    -- Numbers far out of range are not computed.
    if 310 < magnitude then .infinite negative
    else if magnitude < -330 then .finite negative 0
    else match exponent with
      | .ofNat e => ofRatio negative (digits * Nat.pow 10 e) 1
      | .negSucc e => ofRatio negative digits (Nat.pow 10 (e + 1))

def isFinite : Binary64 → Bool
  | finite _ _ => true
  | _ => false

/-- The number nearest to an integer, or none when the integer is past the largest finite number. -/
def ofInt? (i : Int) : Option Binary64 := Option.guard isFinite (ofRatio (i < 0) i.natAbs 1)

def isPositive : Binary64 → Bool
  | finite negative ticks => !negative && 0 < ticks
  | infinite negative => !negative
  | nan => false

/-- The number is zero, of either sign. -/
def isZero : Binary64 → Bool
  | finite _ ticks => ticks = 0
  | _ => false

def isNegative : Binary64 → Bool
  | finite negative _ => negative
  | infinite negative => negative
  | nan => false

def neg : Binary64 → Binary64
  | nan => nan
  | infinite negative => infinite (!negative)
  | finite negative ticks => finite (!negative) ticks

/-- The whole number that the number is, if it is one. -/
def toInt? : Binary64 → Option Int
  | finite negative ticks =>
    if ticks % ticksPerUnit = 0 then
      let n : Int := (ticks / ticksPerUnit : Nat)
      some (if negative then -n else n)
    else none
  | _ => none

/-- The whole number next to the number on the side of zero, if the number is finite. -/
def truncate? : Binary64 → Option Int
  | finite negative ticks =>
    let n : Int := (ticks / ticksPerUnit : Nat)
    some (if negative then -n else n)
  | _ => none

/-- The ticks of a number that is finite and not negative. -/
def ticks? : Binary64 → Option Nat
  | finite negative ticks => if negative && 0 < ticks then none else some ticks
  | _ => none

def add : Binary64 → Binary64 → Binary64
  | nan, _ => nan
  | _, nan => nan
  | infinite a, infinite b => if a = b then infinite a else nan
  | infinite a, _ => infinite a
  | _, infinite b => infinite b
  | finite a m, finite b n =>
    if a = b then ofTicks a (roundTicks (m + n) 1)
    else if n < m then ofTicks a (roundTicks (m - n) 1)
    else if m < n then ofTicks b (roundTicks (n - m) 1)
    -- Opposite numbers cancel to the zero without a sign.
    else finite false 0

def mul : Binary64 → Binary64 → Binary64
  | nan, _ => nan
  | _, nan => nan
  | infinite a, x => if x.isZero then nan else infinite (a != x.isNegative)
  | x, infinite b => if x.isZero then nan else infinite (x.isNegative != b)
  | finite a m, finite b n => ofTicks (a != b) (roundTicks (m * n) ticksPerUnit)

end Binary64

end FormatServer
