import FormatServer.Number.Binary64

/-!
Decimal digits of a finite binary number: the fewest that read back as the number (of those, the
nearest), and a given count of digits, rounded. Both are computed exactly.
-/

namespace FormatServer

/-- A positive decimal number, `0.d₁d₂… · 10 ^ point`, with a first digit that is not zero. -/
structure Decimal where
  digits : List Char
  point : Int
  deriving DecidableEq, Repr

namespace Decimal

/-- The digits without the zeros they end with. -/
def dropZeros (digits : List Char) : List Char :=
  (digits.reverse.dropWhile (· = '0')).reverse

/-- The number `n · 10 ^ exponent`, without zeros at the end of the digits. -/
def ofScaled (n : Nat) (exponent : Int) : Decimal :=
  let digits := Nat.toDigits 10 n
  ⟨dropZeros digits, exponent + digits.length⟩

end Decimal

namespace Binary64

/-- The quotient `ticks / (2 ^ 1074 · 10 ^ exponent)` as a numerator and a denominator. -/
def scaled (ticks : Nat) (exponent : Int) : Nat × Nat :=
  match exponent with
  | .ofNat e => (ticks, ticksPerUnit * Nat.pow 10 e)
  | .negSucc e => (ticks * Nat.pow 10 (e + 1), ticksPerUnit)

/-- The number is below `10 ^ exponent`. -/
def isBelow (ticks : Nat) (exponent : Int) : Bool :=
  let (num, den) := scaled ticks exponent
  num < den

/-- The least exponent of ten whose power is greater than the number. A bound from the count of binary
digits leaves three candidates. -/
def pointOf (ticks : Nat) : Int :=
  let low := Int.fdiv (((ticks.log2 : Int) - 1074) * 30103) 100000
  if isBelow ticks low then low
  else if isBelow ticks (low + 1) then low + 1
  else low + 2

/-- The half distances from a number to its neighbours, below and above, in quarter ticks. -/
def halfGaps (ticks : Nat) : Nat × Nat :=
  let s := spacing ticks
  let above := 2 * Nat.pow 2 s
  -- Below a power of two the numbers lie twice as close.
  if ticks = Nat.pow 2 (s + 52) ∧ 0 < s then (above / 2, above) else (above, above)

/-- The last binary digit of the number's own digits is zero. -/
def isEven (ticks : Nat) : Bool := ticks / Nat.pow 2 (spacing ticks) % 2 = 0

/-- A decimal `n · 10 ^ exponent` reads back as the number: it lies between the middles to the
neighbours, which count when the number is even. -/
def readsBack (ticks n : Nat) (exponent : Int) : Bool :=
  let (below, above) := halfGaps ticks
  let (value, low, high) := match exponent with
    | .ofNat e =>
      (4 * n * Nat.pow 10 e * ticksPerUnit, 4 * ticks - below, 4 * ticks + above)
    | .negSucc e =>
      let unit := Nat.pow 10 (e + 1)
      (4 * n * ticksPerUnit, (4 * ticks - below) * unit, (4 * ticks + above) * unit)
  if isEven ticks then low ≤ value && value ≤ high else low < value && value < high

/-- The decimal of that many digits that reads back as the number and is nearest to it, if any. From the
middle the even one is taken. -/
def onGrid? (ticks count : Nat) : Option Decimal :=
  let exponent := pointOf ticks - count
  let (num, den) := scaled ticks exponent
  let n := num / den
  let nearest := if roundDiv num den = n then [n, n + 1] else [n + 1, n]
  (nearest.find? fun n => 0 < n && readsBack ticks n exponent).map (Decimal.ofScaled · exponent)

/-- The decimal of the fewest digits that reads back as the number. -/
def shortest (ticks : Nat) : Decimal :=
  ((List.range 17).findSome? fun i => onGrid? ticks (i + 1)).getD ⟨['0'], 1⟩

/-- The decimal of that many digits nearest to the number, from the middle the even one, without the
zeros it ends with. -/
def roundedTo (count ticks : Nat) : Decimal :=
  let exponent := pointOf ticks - count
  let (num, den) := scaled ticks exponent
  Decimal.ofScaled (roundDiv num den) exponent

end Binary64

end FormatServer
