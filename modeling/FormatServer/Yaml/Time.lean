import FormatServer.Value.Basic
import FormatServer.Yaml.Error
import FormatServer.Yaml.Kind

/-!
Days and points in time from their written forms.
-/

namespace FormatServer.Yaml

/-- A year with a day more. -/
def isLeapYear (year : Nat) : Bool := year % 4 = 0 && (year % 100 ≠ 0 || year % 400 = 0)

def daysIn (year month : Nat) : Nat :=
  if month = 2 then if isLeapYear year then 29 else 28
  else if [4, 6, 9, 11].contains month then 30
  else 31

/-- The day of a year, a month and a day. -/
def makeDate (year month day : Nat) : Except DateDefect Date :=
  if year = 0 then .error (.year year)
  else if month = 0 ∨ 12 < month then .error .month
  else if day = 0 ∨ daysIn year month < day then .error .day
  else .ok ⟨year, month, day⟩

/-- The number that ASCII digits spell. -/
def numberOf (digits : List Char) : Nat := Text.ofDigits 10 (digits.map fun d => d.toNat - 48)

/-- The offset of a zone in seconds, less than a day to either side. -/
def makeOffset : Option (Char × List Char × List Char) → Except DateDefect Int
  | none => .ok 0
  | some (sign, hours, minutes) =>
    let size : Int := (numberOf hours * 60 + numberOf minutes) * 60
    let seconds := if sign = '-' then -size else size
    if size < 86400 then .ok seconds else .error (.zone seconds)

/-- Millionths of a second from the digits of a fraction; further digits do not count. -/
def microseconds (fraction : List Char) : Nat :=
  let six := fraction.take 6
  numberOf (six ++ List.replicate (6 - six.length) '0')

/-- The value of a written day or point in time. -/
def WrittenTime.value (t : WrittenTime) : Except DateDefect Value := do
  match t.clock with
  | none => return .date (← makeDate (numberOf t.year) (numberOf t.month) (numberOf t.day))
  | some (hour, minute, second, fraction) =>
    let offset ← match t.zone with
      | none => pure none
      | some zone => do pure (some (← makeOffset zone))
    let date ← makeDate (numberOf t.year) (numberOf t.month) (numberOf t.day)
    if 24 ≤ numberOf hour then throw .hour
    if 60 ≤ numberOf minute then throw .minute
    if 60 ≤ numberOf second then throw .second
    return .dateTime { date with
      hour := numberOf hour
      minute := numberOf minute
      second := numberOf second
      microsecond := microseconds fraction
      offset }

end FormatServer.Yaml
