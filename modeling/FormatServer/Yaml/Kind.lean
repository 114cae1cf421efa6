/-!
The kind of a plain scalar: truth value, number, point in time, null, or text. The first character says
which kinds come into question.
-/

namespace FormatServer.Yaml

/-- A tag of the core vocabulary. -/
def coreTag (name : String) : String := "tag:yaml.org,2002:" ++ name

def textTag : String := coreTag "str"
def sequenceTag : String := coreTag "seq"
def mappingTag : String := coreTag "map"
/-- The tag of keys whose value is merged into their mapping. -/
def mergeTag : String := coreTag "merge"
/-- The tag of keys of default values. -/
def defaultTag : String := coreTag "value"

def truthWords : List String :=
  ["yes", "Yes", "YES", "no", "No", "NO", "true", "True", "TRUE", "false", "False", "FALSE",
   "on", "On", "ON", "off", "Off", "OFF"]

def nullWords : List String := ["~", "null", "Null", "NULL", ""]

/-- A text without a sign in front. -/
def afterSign : List Char → List Char
  | '+' :: rest => rest
  | '-' :: rest => rest
  | cs => cs

def isNumberChar (c : Char) : Bool := c.isDigit || c = '_'

/-- A sixtieth part after a colon: up to two digits, the first below six. -/
def isSixtieth : List Char → Bool
  | [a] => a.isDigit
  | [a, b] => '0' ≤ a && a ≤ '5' && b.isDigit
  | _ => false

/-- Pieces of a number after colons, at least one. -/
def sixtieths? (cs : List Char) : Option (List (List Char)) :=
  match pieces cs with
  | [] | [_] => none
  | _ :: more => some more
where
  /-- The pieces between colons. -/
  pieces : List Char → List (List Char)
    | [] => [[]]
    | c :: rest =>
      if c = ':' then [] :: pieces rest
      else match pieces rest with
        | [] => [[c]]
        | piece :: more => (c :: piece) :: more

/-- What stands before the first colon. -/
def beforeColon (cs : List Char) : List Char := cs.takeWhile (· ≠ ':')

/-- A written integer: binary, octal, decimal, hexadecimal, or in sixtieths. -/
def isInteger (cs : List Char) : Bool :=
  match afterSign cs with
  | ['0'] => true
  | '0' :: 'b' :: rest => !rest.isEmpty && rest.all fun c => c = '0' || c = '1' || c = '_'
  | '0' :: 'x' :: rest => !rest.isEmpty && rest.all fun c =>
      c.isDigit || ('a' ≤ c && c ≤ 'f') || ('A' ≤ c && c ≤ 'F') || c = '_'
  | '0' :: rest => rest.all fun c => ('0' ≤ c && c ≤ '7') || c = '_'
  | c :: rest =>
    c.isDigit &&
      match sixtieths? rest with
      | none => rest.all isNumberChar
      | some parts => (beforeColon rest).all isNumberChar && parts.all isSixtieth
  | [] => false

/-- An exponent with its sign, or nothing. -/
def isExponent : List Char → Bool
  | [] => true
  | e :: sign :: digits =>
    (e = 'e' || e = 'E') && (sign = '+' || sign = '-') && !digits.isEmpty && digits.all Char.isDigit
  | _ => false

/-- A number with a point and an optional exponent, after its sign. -/
def isPointNumber (signed : Bool) (cs : List Char) : Bool :=
  let whole := cs.takeWhile isNumberChar
  match cs.drop whole.length with
  | '.' :: rest =>
    let fraction := rest.takeWhile isNumberChar
    isExponent (rest.drop fraction.length) &&
      (if whole.isEmpty then !signed && fraction.head?.any Char.isDigit
       else whole.head?.any Char.isDigit)
  | _ => false

/-- A number in sixtieths with a point at the end, after its sign. -/
def isSixtiethFraction (cs : List Char) : Bool :=
  let whole := cs.takeWhile (· ≠ '.')
  match cs.drop whole.length, sixtieths? whole with
  | '.' :: fraction, some parts =>
    let first := beforeColon whole
    fraction.all isNumberChar && first.all isNumberChar && first.head?.any Char.isDigit &&
      parts.all isSixtieth
  | _, _ => false

/-- A written floating-point number. -/
def isDecimal (cs : List Char) : Bool :=
  let unsigned := afterSign cs
  let signed := unsigned.length ≠ cs.length
  isPointNumber signed unsigned || isSixtiethFraction unsigned ||
    [".inf", ".Inf", ".INF"].contains (String.ofList unsigned) ||
    [".nan", ".NaN", ".NAN"].contains (String.ofList cs)

/-- The parts of a written point in time. -/
structure WrittenTime where
  year : List Char
  month : List Char
  day : List Char
  /-- hour, minute, second, and the fraction of a second -/
  clock : Option (List Char × List Char × List Char × List Char) := none
  /-- the zone: `Z`, or a sign, hours and minutes -/
  zone : Option (Option (Char × List Char × List Char)) := none

/-- Up to two digits, and what follows them. -/
def oneOrTwoDigits? (cs : List Char) : Option (List Char × List Char) :=
  match (cs.take 2).takeWhile Char.isDigit with
  | [] => none
  | ds => some (ds, cs.drop ds.length)

/-- A number of digits, and what follows them. -/
def exactDigits? (n : Nat) (cs : List Char) : Option (List Char × List Char) :=
  let ds := cs.take n
  if ds.length = n && ds.all Char.isDigit then some (ds, cs.drop n) else none

/-- What follows a character, if the text starts with it. -/
def after? (c : Char) : List Char → Option (List Char)
  | [] => none
  | d :: rest => if d = c then some rest else none

/-- Reads the zone of a written point in time, to the end of the text. -/
def readZone? (cs : List Char) : Option (Option (Option (Char × List Char × List Char))) :=
  match cs.dropWhile fun c => c = ' ' || c = '\t' with
  | [] => if cs.isEmpty then some none else none
  | ['Z'] => some (some none)
  | sign :: rest =>
    if sign = '+' ∨ sign = '-' then
      match oneOrTwoDigits? rest with
      | none => none
      | some (hours, []) => some (some (some (sign, hours, [])))
      | some (hours, ':' :: more) =>
        match exactDigits? 2 more with
        | some (minutes, []) => some (some (some (sign, hours, minutes)))
        | _ => none
      | _ => none
    else none

/-- Reads the time of day of a written point in time, to the end of the text. -/
def readClock? (t : WrittenTime) (cs : List Char) : Option WrittenTime := do
  let (hour, cs) ← oneOrTwoDigits? cs
  let (minute, cs) ← exactDigits? 2 (← after? ':' cs)
  let (second, cs) ← exactDigits? 2 (← after? ':' cs)
  let (fraction, cs) := match cs with
    | '.' :: rest => rest.span Char.isDigit
    | cs => ([], cs)
  let zone ← readZone? cs
  return { t with clock := some (hour, minute, second, fraction), zone }

/-- Reads a written day, or a written point in time. -/
def readTime? (cs : List Char) : Option WrittenTime := do
  let (year, cs) ← exactDigits? 4 cs
  let (month, cs) ← oneOrTwoDigits? (← after? '-' cs)
  let (day, cs) ← oneOrTwoDigits? (← after? '-' cs)
  let t : WrittenTime := { year, month, day }
  match cs with
  | [] => return t
  | c :: rest =>
    if c = 'T' ∨ c = 't' then readClock? t rest
    else if c = ' ' ∨ c = '\t' then readClock? t (rest.dropWhile fun c => c = ' ' || c = '\t')
    else none

/-- A point in time as plain scalars write it: a day alone has two digits for month and day. -/
def isTime (cs : List Char) : Bool :=
  match readTime? cs with
  | none => false
  | some t => t.clock.isSome || (t.month.length = 2 && t.day.length = 2)

/-- The tag that follows from the text of a plain scalar. -/
def tagOfPlain (cs : List Char) : String :=
  let s := String.ofList cs
  if truthWords.contains s then coreTag "bool"
  else if isDecimal cs then coreTag "float"
  else if isInteger cs then coreTag "int"
  else if s = "<<" then mergeTag
  else if nullWords.contains s then coreTag "null"
  else if isTime cs then coreTag "timestamp"
  else if s = "=" then defaultTag
  else if s = "!" ∨ s = "&" ∨ s = "*" then coreTag "yaml"
  else textTag

end FormatServer.Yaml
