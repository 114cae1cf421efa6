import FormatServer.Number.Binary64

/-!
Dynamic values: what a settings file or a client's settings section may hold. Integers and
floating-point numbers are kept apart, and the entries of a mapping keep their order.
-/

namespace FormatServer

/-- A day of the calendar. -/
structure Date where
  year : Nat
  month : Nat
  day : Nat
  deriving DecidableEq, Repr

/-- A point in time, with the offset of its zone from universal time in seconds if it has one. -/
structure DateTime extends Date where
  hour : Nat
  minute : Nat
  second : Nat
  microsecond : Nat
  offset : Option Int
  deriving DecidableEq, Repr

inductive Value where
  | null
  | bool (b : Bool)
  | int (i : Int)
  | float (x : Binary64)
  | text (s : String)
  | list (items : List Value)
  | map (entries : List (Value × Value))
  | bytes (bs : List UInt8)
  | date (d : Date)
  | dateTime (t : DateTime)
  | set (members : List Value)
  | pair (first second : Value)
  deriving Repr, Inhabited

namespace Value

/-- The value counts as absent: null, false, a zero, or empty. -/
def isFalsy : Value → Bool
  | null => true
  | bool b => !b
  | int i => i = 0
  | float x => x.isZero
  | text s => s.isEmpty
  | list items => items.isEmpty
  | map entries => entries.isEmpty
  | bytes bs => bs.isEmpty
  | set members => members.isEmpty
  | date _ | dateTime _ | pair _ _ => false

/-- A value that may be the key of an entry. -/
def isKey : Value → Bool
  | list _ | map _ | set _ => false
  | pair a b => a.isKey && b.isKey
  | _ => true

/-- The whole number that a number is; truth values count as zero and one. -/
def wholeNumber? : Value → Option Int
  | bool b => some (if b then 1 else 0)
  | int i => some i
  | float x => x.toInt?
  | _ => none

/-- Two keys name the same entry. Equal numbers do, whatever their kind. -/
def sameKey : Value → Value → Bool
  | null, null => true
  | text a, text b => a = b
  | bytes a, bytes b => a = b
  | date a, date b => a = b
  | dateTime a, dateTime b => a = b
  | pair a b, pair c d => sameKey a c && sameKey b d
  | a, b =>
    match a.wholeNumber?, b.wholeNumber? with
    | some i, some j => i = j
    | none, none =>
      match a, b with
      | float x, float y => x = y
      | _, _ => false
    | _, _ => false

/-- The value of the entry of a key. -/
def lookup? (key : Value) : List (Value × Value) → Option Value
  | [] => none
  | (k, v) :: rest => if sameKey k key then some v else lookup? key rest

/-- Sets the entry of a key: in its place if there is one, at the end if not. -/
def insert (key value : Value) : List (Value × Value) → List (Value × Value)
  | [] => [(key, value)]
  | (k, v) :: rest =>
    if sameKey k key then (k, value) :: rest else (k, v) :: insert key value rest

/-- The value of a field of a mapping, none for any other value. -/
def field? (name : String) : Value → Option Value
  | map entries => lookup? (text name) entries
  | _ => none

/-- The text that the value is, if it is one. -/
def text? : Value → Option String
  | text s => some s
  | _ => none

/-- The items of a list of texts. -/
def texts? : List Value → Option (List String)
  | [] => some []
  | text s :: rest => (texts? rest).map (s :: ·)
  | _ :: _ => none

def isMap : Value → Bool
  | map _ => true
  | _ => false

def kind : Value → String
  | null => "NoneType"
  | bool _ => "bool"
  | int _ => "int"
  | float _ => "float"
  | text _ => "str"
  | list _ => "list"
  | map _ => "dict"
  | bytes _ => "bytes"
  | date _ => "datetime.date"
  | dateTime _ => "datetime.datetime"
  | set _ => "set"
  | pair _ _ => "tuple"

end Value

end FormatServer
