import FormatServer.Number.Literal
import FormatServer.Value.Shown

/-!
Lenient reading of fields. Where a text, a number or a truth value is expected, any value that can be
turned into one will do; a field that may be missing may be null too.
-/

namespace FormatServer.Value

/-- The text that a value is turned into. -/
def asText : Value → String
  | text s => s
  | v => v.shown

/-- The integer that a value is turned into, if it can be. -/
def asInt? : Value → Option Int
  | bool b => some (if b then 1 else 0)
  | int i => some i
  | float x => x.truncate?
  | text s => (Literal.readInt 10 s.toList).toOption
  | _ => none

/-- The truth value that a value is turned into. -/
def asBool (v : Value) : Bool := !v.isFalsy

/-- The values that stand for the items of a list: the items, the keys of a mapping, or the characters of
a text. -/
def sequence? : Value → Option (List Value)
  | list items => some items
  | map entries => some (entries.map (·.1))
  | text s => some (s.toList.map fun c => text (String.singleton c))
  | _ => none

/-- The mapping that a value stands for where no field is needed. A list or a text has no fields. -/
def mapping? : Value → Option Value
  | map entries => some (map entries)
  | list _ | text _ => some (map [])
  | _ => none

/-- A field that may be missing or null. -/
def optional (v : Value) (name : String) : Option Value :=
  match v.field? name with
  | none | some null => none
  | some w => some w

/-- A mapping in a field that may be missing or null; an empty one then. -/
def optionalMapping? (v : Value) (name : String) : Option Value :=
  match v.optional name with
  | none => some (map [])
  | some w => w.mapping?

/-- A list in a field that may be missing or null; an empty one then. -/
def optionalSequence? (v : Value) (name : String) : Option (List Value) :=
  match v.optional name with
  | none => some []
  | some w => w.sequence?

/-- The text of a field. -/
def textField? (v : Value) (name : String) : Option String := (v.field? name).map asText

/-- An integer between two limits. -/
def intWithin? (v : Value) (least most : Int) : Option Int :=
  v.asInt?.filter fun i => least ≤ i && i ≤ most

/-- The integer of a field, of those that have 32 bits. -/
def intField? (v : Value) (name : String) : Option Int := do
  (← v.field? name).intWithin? (-2147483648) 2147483647

/-- The natural number of a field, of those that have 31 bits. -/
def natField? (v : Value) (name : String) : Option Int := do
  (← v.field? name).intWithin? 0 2147483647

/-- Reads a field that may be missing or null with a reader of its value; nothing then. -/
def optionally (v : Value) (name : String) (read : Value → Option α) : Option (Option α) :=
  match v.optional name with
  | none => some none
  | some w => (read w).map some

end FormatServer.Value
