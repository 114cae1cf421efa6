import FormatServer.Text.Base64
import FormatServer.Text.Pieces
import FormatServer.Yaml.Time

/-!
The values of scalars by their tags.
-/

namespace FormatServer.Yaml

open Text

/-- A text without underscores. -/
def dropUnderscores (cs : List Char) : List Char := cs.filter (· ≠ '_')

def literalInt (base : Nat) (cs : List Char) : Except Error Int :=
  (Literal.readInt base cs).mapError .integer

/-- The integer of parts in sixtieths, the first counting most. -/
def ofSixtieths (parts : List Int) : Int := parts.foldl (fun n d => 60 * n + d) 0

/-- The value of an integer without its sign. -/
def unsignedInt (cs : List Char) : Except Error Int :=
  match cs with
  | [] => .error .emptyNumber
  | ['0'] => .ok 0
  | '0' :: 'b' :: rest => literalInt 2 rest
  | '0' :: 'x' :: rest => literalInt 16 rest
  | '0' :: _ => literalInt 8 cs
  | _ =>
    if cs.contains ':' then ((splitOn ':' cs).mapM (literalInt 10)).map ofSixtieths
    else literalInt 10 cs

def intValue (text : List Char) : Except Error Int :=
  match dropUnderscores text with
  | [] => .error .emptyNumber
  | '-' :: rest => (unsignedInt rest).map (- ·)
  | '+' :: rest => unsignedInt rest
  | cs => unsignedInt cs

def literalFloat (cs : List Char) : Except Error Binary64 :=
  match Literal.readFloat? cs with
  | some x => .ok x
  | none => .error (.decimal (String.ofList cs))

/-- Adds parts in sixtieths, the last first, each after its power of sixty. A power that is past the
largest finite number is refused. -/
def addSixtieths (sum : Binary64) (power : Int) : List Binary64 → Except Error Binary64
  | [] => .ok sum
  | x :: rest =>
    match Binary64.ofInt? power with
    | none => .error .sixtiethSize
    | some unit => addSixtieths (sum.add (x.mul unit)) (power * 60) rest

/-- The value of a floating-point number without its sign. -/
def unsignedFloat (cs : List Char) : Except Error Binary64 :=
  if cs = ".inf".toList then .ok (.infinite false)
  else if cs = ".nan".toList then .ok .nan
  else if cs.contains ':' then do
    let parts ← (splitOn ':' cs).mapM literalFloat
    addSixtieths (.finite false 0) 1 parts.reverse
  else literalFloat cs

def floatValue (text : List Char) : Except Error Binary64 :=
  match (dropUnderscores text).map Char.toLower with
  | [] => .error .emptyNumber
  | '-' :: rest => (unsignedFloat rest).map .neg
  | '+' :: rest => unsignedFloat rest
  | cs => unsignedFloat cs

/-- The truth value of a word in any case. -/
def truthValue (text : List Char) : Except Error Bool :=
  let word := String.ofList (text.map Char.toLower)
  if ["yes", "true", "on"].contains word then .ok true
  else if ["no", "false", "off"].contains word then .ok false
  else .error (.truth word)

/-- The bytes of a text in base 64. -/
def bytesValue (text : List Char) : Except Error (List UInt8) :=
  if text.all (·.toNat < 0x80) then
    match Base64.decode? text with
    | some bs => .ok bs
    | none => .error .malformed
  else .error .malformed

def timeValue (text : List Char) : Except Error Value :=
  match readTime? text with
  | none => .error .timestamp
  | some t => t.value.mapError .date

/-- The reader of the scalars of a tag, none for tags of collections and unknown ones. -/
def scalarReader? (tag : String) : Option (List Char → Except Error Value) :=
  if tag = coreTag "null" then some fun _ => .ok .null
  else if tag = coreTag "bool" then some fun cs => (truthValue cs).map .bool
  else if tag = coreTag "int" then some fun cs => (intValue cs).map .int
  else if tag = coreTag "float" then some fun cs => (floatValue cs).map .float
  else if tag = coreTag "binary" then some fun cs => (bytesValue cs).map .bytes
  else if tag = coreTag "timestamp" then some timeValue
  else if tag = textTag then some fun cs => .ok (.text (String.ofList cs))
  else none

end FormatServer.Yaml
