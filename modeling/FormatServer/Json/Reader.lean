import FormatServer.Json.Error
import FormatServer.Number.Literal
import FormatServer.Value.Basic

/-!
Reading JSON. Members keep their order, a repeated name keeps its first place and its last value, a
number with a fraction or an exponent is a floating-point number and any other an integer, and the
names of the infinite and undefined numbers are admitted.
-/

namespace FormatServer.Json

open Text

/-- Refuses at the start of a text. -/
def refuse {α : Type} (cause : Cause) (at_ : List Char) : Except Refusal (α × List Char) :=
  .error ⟨cause, at_.length⟩

/-- White space between the parts of a document. -/
def isSpace (c : Char) : Bool := c = ' ' || c = '\t' || c = '\n' || c = '\r'

/-- The text after the white space at its start. -/
def skipSpace (cs : List Char) : List Char := cs.dropWhile isSpace

/-- The number that four hexadecimal digits spell. -/
def fourDigits? : List Char → Option (Nat × List Char)
  | a :: b :: c :: d :: rest => do
    let digits ← [a, b, c, d].mapM hexDigit?
    return (ofDigits 16 digits, rest)
  | _ => none

/-- The character that a letter after a backslash stands for. -/
def simpleEscape? : Char → Option Char
  | '"' => some '"'
  | '\\' => some '\\'
  | '/' => some '/'
  | 'b' => some '\x08'
  | 'f' => some '\x0c'
  | 'n' => some '\n'
  | 'r' => some '\r'
  | 't' => some '\t'
  | _ => none

/-- Reads the number after a backslash and a `u`; one more character must follow the digits. -/
def unicodeEscape? (cs : List Char) : Option (Nat × List Char) :=
  match fourDigits? cs with
  | some (n, d :: rest) => some (n, d :: rest)
  | _ => none

/-- Reads the second half of a character of two code units, after the first. -/
def secondHalf? (first : Nat) : List Char → Option (Char × List Char)
  | '\\' :: 'u' :: rest => do
    let (second, after) ← unicodeEscape? rest
    if 0xDC00 ≤ second ∧ second < 0xE000 then
      some (Char.ofNat (0x10000 + (first - 0xD800) * 0x400 + (second - 0xDC00)), after)
    else none
  | _ => none

/-- Reads a string after its opening quote. `start` is the text from that quote on. -/
def readString (start : List Char) : Nat → List Char → Except Refusal (List Char × List Char)
  | 0, _ => refuse .unterminated start
  | _ + 1, [] => refuse .unterminated start
  | fuel + 1, c :: rest =>
    if c = '"' then .ok ([], rest)
    else if c = '\\' then
      match rest with
      | [] => refuse .unterminated start
      | 'u' :: digits =>
        match unicodeEscape? digits with
        | none => refuse .unicodeEscape rest
        | some (n, after) =>
          -- Two halves make one character; a half alone stands for none.
          let pair? := if 0xD800 ≤ n ∧ n < 0xDC00 then secondHalf? n after else none
          let (d, after) := pair?.getD
            (if 0xD800 ≤ n ∧ n < 0xE000 then '\uFFFD' else Char.ofNat n, after)
          (readString start fuel after).map fun (cs, tail) => (d :: cs, tail)
      | e :: after =>
        match simpleEscape? e with
        | none => refuse .escape (c :: rest)
        | some d => (readString start fuel after).map fun (cs, tail) => (d :: cs, tail)
    else if c.toNat < 0x20 then refuse .controlCharacter (c :: rest)
    else (readString start fuel rest).map fun (cs, tail) => (c :: cs, tail)

/-- Reads a string after its opening quote. -/
def string (afterQuote : List Char) : Except Refusal (String × List Char) :=
  (readString ('"' :: afterQuote) (afterQuote.length + 1) afterQuote).map
    fun (cs, rest) => (String.ofList cs, rest)

/-- The ASCII digits a text starts with, and what follows. -/
def digits (cs : List Char) : List Char × List Char := cs.span Char.isDigit

/-- The part of a number before its fraction: no zero leads other digits. -/
def wholePart? : List Char → Option (List Char × List Char)
  | '0' :: rest => some (['0'], rest)
  | cs => match digits cs with
    | ([], _) => none
    | found => some found

/-- The fraction of a number, without its point. -/
def fractionPart (cs : List Char) : List Char × List Char :=
  match cs with
  | '.' :: rest => match digits rest with
    | ([], _) => ([], cs)
    | found => found
  | _ => ([], cs)

/-- The exponent of a number, if it has one. -/
def exponentPart (cs : List Char) : Option Int × List Char :=
  match cs with
  | e :: rest =>
    if e = 'e' ∨ e = 'E' then
      let (negative, afterSign) := Literal.takeSign rest
      match digits afterSign with
      | ([], _) => (none, cs)
      | (ds, tail) =>
        let n : Int := ofDigits 10 (ds.map fun d => d.toNat - 48)
        (some (if negative then -n else n), tail)
    else (none, cs)
  | [] => (none, cs)

/-- Reads a number, or none where no number starts. -/
def number (start : List Char) : Except Refusal (Value × List Char) :=
  let (negative, cs) := match start with
    | '-' :: rest => (true, rest)
    | cs => (false, cs)
  match wholePart? cs with
  | none => refuse .value start
  | some (whole, afterWhole) =>
    let (fraction, afterFraction) := fractionPart afterWhole
    let (exponent, rest) := exponentPart afterFraction
    let value := fun (ds : List Char) => ofDigits 10 (ds.map fun d => d.toNat - 48)
    -- Only a number of digits alone is an integer.
    if fraction.isEmpty && exponent.isNone then
      if Literal.digitLimit < whole.length then refuse (.longInteger whole.length) start
      else
        let n : Int := value whole
        .ok (.int (if negative then -n else n), rest)
    else
      .ok (.float (.ofDecimal negative (value (whole ++ fraction))
        (exponent.getD 0 - fraction.length)), rest)

/-- The words that stand for a value. -/
def words : List (List Char × Value) :=
  [("null".toList, .null), ("true".toList, .bool true), ("false".toList, .bool false),
   ("NaN".toList, .float .nan), ("Infinity".toList, .float (.infinite false)),
   ("-Infinity".toList, .float (.infinite true))]

/-- Reads a word or a number. -/
def scalar (cs : List Char) : Except Refusal (Value × List Char) :=
  match words.find? fun (word, _) => word.isPrefixOf cs with
  | some (word, value) => .ok (value, cs.drop word.length)
  | none => number cs

mutual

/-- Reads a value. Every call takes one unit of fuel. -/
def value : Nat → List Char → Except Refusal (Value × List Char)
  | 0, cs => refuse .value cs
  | fuel + 1, cs =>
    match cs with
    | '"' :: rest => (string rest).map fun (s, tail) => (.text s, tail)
    | '[' :: rest =>
      match skipSpace rest with
      | ']' :: tail => .ok (.list [], tail)
      | inner => (items fuel inner).map fun (vs, tail) => (.list vs, tail)
    | '\x7b' :: rest =>
      match skipSpace rest with
      | '\x7d' :: tail => .ok (.map [], tail)
      | inner => members fuel [] inner
    | _ => scalar cs

/-- Reads the items of a list up to its closing bracket. -/
def items : Nat → List Char → Except Refusal (List Value × List Char)
  | 0, cs => refuse .value cs
  | fuel + 1, cs => do
    let (v, afterValue) ← value fuel cs
    match skipSpace afterValue with
    | ']' :: tail => return ([v], tail)
    | ',' :: rest =>
      let (vs, tail) ← items fuel (skipSpace rest)
      return (v :: vs, tail)
    | rest => refuse .comma rest

/-- Reads the members of a mapping up to its closing brace. -/
def members : Nat → List (Value × Value) → List Char → Except Refusal (Value × List Char)
  | 0, _, cs => refuse .value cs
  | fuel + 1, found, cs =>
    match cs with
    | '"' :: rest => do
      let (name, afterName) ← string rest
      match skipSpace afterName with
      | ':' :: rest =>
        let (v, afterValue) ← value fuel (skipSpace rest)
        -- A repeated name keeps its place.
        let found := Value.insert (.text name) v found
        match skipSpace afterValue with
        | '\x7d' :: tail => return (.map found, tail)
        | ',' :: rest => members fuel found (skipSpace rest)
        | rest => refuse .comma rest
      | rest => refuse .colon rest
    | _ => refuse .propertyName cs

end

/-- Reads a document: one value with white space around it. -/
def read (text : List Char) : Except Error Value :=
  let answer : Except Refusal Value := do
    let (v, rest) ← value (2 * text.length + 2) (skipSpace text)
    match skipSpace rest with
    | [] => return v
    | rest => throw ⟨.extraData, rest.length⟩
  answer.mapError (·.locate text)

end FormatServer.Json
