import FormatServer.Number.Binary64
import FormatServer.Text.Blank
import FormatServer.Text.Digit

/-!
Readers of number literals. Blanks around a literal do not count, a sign may lead, an underscore may
stand between two digits, and the digits may be of any script.
-/

namespace FormatServer.Literal

open Text

/-- A sign in front of a literal, and what follows it. -/
def takeSign : List Char → Bool × List Char
  | '-' :: rest => (true, rest)
  | '+' :: rest => (false, rest)
  | cs => (false, cs)

/-- What a reader of digits has just passed. -/
inductive Passed where
  | nothing
  | digit
  | joint

/-- The digits a text starts with, and what follows them. An underscore is passed over after a digit
and given back when no digit follows it. -/
def takeDigitsAfter (base : Nat) : Passed → List Char → List Nat × List Char
  | .joint, [] => ([], ['_'])
  | _, [] => ([], [])
  | passed, c :: rest =>
    match digitOfBase? base c, passed with
    | some d, _ =>
      let (ds, tail) := takeDigitsAfter base .digit rest
      (d :: ds, tail)
    | none, .digit =>
      if c = '_' then takeDigitsAfter base .joint rest else ([], c :: rest)
    | none, .joint => ([], '_' :: c :: rest)
    | none, .nothing => ([], c :: rest)

/-- The digits a text starts with, each but the first after at most one underscore, and what follows. -/
def takeDigits (base : Nat) (cs : List Char) : List Nat × List Char :=
  takeDigitsAfter base .nothing cs

/-- The letter that may mark a base after a leading zero. -/
def baseMark? : Nat → Option Char
  | 2 => some 'b'
  | 8 => some 'o'
  | 16 => some 'x'
  | _ => none

/-- A text without the mark of its base. An underscore may follow the mark. -/
def dropBaseMark (base : Nat) (cs : List Char) : List Char :=
  match baseMark? base, cs with
  | some mark, '0' :: c :: rest =>
    if c.toLower = mark then
      match rest with
      | '_' :: after => after
      | _ => rest
    else cs
  | _, _ => cs

/-- Why a text is no integer literal. -/
inductive IntError where
  | malformed (base : Nat) (text : List Char)
  | tooLong (digits : Nat)

/-- The most digits that a literal in a base that is no power of two may have. -/
def digitLimit : Nat := 4300

/-- Reads an integer literal in a base. -/
def readInt (base : Nat) (text : List Char) : Except IntError Int :=
  let (negative, cs) := takeSign (trim isNumberBlank text)
  match takeDigits base (dropBaseMark base cs) with
  | (d :: ds, []) =>
    if base = 10 ∧ digitLimit < (d :: ds).length then .error (.tooLong (d :: ds).length)
    else
      let n : Int := ofDigits base (d :: ds)
      .ok (if negative then -n else n)
  | _ => .error (.malformed base text)

/-- The names of the infinite and the undefined number. -/
def namedNumber? (negative : Bool) (cs : List Char) : Option Binary64 :=
  let name := String.ofList (cs.map Char.toLower)
  if name = "inf" ∨ name = "infinity" then some (.infinite negative)
  else if name = "nan" then some .nan
  else none

/-- The exponent part of a literal: none of it is zero. -/
def takeExponent? : List Char → Option Int
  | [] => some 0
  | c :: rest =>
    if c = 'e' ∨ c = 'E' then
      let (negative, digits) := takeSign rest
      match takeDigits 10 digits with
      | (d :: ds, []) =>
        let n : Int := ofDigits 10 (d :: ds)
        some (if negative then -n else n)
      | _ => none
    else none

def readFloat? (text : List Char) : Option Binary64 :=
  let (negative, cs) := takeSign (trim isNumberBlank text)
  match namedNumber? negative cs with
  | some x => some x
  | none =>
    let (whole, afterWhole) := takeDigits 10 cs
    let (fraction, afterFraction) := match afterWhole with
      | '.' :: rest => takeDigits 10 rest
      | rest => ([], rest)
    if whole.isEmpty && fraction.isEmpty then none
    else do
      let exponent ← takeExponent? afterFraction
      return .ofDecimal negative (ofDigits 10 (whole ++ fraction)) (exponent - fraction.length)

end FormatServer.Literal
