import FormatServer.Yaml.Cursor
import FormatServer.Yaml.Token.Basic

/-!
Scalars in a YAML text: plain, quoted, and in blocks. Each reader starts at the scalar's first character
and gives its text and the place after it.
-/

namespace FormatServer.Yaml

open Text

/-! ## Folding -/

/-- The text that a run of line breaks stands for: a single line feed is a space, and a line feed
before other breaks is dropped. -/
def foldedBreaks (first : List Char) (more : List Char) : List Char :=
  if first ≠ ['\n'] then first ++ more
  else if more.isEmpty then [' ']
  else more

/-! ## Plain scalars -/

/-- A character that ends a piece of a plain scalar, given the one after it. -/
def endsPlain (flow : Bool) (c next : Char) : Bool :=
  endsWord c ||
    (c = ':' && (endsWord next || (flow && [',', '[', ']', '\x7b', '\x7d'].contains next))) ||
    (flow && [',', '?', '[', ']', '\x7b', '\x7d'].contains c)

/-- A piece of a plain scalar without spaces. -/
def plainPiece (flow : Bool) : List Char → List Char
  | [] => []
  | c :: rest =>
    if endsPlain flow c (rest.headD '\x00') then [] else c :: plainPiece flow rest

/-- Spaces and line breaks between the pieces of a plain scalar. -/
structure PlainGap where
  text : List Char
  cursor : Cursor
  /-- a line break was passed -/
  broken : Bool

/-- Reads the breaks after the first one in a gap; none when a document mark follows. -/
def plainBreaks : Nat → Cursor → Option (List Char) × Cursor
  | 0, c => (some [], c)
  | fuel + 1, c =>
    if c.next = ' ' then plainBreaks fuel c.forward
    else if isBreak c.next then
      let (b, c) := c.takeBreak
      if c.isAtMark then (none, c)
      else
        let (more, c) := plainBreaks fuel c
        (more.map (b ++ ·), c)
    else (some [], c)

/-- Reads a gap. A document mark after a break leaves it empty. -/
def plainGap (c : Cursor) : PlainGap :=
  let (spaces, c) := c.takeWhile (· = ' ')
  if isBreak c.next then
    let (first, c) := c.takeBreak
    if c.isAtMark then ⟨[], c, true⟩
    else
      match plainBreaks (c.rest.length + 1) c with
      | (none, c) => ⟨[], c, true⟩
      | (some more, c) => ⟨foldedBreaks first more, c, true⟩
  else ⟨spaces, c, false⟩

/-- What a reader of a scalar answers. -/
structure ReadScalar where
  text : List Char
  cursor : Cursor
  /-- reading stopped at the start of a line, so that a key may follow -/
  atLineStart : Bool

/-- Reads the pieces of a plain scalar. `gap` is what stands before the next piece. -/
def plainPieces (flow : Bool) (indent : Int) : Nat → List Char → Bool → Cursor → ReadScalar
  | 0, _, broken, c => ⟨[], c, broken⟩
  | fuel + 1, gap, broken, c =>
    if c.next = '#' then ⟨[], c, broken⟩
    else
      let piece := plainPiece flow c.rest
      if piece.isEmpty then ⟨[], c, broken⟩
      else
        let after := plainGap (c.forwardBy piece.length)
        -- A comment or a lesser indentation ends the scalar, and the gap belongs to nothing.
        if after.text.isEmpty || after.cursor.next = '#' ||
            (!flow && (after.cursor.column : Int) < indent) then
          ⟨gap ++ piece, after.cursor, after.broken⟩
        else
          let more := plainPieces flow indent fuel after.text after.broken after.cursor
          { more with text := gap ++ piece ++ more.text }

def readPlain (flow : Bool) (indent : Int) (c : Cursor) : ReadScalar :=
  plainPieces flow (indent + 1) (c.rest.length + 1) [] false c

/-! ## Quoted scalars -/

/-- The character that one after a backslash stands for. -/
def simpleEscape? : Char → Option Char
  | '0' => some '\x00'
  | 'a' => some '\x07'
  | 'b' => some '\x08'
  | 't' => some '\t'
  | '\t' => some '\t'
  | 'n' => some '\n'
  | 'v' => some '\x0b'
  | 'f' => some '\x0c'
  | 'r' => some '\r'
  | 'e' => some '\x1b'
  | ' ' => some ' '
  | '"' => some '"'
  | '\\' => some '\\'
  | '/' => some '/'
  | 'N' => some '\x85'
  | '_' => some '\xa0'
  | 'L' => some '\u2028'
  | 'P' => some '\u2029'
  | _ => none

/-- The count of hexadecimal digits after a letter that escapes a code point. -/
def escapeWidth? : Char → Option Nat
  | 'x' => some 2
  | 'u' => some 4
  | 'U' => some 8
  | _ => none

/-- The character of a code point. -/
def charOfCode (n : Nat) : Except Error Char :=
  if 0x80000000 ≤ n then .error .codeSize
  else if 0x110000 ≤ n then .error .codePoint
  else if 0xD800 ≤ n ∧ n < 0xE000 then .ok '\uFFFD'
  else .ok (Char.ofNat n)

/-- Reads an escaped code point of a number of digits. -/
def readCode (width : Nat) (c : Cursor) : Except Error (Char × Cursor) := do
  let digits := (c.rest.take width).filterMap hexDigit?
  if digits.length < width then throw .malformed
  return (← charOfCode (ofDigits 16 digits), c.forwardBy width)

/-- Reads the blanks and breaks after a break in a quoted scalar. -/
def quotedBreaks : Nat → Cursor → Except Error (List Char × Cursor)
  | 0, c => .ok ([], c)
  | fuel + 1, c =>
    if c.isAtMark then .error .malformed
    else
      let c := c.skipWhile fun d => d = ' ' || d = '\t'
      if isBreak c.next then do
        let (b, c) := c.takeBreak
        let (more, c) ← quotedBreaks fuel c
        return (b ++ more, c)
      else .ok ([], c)

/-- Reads a run of blanks and breaks in a quoted scalar. -/
def quotedGap (c : Cursor) : Except Error (List Char × Cursor) := do
  let (blanks, c) := c.takeWhile fun d => d = ' ' || d = '\t'
  if isEnd c.next then throw .malformed
  if isBreak c.next then
    let (first, c) := c.takeBreak
    let (more, c) ← quotedBreaks (c.rest.length + 1) c
    return (foldedBreaks first more, c)
  return (blanks, c)

/-- A character that stands for itself between quotes. -/
def isQuotedPlain (c : Char) : Bool := !(endsWord c || c = '\'' || c = '"' || c = '\\')

/-- Reads up to the closing quote. -/
def quotedPieces (double : Bool) : Nat → Cursor → Except Error (List Char × Cursor)
  | 0, _ => .error .malformed
  | fuel + 1, c => do
    let d := c.next
    if isQuotedPlain d then
      let (piece, c) := c.takeWhile isQuotedPlain
      let (more, c) ← quotedPieces double fuel c
      return (piece ++ more, c)
    else if !double && d = '\'' && c.peek 1 = '\'' then
      let (more, c) ← quotedPieces double fuel (c.forwardBy 2)
      return ('\'' :: more, c)
    else if (double && d = '\'') || (!double && (d = '"' || d = '\\')) then
      let (more, c) ← quotedPieces double fuel c.forward
      return (d :: more, c)
    else if double && d = '\\' then
      let c := c.forward
      let e := c.next
      match simpleEscape? e, escapeWidth? e with
      | some x, _ =>
        let (more, c) ← quotedPieces double fuel c.forward
        return (x :: more, c)
      | none, some width =>
        let (x, c) ← readCode width c.forward
        let (more, c) ← quotedPieces double fuel c
        return (x :: more, c)
      | none, none =>
        -- A backslash at the end of a line joins the lines.
        if isBreak e then
          let (breaks, c) ← quotedBreaks (c.rest.length + 1) c.takeBreak.2
          let (more, c) ← quotedPieces double fuel c
          return (breaks ++ more, c)
        else throw .malformed
    else if d = (if double then '"' else '\'') then return ([], c.forward)
    else
      let (gap, c) ← quotedGap c
      let (more, c) ← quotedPieces double fuel c
      return (gap ++ more, c)

def readQuoted (double : Bool) (c : Cursor) : Except Error (List Char × Cursor) :=
  quotedPieces double (c.rest.length + 1) c.forward

/-! ## Block scalars -/

/-- What becomes of the line breaks at the end of a block scalar. -/
inductive Chomping where
  | clip
  | strip
  | keep
  deriving DecidableEq, Repr

/-- Reads a sign for the breaks at the end. -/
def chomping? : Char → Option Chomping
  | '+' => some .keep
  | '-' => some .strip
  | _ => none

/-- Reads a digit for the indentation, which must not be zero. -/
def increment? (c : Cursor) : Except Error (Option Nat × Cursor) :=
  if c.next.isDigit then
    if c.next = '0' then .error .malformed else .ok (some (c.next.toNat - 48), c.forward)
  else .ok (none, c)

/-- Reads the header of a block scalar: a sign and a digit in any order. -/
def blockHeader (c : Cursor) : Except Error (Chomping × Option Nat × Cursor) := do
  match chomping? c.next with
  | some sign =>
    let (increment, c) ← increment? c.forward
    return (sign, increment, c)
  | none =>
    let (increment, c) ← increment? c
    match increment, chomping? c.next with
    | some n, some sign => return (sign, some n, c.forward)
    | increment, _ => return (.clip, increment, c)

/-- Reads the empty lines in front of a block scalar and finds the widest indentation among them and the
first line. -/
def leadingBreaks : Nat → Nat → Cursor → List Char × Nat × Cursor
  | 0, widest, c => ([], widest, c)
  | fuel + 1, widest, c =>
    if c.next = ' ' then
      let c := c.forward
      leadingBreaks fuel (max widest c.column) c
    else if isBreak c.next then
      let (b, c) := c.takeBreak
      let (more, widest, c) := leadingBreaks fuel widest c
      (b ++ more, widest, c)
    else ([], widest, c)

/-- Passes spaces up to a column. -/
def skipIndent (indent : Nat) : Nat → Cursor → Cursor
  | 0, c => c
  | fuel + 1, c =>
    if c.column < indent ∧ c.next = ' ' then skipIndent indent fuel c.forward else c

def emptyLines (indent : Nat) : Nat → Cursor → List Char × Cursor
  | 0, c => ([], c)
  | fuel + 1, c =>
    let c := skipIndent indent c.rest.length c
    if isBreak c.next then
      let (b, c) := c.takeBreak
      let (more, c) := emptyLines indent fuel c
      (b ++ more, c)
    else ([], c)

/-- What stands between two lines of a block scalar: in a folded one a single break between lines that
start with no blank is a space, or nothing before empty lines. -/
def betweenLines (folded : Bool) (lineBreak : List Char) (firstChar nextChar : Char)
    (empty : List Char) : List Char :=
  let isText := fun (c : Char) => c ≠ ' ' && c ≠ '\t'
  if folded && lineBreak = ['\n'] && isText firstChar && isText nextChar then
    if empty.isEmpty then [' '] else []
  else lineBreak

/-- Reads the lines of a block scalar. Answers the text, the last line's break, and the empty lines
after it. -/
def blockLines (folded : Bool) (indent : Nat) :
    Nat → List Char → List Char → Cursor → List Char × List Char × List Char × Cursor
  | 0, lineBreak, empty, c => ([], lineBreak, empty, c)
  | fuel + 1, lineBreak, empty, c =>
    if c.column = indent ∧ !isEnd c.next then
      let (line, after) := c.takeWhile (!endsLine ·)
      let (lineBreak, after) := after.takeBreak
      let (newEmpty, after) := emptyLines indent (after.rest.length + 1) after
      if after.column = indent ∧ !isEnd after.next then
        let (more, last, tail, cursor) := blockLines folded indent fuel lineBreak newEmpty after
        (empty ++ line ++ betweenLines folded lineBreak c.next after.next newEmpty ++ more,
          last, tail, cursor)
      else (empty ++ line, lineBreak, newEmpty, after)
    else ([], lineBreak, empty, c)

def readBlock (folded : Bool) (blockIndent : Int) (c : Cursor) :
    Except Error (List Char × Cursor) := do
  let (chomping, increment, c) ← blockHeader c.forward
  if !endsPart c.next then throw .malformed
  match c.finishLine? with
  | none => throw .malformed
  | some c =>
    -- A block is indented by one column at least.
    let least := (max (blockIndent + 1) 1).toNat
    let (empty, indent, c) := match increment with
      | none =>
        let (breaks, widest, c) := leadingBreaks (c.rest.length + 1) 0 c
        (breaks, max least widest, c)
      | some n =>
        let indent := least + n - 1
        let (breaks, c) := emptyLines indent (c.rest.length + 1) c
        (breaks, indent, c)
    let (text, lineBreak, tail, c) := blockLines folded indent (c.rest.length + 1) [] empty c
    return (match chomping with
      | .strip => text
      | .clip => text ++ lineBreak
      | .keep => text ++ lineBreak ++ tail, c)

end FormatServer.Yaml
