import FormatServer.Yaml.Token.Property

/-!
The tokens of a YAML text. Indentation becomes tokens that open and close collections. A token that may
turn out to be a key is remembered until a colon follows on its line; then the tokens of the key are put
in front of it.
-/

namespace FormatServer.Yaml

/-- A token that may turn out to be a key: its number, and where it starts. -/
structure KeyCandidate where
  /-- the level of flow collections it stands in -/
  level : Int
  number : Nat
  /-- the indentation demands that it is a key -/
  required : Bool
  index : Nat
  line : Nat
  column : Nat

/-- The state of reading tokens. -/
structure Scan where
  cursor : Cursor
  tokens : Array Token := #[]
  /-- the depth of flow collections -/
  level : Int := 0
  /-- the column of the innermost block collection -/
  indent : Int := -1
  /-- the columns of the collections around it -/
  indents : List Int := []
  /-- a key may start here -/
  keyAllowed : Bool := true
  candidates : List KeyCandidate := []
  finished : Bool := false

namespace Scan

def inFlow (s : Scan) : Bool := s.level ≠ 0

def push (s : Scan) (t : Token) : Scan := { s with tokens := s.tokens.push t }

def advance (s : Scan) (n : Nat) : Scan := { s with cursor := s.cursor.forwardBy n }

/-- Passes spaces, comments and line breaks up to the next token. A break outside flow collections lets a
key follow. -/
def skipToToken : Nat → Scan → Scan
  | 0, s => s
  | fuel + 1, s =>
    let c := s.cursor.skipWhile (· = ' ')
    let c := if c.next = '#' then c.skipWhile (!endsLine ·) else c
    if isBreak c.next then
      skipToToken fuel
        { s with cursor := c.takeBreak.2, keyAllowed := s.keyAllowed || !s.inFlow }
    else { s with cursor := c }

/-- The candidate can no longer be a key: it stands on another line, or too far away. -/
def isStale (c : Cursor) (k : KeyCandidate) : Bool :=
  k.line ≠ c.line || k.index + 1024 < c.index

/-- Drops candidates that can no longer be keys; one that has to be is an error. -/
def dropStale (s : Scan) : Except Error Scan :=
  if s.candidates.any fun k => isStale s.cursor k && k.required then .error .malformed
  else .ok { s with candidates := s.candidates.filter (!isStale s.cursor ·) }

/-- The candidate of the present level. -/
def candidate? (s : Scan) : Option KeyCandidate := s.candidates.find? (·.level = s.level)

/-- Drops the candidate of the present level; one that has to be a key is an error. -/
def dropCandidate (s : Scan) : Except Error Scan :=
  if s.candidate?.any (·.required) then .error .malformed
  else .ok { s with candidates := s.candidates.filter (·.level ≠ s.level) }

/-- Remembers the next token as a candidate, if a key may start here. -/
def saveCandidate (s : Scan) : Except Error Scan := do
  if !s.keyAllowed then return s
  -- At the column of its collection nothing but a key can stand.
  let required := !s.inFlow && s.indent = (s.cursor.column : Int)
  let s ← s.dropCandidate
  return { s with candidates := s.candidates ++
    [⟨s.level, s.tokens.size, required, s.cursor.index, s.cursor.line, s.cursor.column⟩] }

/-- Closes block collections down to a column. -/
def unwindFrom (column : Int) : List Int → Scan → Scan
  | [], s => s
  | outer :: rest, s =>
    if column < s.indent then
      unwindFrom column rest { s.push .blockEnd with indent := outer, indents := rest }
    else s

/-- Closes block collections down to a column, outside flow collections. -/
def unwind (s : Scan) (column : Int) : Scan :=
  if s.inFlow then s else unwindFrom column s.indents s

/-- Opens a block collection at a column to the right of the present one, with its token put at a
place. -/
def openBlock (s : Scan) (column : Nat) (place : Nat) (t : Token) : Scan :=
  if !s.inFlow && s.indent < (column : Int) then
    { s with
      indents := s.indent :: s.indents
      indent := column
      tokens := s.tokens.insertIdxIfInBounds place t }
  else s

def atEnd (s : Scan) : Except Error Scan := do
  let s ← (s.unwind (-1)).dropCandidate
  return { s.push .streamEnd with keyAllowed := false, candidates := [], finished := true }

def atDirective (s : Scan) : Except Error Scan := do
  let s ← (s.unwind (-1)).dropCandidate
  let (d, c) ← readDirective s.cursor
  return { s.push (.directive d) with keyAllowed := false, cursor := c }

def atMark (s : Scan) (t : Token) : Except Error Scan := do
  let s ← (s.unwind (-1)).dropCandidate
  return { (s.push t).advance 3 with keyAllowed := false }

def atFlowStart (s : Scan) (t : Token) : Except Error Scan := do
  let s ← s.saveCandidate
  return { (s.push t).advance 1 with level := s.level + 1, keyAllowed := true }

def atFlowEnd (s : Scan) (t : Token) : Except Error Scan := do
  let s ← s.dropCandidate
  return { (s.push t).advance 1 with level := s.level - 1, keyAllowed := false }

def atFlowEntry (s : Scan) : Except Error Scan := do
  let s ← s.dropCandidate
  return { (s.push .flowEntry).advance 1 with keyAllowed := true }

def atBlockEntry (s : Scan) : Except Error Scan := do
  if !s.inFlow && !s.keyAllowed then throw .malformed
  let s ← (s.openBlock s.cursor.column s.tokens.size .blockSequenceStart).dropCandidate
  return { (s.push .blockEntry).advance 1 with keyAllowed := true }

def atKey (s : Scan) : Except Error Scan := do
  if !s.inFlow && !s.keyAllowed then throw .malformed
  let s ← (s.openBlock s.cursor.column s.tokens.size .blockMappingStart).dropCandidate
  return { (s.push .key).advance 1 with keyAllowed := !s.inFlow }

/-- Reads a colon. It makes the candidate of its level a key. -/
def atValue (s : Scan) : Except Error Scan := do
  match s.candidate? with
  | some k =>
    let s := { s with
      candidates := s.candidates.filter (·.level ≠ s.level)
      -- The key began before its colon was seen.
      tokens := s.tokens.insertIdxIfInBounds k.number .key }
    let s := s.openBlock k.column k.number .blockMappingStart
    return { (s.push .value).advance 1 with keyAllowed := false }
  -- A colon without a candidate has an empty key.
  | none =>
    if !s.inFlow && !s.keyAllowed then throw .malformed
    let s ← (s.openBlock s.cursor.column s.tokens.size .blockMappingStart).dropCandidate
    return { (s.push .value).advance 1 with keyAllowed := !s.inFlow }

/-- Reads a part of a node that may start a key. -/
def atPart (s : Scan) (read : Cursor → Except Error (Token × Cursor)) : Except Error Scan := do
  let s ← s.saveCandidate
  let (t, c) ← read s.cursor
  return { s.push t with keyAllowed := false, cursor := c }

def atBlockScalar (s : Scan) (folded : Bool) : Except Error Scan := do
  let s ← s.dropCandidate
  let (text, c) ← readBlock folded s.indent s.cursor
  return { s.push (.scalar text false) with keyAllowed := true, cursor := c }

def atPlain (s : Scan) : Except Error Scan := do
  let s ← s.saveCandidate
  let r := readPlain s.inFlow s.indent s.cursor
  return { s.push (.scalar r.text true) with keyAllowed := r.atLineStart, cursor := r.cursor }

/-- A plain scalar starts here. -/
def startsPlain (s : Scan) : Bool :=
  let d := s.cursor.next
  let marks := "-?:,[]\x7b\x7d#&*!|>'\"%@\x60".toList
  (!endsWord d && !marks.contains d) ||
    (!endsWord (s.cursor.peek 1) && (d = '-' || (!s.inFlow && (d = '?' || d = ':'))))

/-- Reads the next token, with the tokens that the indentation calls for in front of it. -/
def step (s : Scan) : Except Error Scan := do
  let s ← (skipToToken (s.cursor.rest.length + 1) s).dropStale
  let s := s.unwind s.cursor.column
  let d := s.cursor.next
  let loose := endsWord (s.cursor.peek 1)
  let first := s.cursor.column = 0
  -- Marks and directives count at the start of a line only.
  if isEnd d then s.atEnd
  else if d = '%' && first then s.atDirective
  else if first && s.cursor.isAtMark && d = '-' then s.atMark .documentStart
  else if first && s.cursor.isAtMark && d = '.' then s.atMark .documentEnd
  else if d = '[' then s.atFlowStart .flowSequenceStart
  else if d = '\x7b' then s.atFlowStart .flowMappingStart
  else if d = ']' then s.atFlowEnd .flowSequenceEnd
  else if d = '\x7d' then s.atFlowEnd .flowMappingEnd
  else if d = ',' then s.atFlowEntry
  else if d = '-' && loose then s.atBlockEntry
  else if d = '?' && (s.inFlow || loose) then s.atKey
  else if d = ':' && (s.inFlow || loose) then s.atValue
  else if d = '*' then s.atPart fun c => do let (n, c) ← readName c; return (.alias n, c)
  else if d = '&' then s.atPart fun c => do let (n, c) ← readName c; return (.anchor n, c)
  else if d = '!' then s.atPart fun c => do let (t, c) ← readTag c; return (.tag t, c)
  -- Inside brackets there are no blocks.
  else if d = '|' && !s.inFlow then s.atBlockScalar false
  else if d = '>' && !s.inFlow then s.atBlockScalar true
  else if d = '\'' then s.atPart fun c => do
    let (t, c) ← readQuoted false c; return (.scalar t false, c)
  else if d = '"' then s.atPart fun c => do
    let (t, c) ← readQuoted true c; return (.scalar t false, c)
  else if s.startsPlain then s.atPlain
  else throw .malformed

/-- Reads tokens up to the end, or to a fault. -/
def run : Nat → Scan → Array Token
  | 0, s => s.tokens.push (.fault .malformed)
  | fuel + 1, s =>
    if s.finished then s.tokens
    else match s.step with
      | .ok s => run fuel s
      | .error e => s.tokens.push (.fault e)

end Scan

/-- The tokens of a text. A byte order mark at the start does not count. -/
def Token.ofText (text : List Char) : List Token :=
  let start := Cursor.start text
  let start := if start.next = '\uFEFF' then start.forward else start
  (Scan.run (text.length + 2) { cursor := start }).toList

end FormatServer.Yaml
