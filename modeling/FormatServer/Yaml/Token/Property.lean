import FormatServer.Text.Utf8
import FormatServer.Yaml.Token.Scalar

/-!
Anchors, aliases, tags and directives in a YAML text.
-/

namespace FormatServer.Yaml

open Text

def isNameChar (c : Char) : Bool := c.isAlphanum || c = '-' || c = '_'

/-- Reads the name of an anchor or alias after its sign. -/
def readName (c : Cursor) : Except Error (String × Cursor) :=
  let (name, c) := c.forward.takeWhile isNameChar
  let ended := endsWord c.next || ['?', ':', ',', ']', '\x7d', '%', '@', '\x60'].contains c.next
  if name.isEmpty || !ended then .error .malformed else .ok (String.ofList name, c)

def isTagChar (c : Char) : Bool :=
  c.isAlphanum || "-;/?:@&=+$,_.!~*'()[]%".toList.contains c

/-- Reads bytes that are escaped by a percent sign. -/
def escapedBytes : Nat → Cursor → Except Error (List UInt8 × Cursor)
  | 0, c => .ok ([], c)
  | fuel + 1, c =>
    if c.next = '%' then
      match hexDigit? (c.peek 1), hexDigit? (c.peek 2) with
      | some a, some b => do
        let (more, c) ← escapedBytes fuel (c.forwardBy 3)
        return (UInt8.ofNat (16 * a + b) :: more, c)
      | _, _ => .error .malformed
    else .ok ([], c)

def tagChars : Nat → Cursor → Except Error (List Char × Cursor)
  | 0, c => .ok ([], c)
  | fuel + 1, c =>
    if c.next = '%' then do
      let (bytes, c) ← escapedBytes (c.rest.length + 1) c
      match Utf8.decode bytes with
      | .error _ => throw .malformed
      | .ok cs =>
        let (more, c) ← tagChars fuel c
        return (cs ++ more, c)
    else if isTagChar c.next then do
      let (more, d) ← tagChars fuel c.forward
      return (c.next :: more, d)
    else .ok ([], c)

/-- Reads the characters of a tag, at least one. -/
def readTagText (c : Cursor) : Except Error (String × Cursor) := do
  let start := c.next
  let (cs, after) ← tagChars (c.rest.length + 1) c
  if start ≠ '%' && cs.isEmpty then throw .malformed
  return (String.ofList cs, after)

/-- Reads the handle of a tag: an exclamation mark, or a name between two. -/
def readHandle (c : Cursor) : Except Error (String × Cursor) :=
  if c.next ≠ '!' then .error .malformed
  else if c.peek 1 = ' ' then .ok ("!", c.forward)
  else
    let (name, after) := c.forward.takeWhile isNameChar
    if after.next = '!' then .ok (String.ofList ('!' :: name ++ ['!']), after.forward)
    else .error .malformed

/-- Reads a tag in front of a node. -/
def readTag (c : Cursor) : Except Error (WrittenTag × Cursor) := do
  let (tag, after) ←
    if c.peek 1 = '<' then do
      let (suffix, after) ← readTagText (c.forwardBy 2)
      if after.next ≠ '>' then throw .malformed
      pure ((⟨none, suffix⟩ : WrittenTag), after.forward)
    else if endsWord (c.peek 1) then
      pure (⟨none, "!"⟩, c.forward)
    else do
      let (handle, after) ←
        if (c.forward.run (!endsPart ·)).contains '!' then readHandle c else pure ("!", c.forward)
      let (suffix, after) ← readTagText after
      pure (⟨some handle, suffix⟩, after)
  if !endsPart after.next then throw .malformed
  return (tag, after)

def readVersionNumber (c : Cursor) : Except Error (Nat × Cursor) :=
  let (digits, after) := c.takeWhile Char.isDigit
  if digits.isEmpty then .error .malformed
  else match Literal.readInt 10 digits with
    | .ok n => .ok (n.toNat, after)
    | .error e => .error (.integer e)

/-- Reads what follows the name of a directive. -/
def readDirectiveValue (name : String) (c : Cursor) : Except Error (Directive × Cursor) :=
  if name = "YAML" then do
    let (major, c) ← readVersionNumber (c.skipWhile (· = ' '))
    if c.next ≠ '.' then throw .malformed
    let (_, c) ← readVersionNumber c.forward
    if !endsPart c.next then throw .malformed
    return (.version major, c)
  else if name = "TAG" then do
    let (handle, c) ← readHandle (c.skipWhile (· = ' '))
    if c.next ≠ ' ' then throw .malformed
    let (start, c) ← readTagText (c.skipWhile (· = ' '))
    if !endsPart c.next then throw .malformed
    return (.tagHandle handle start, c)
  else .ok (.other, c.skipWhile (!endsLine ·))

def readDirective (c : Cursor) : Except Error (Directive × Cursor) := do
  let (name, c) := c.forward.takeWhile isNameChar
  if name.isEmpty || !endsPart c.next then throw .malformed
  let (d, c) ← readDirectiveValue (String.ofList name) c
  match c.finishLine? with
  | some c => return (d, c)
  | none => throw .malformed

end FormatServer.Yaml
