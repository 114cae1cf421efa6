import FormatServer.Text.Pieces

/-!
Paths of files: a root and components. Empty components and single points do not count; two points do.
A path of two leading slashes keeps both.
-/

namespace FormatServer

inductive Root where
  | relative
  | slash
  | doubleSlash
  deriving DecidableEq, Repr

structure Path where
  root : Root
  parts : List (List Char)
  deriving DecidableEq, Repr

namespace Path

open Text

/-- The root that a text of a path has. -/
def rootOf : List Char → Root
  | '/' :: '/' :: '/' :: _ => .slash
  | '/' :: '/' :: _ => .doubleSlash
  | '/' :: _ => .slash
  | _ => .relative

/-- A component that counts. -/
def isPart (cs : List Char) : Bool := cs ≠ [] && cs ≠ ['.']

def ofChars (cs : List Char) : Path := ⟨rootOf cs, (splitOn '/' cs).filter isPart⟩

def ofString (s : String) : Path := ofChars s.toList

def Root.chars : Root → List Char
  | .relative => []
  | .slash => ['/']
  | .doubleSlash => ['/', '/']

/-- Components with slashes between them. -/
def joinParts : List (List Char) → List Char
  | [] => []
  | [part] => part
  | part :: rest => part ++ '/' :: joinParts rest

def chars (p : Path) : List Char :=
  match p.root, p.parts with
  | .relative, [] => ['.']
  | root, parts => Root.chars root ++ joinParts parts

def toString (p : Path) : String := String.ofList p.chars

/-- A path below another; one with a root of its own stands alone. -/
def append (p q : Path) : Path :=
  match q.root with
  | .relative => ⟨p.root, p.parts ++ q.parts⟩
  | _ => q

def name (p : Path) : List Char := p.parts.getLast?.getD []

/-- The end of a name from its last point on, if there is something before and after the point. -/
def suffixOf (name : List Char) : List Char :=
  let after := (name.reverse.takeWhile (· ≠ '.')).reverse
  let before := name.length - after.length - 1
  if after.isEmpty || after.length = name.length || before = 0 then [] else name.drop before

/-- The extension of a path, with its point. -/
def extension (p : Path) : List Char := suffixOf p.name

def parent (p : Path) : Path := ⟨p.root, p.parts.dropLast⟩

end Path

end FormatServer
