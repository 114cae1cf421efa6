import FormatServer.Yaml.Token.Scan
import FormatServer.Yaml.Kind

/-!
The nodes of a YAML document, read from its tokens by recursive descent. Aliases are replaced by the
nodes they name. Nodes are finite trees of any depth: a document with a node that holds itself, as in
`a: &x [*x]`, is refused here, which a reader of graphs would accept, and no document is too deep.
-/

namespace FormatServer.Yaml

/-- A node with its full tag. -/
inductive Node where
  | scalar (tag : String) (text : List Char)
  | sequence (tag : String) (items : List Node)
  | mapping (tag : String) (entries : List (Node × Node))
  deriving Inhabited

def Node.tag : Node → String
  | scalar t _ | sequence t _ | mapping t _ => t

def Node.isScalar : Node → Bool
  | scalar _ _ => true
  | sequence _ _ | mapping _ _ => false

/-- The state of reading nodes: the tokens that are left, the handles of tags, and the named nodes, those
still being read without content. -/
structure NodeReader where
  tokens : List Token
  handles : List (String × String) := []
  anchors : List (String × Option Node) := []

namespace NodeReader

/-- A reader of a part of a document. -/
abbrev Read (α : Type) := StateT NodeReader (Except Error) α

/-- The next token. Reading a fault raises its error. -/
def peek : Read Token := do
  match (← get).tokens with
  | [] => throw .malformed
  | .fault e :: _ => throw e
  | t :: _ => return t

def skip : Read Unit := modify fun r => { r with tokens := r.tokens.drop 1 }

/-- The handles every document knows. -/
def defaultHandles : List (String × String) := [("!", "!"), ("!!", coreTag "")]

/-- The full tag of a written one. -/
def fullTag (t : WrittenTag) : Read String := do
  match t.handle with
  | none => return t.suffix
  | some handle =>
    match (← get).handles.lookup handle with
    | none => throw .malformed
    | some start => return start ++ t.suffix

/-- What stands in front of the content of a node. -/
structure Properties where
  anchor : Option String := none
  tag : Option WrittenTag := none

/-- Reads an anchor and a tag, in any order, each at most once. -/
def properties : Read Properties := do
  match ← peek with
  | .anchor name =>
    skip
    match ← peek with
    | .tag t => skip; return ⟨some name, some t⟩
    | _ => return ⟨some name, none⟩
  | .tag t =>
    skip
    match ← peek with
    | .anchor name => skip; return ⟨some name, some t⟩
    | _ => return ⟨none, some t⟩
  | _ => return {}

/-- Names the node that is about to be read. -/
def openAnchor (anchor : Option String) : Read Unit := do
  match anchor with
  | none => return
  | some name =>
    -- A name is given once in a document.
    if ((← get).anchors.lookup name).isSome then throw .malformed
    modify fun r => { r with anchors := (name, none) :: r.anchors }

/-- Gives a named node its content. -/
def closeAnchor (anchor : Option String) (node : Node) : Read Node := do
  match anchor with
  | none => return node
  | some name =>
    modify fun r => { r with anchors := r.anchors.map fun (n, old) =>
      if n = name then (n, some node) else (n, old) }
    return node

def emptyNode : Node := .scalar (tagOfPlain []) []

/-- The tag of a scalar: its own, or one that follows from a plain text. -/
def scalarTag (tag : Option String) (plain : Bool) (text : List Char) : String :=
  match tag with
  | some "!" => tagOfPlain text
  | some t => t
  | none => if plain then tagOfPlain text else textTag

/-- The tag of a collection: its own, or the one of its kind. -/
def collectionTag (tag : Option String) (kind : String) : String :=
  match tag with
  | none | some "!" => kind
  | some t => t

/-- Where a node may stand, which decides how its content may be written. -/
inductive Place where
  | flow
  | block
  | mappingPart
  deriving DecidableEq

mutual

/-- Reads a node. Every call takes one unit of fuel. -/
def node : Nat → Place → Read Node
  | 0, _ => throw .malformed
  | fuel + 1, place => do
    match ← peek with
    | .alias name =>
      skip
      match (← get).anchors.lookup name with
      -- An alias inside the node that it names finds no content.
      | some (some n) => return n
      | _ => throw .malformed
    | _ =>
      let p ← properties
      let tag ← match p.tag with
        | none => pure none
        | some t => do pure (some (← fullTag t))
      let t ← peek
      openAnchor p.anchor
      match t, place with
      -- A list under a key needs no deeper indentation.
      | .blockEntry, .mappingPart =>
        closeAnchor p.anchor
          (.sequence (collectionTag tag sequenceTag) (← indentlessItems fuel))
      | .scalar text plain, _ =>
        skip
        closeAnchor p.anchor (.scalar (scalarTag tag plain text) text)
      | .flowSequenceStart, _ =>
        skip
        closeAnchor p.anchor
          (.sequence (collectionTag tag sequenceTag) (← flowItems fuel true))
      | .flowMappingStart, _ =>
        skip
        closeAnchor p.anchor
          (.mapping (collectionTag tag mappingTag) (← flowEntries fuel true))
      | .blockSequenceStart, .block | .blockSequenceStart, .mappingPart =>
        skip
        closeAnchor p.anchor
          (.sequence (collectionTag tag sequenceTag) (← blockItems fuel))
      | .blockMappingStart, .block | .blockMappingStart, .mappingPart =>
        skip
        closeAnchor p.anchor
          (.mapping (collectionTag tag mappingTag) (← blockEntries fuel))
      | _, _ =>
        -- A name or a tag alone makes an empty node.
        if p.anchor.isSome || p.tag.isSome then
          closeAnchor p.anchor (.scalar (scalarTag tag true []) [])
        else throw .malformed

/-- Reads the items of a block sequence and its end. -/
def blockItems : Nat → Read (List Node)
  | 0 => throw .malformed
  | fuel + 1 => do
    match ← peek with
    | .blockEntry =>
      skip
      let item ← match ← peek with
        | .blockEntry | .blockEnd => pure emptyNode
        | _ => node fuel .block
      return item :: (← blockItems fuel)
    | .blockEnd => skip; return []
    | _ => throw .malformed

/-- Reads the items of a sequence that is indented like the key before it. -/
def indentlessItems : Nat → Read (List Node)
  | 0 => throw .malformed
  | fuel + 1 => do
    match ← peek with
    | .blockEntry =>
      skip
      let item ← match ← peek with
        | .blockEntry | .key | .value | .blockEnd => pure emptyNode
        | _ => node fuel .block
      return item :: (← indentlessItems fuel)
    | _ => return []

/-- Reads a part of an entry of a block mapping, after its key or value token. -/
def blockPart : Nat → Read Node
  | 0 => throw .malformed
  | fuel + 1 => do
    match ← peek with
    | .key | .value | .blockEnd => return emptyNode
    | _ => node fuel .mappingPart

/-- Reads the entries of a block mapping and its end. -/
def blockEntries : Nat → Read (List (Node × Node))
  | 0 => throw .malformed
  | fuel + 1 => do
    match ← peek with
    | .blockEnd => skip; return []
    | .key =>
      skip
      let k ← blockPart fuel
      let v ← match ← peek with
        | .value => do skip; blockPart fuel
        | _ => pure emptyNode
      return (k, v) :: (← blockEntries fuel)
    | _ => throw .malformed

/-- Reads a comma between the members of a flow collection; none is due before the first. -/
def flowComma (first : Bool) : Read Unit := do
  if !first then
    match ← peek with
    | .flowEntry => skip
    | _ => throw .malformed

/-- Reads a part of an entry in a flow sequence. -/
def sequencePart : Nat → Read Node
  | 0 => throw .malformed
  | fuel + 1 => do
    match ← peek with
    | .value | .flowEntry | .flowSequenceEnd => return emptyNode
    | _ => node fuel .flow

/-- Reads the items of a flow sequence and its end. An item may be a single entry of a mapping. -/
def flowItems : Nat → Bool → Read (List Node)
  | 0, _ => throw .malformed
  | fuel + 1, first => do
    match ← peek with
    | .flowSequenceEnd => skip; return []
    | _ =>
      flowComma first
      match ← peek with
      | .flowSequenceEnd => skip; return []
      | .key =>
        skip
        let k ← sequencePart fuel
        let v ← match ← peek with
          | .value => do
            skip
            match ← peek with
            | .flowEntry | .flowSequenceEnd => pure emptyNode
            | _ => node fuel .flow
          | _ => pure emptyNode
        return .mapping mappingTag [(k, v)] :: (← flowItems fuel false)
      | _ =>
        let item ← node fuel .flow
        return item :: (← flowItems fuel false)

/-- Reads the value of an entry of a flow mapping, if it has one. -/
def flowValue : Nat → Read Node
  | 0 => throw .malformed
  | fuel + 1 => do
    match ← peek with
    | .value =>
      skip
      match ← peek with
      | .flowEntry | .flowMappingEnd => return emptyNode
      | _ => node fuel .flow
    | _ => return emptyNode

/-- Reads the entries of a flow mapping and its end. -/
def flowEntries : Nat → Bool → Read (List (Node × Node))
  | 0, _ => throw .malformed
  | fuel + 1, first => do
    match ← peek with
    | .flowMappingEnd => skip; return []
    | _ =>
      flowComma first
      match ← peek with
      | .flowMappingEnd => skip; return []
      | .key =>
        skip
        let k ← match ← peek with
          | .value | .flowEntry | .flowMappingEnd => pure emptyNode
          | _ => node fuel .flow
        let v ← flowValue fuel
        return (k, v) :: (← flowEntries fuel false)
      | _ =>
        let k ← node fuel .flow
        return (k, emptyNode) :: (← flowEntries fuel false)

end

/-- Passes the ends of documents. -/
def skipDocumentEnds : Nat → Read Unit
  | 0 => throw .malformed
  | fuel + 1 => do
    match ← peek with
    | .documentEnd => do skip; skipDocumentEnds fuel
    | _ => return

/-- Reads directives. `version` tells that one of a version was read. -/
def directives : Nat → Bool → Read Unit
  | 0, _ => throw .malformed
  | fuel + 1, version => do
    match ← peek with
    | .directive (.version major) =>
      if version || major ≠ 1 then throw .malformed
      skip
      directives fuel true
    | .directive (.tagHandle handle start) =>
      if ((← get).handles.lookup handle).isSome then throw .malformed
      modify fun r => { r with handles := (handle, start) :: r.handles }
      skip
      directives fuel version
    | .directive .other => do skip; directives fuel version
    | _ => return

/-- Reads the content of a document after its mark. -/
def content (fuel : Nat) : Read Node := do
  match ← peek with
  | .directive _ | .documentStart | .documentEnd | .streamEnd => return emptyNode
  | _ => node fuel .block

/-- Reads the only document of a text, if there is one. -/
def document (fuel : Nat) : Read (Option Node) := do
  let first ← match ← peek with
    | .directive _ | .documentStart | .streamEnd => do
      skipDocumentEnds fuel
      match ← peek with
      | .streamEnd => pure none
      | _ =>
        directives fuel false
        match ← peek with
        | .documentStart =>
          skip
          -- Handles of directives come before those that every document knows.
          modify fun r => { r with handles := r.handles ++ defaultHandles }
          pure (some (← content fuel))
        | _ => throw .malformed
    | _ =>
      modify fun r => { r with handles := defaultHandles }
      pure (some (← node fuel .block))
  skipDocumentEnds fuel
  match ← peek with
  | .streamEnd => return first
  | _ => throw .malformed

end NodeReader

/-- The node of the only document that tokens hold, none when they hold no document. -/
def Node.ofTokens (tokens : List Token) : Except Error (Option Node) :=
  ((NodeReader.document (4 * tokens.length + 4)).run { tokens }).map (·.1)

end FormatServer.Yaml
