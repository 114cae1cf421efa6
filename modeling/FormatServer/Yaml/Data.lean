import FormatServer.Yaml.Node
import FormatServer.Yaml.Scalar

/-!
The values of nodes. A mapping takes over the entries of mappings that it merges, its own entries
winning. Of several faults the one nearest to the root counts, and of those at one depth the first.
-/

namespace FormatServer.Yaml

/-- An error with the depth at which it arises. -/
structure Fault where
  depth : Nat
  error : Error

/-- An answer or a fault. -/
abbrev Built (α : Type) := Except Fault α

/-- Pairs two answers. Of two faults the nearer one counts, or the first. -/
def Built.pair {α β : Type} (x : Built α) (y : Built β) : Built (α × β) :=
  match x, y with
  | .ok a, .ok b => .ok (a, b)
  | .error f, .error g => .error (if g.depth < f.depth then g else f)
  | .error f, .ok _ => .error f
  | .ok _, .error g => .error g

def Built.list {α : Type} : List (Built α) → Built (List α)
  | [] => .ok []
  | x :: rest => (x.pair (Built.list rest)).map fun (a, as) => a :: as

namespace Node

/-- The text of a scalar, or of the default value of a mapping. -/
def scalarText? : Node → Option (List Char)
  | scalar _ text => some text
  | sequence _ _ => none
  | mapping _ entries => inEntries? entries
where
  /-- The text of the first default value. -/
  inEntries? : List (Node × Node) → Option (List Char)
    | [] => none
    | (k, v) :: rest => if k.tag = defaultTag then v.scalarText? else inEntries? rest

mutual

/-- A bound on the nesting of a node. -/
def height : Node → Nat
  | scalar _ _ => 0
  | sequence _ items => itemsHeight items + 1
  | mapping _ entries => entriesHeight entries + 1

def itemsHeight : List Node → Nat
  | [] => 0
  | n :: rest => max n.height (itemsHeight rest)

def entriesHeight : List (Node × Node) → Nat
  | [] => 0
  | (k, v) :: rest => max (max k.height v.height) (entriesHeight rest)

end

/-- A key as an entry of a mapping: the sign of a default value counts as text. -/
def asKey : Node → Node
  | scalar tag text => scalar (if tag = defaultTag then textTag else tag) text
  | sequence tag items => sequence (if tag = defaultTag then textTag else tag) items
  | mapping tag entries => mapping (if tag = defaultTag then textTag else tag) entries

mutual

/-- The entries that a mapping takes over, and its own; none when it merges what is no mapping. -/
def mergedParts? : List (Node × Node) → Option (List (Node × Node) × List (Node × Node))
  | [] => some ([], [])
  | (k, v) :: rest =>
    match mergedParts? rest with
    | none => none
    | some (taken, own) =>
      -- What is taken over stands in front, so that an own entry of the same key comes later.
      if k.tag = mergeTag then v.mergeSource?.map fun es => (es ++ taken, own)
      else some (taken, (k.asKey, v) :: own)

/-- The entries that a value of a merge key gives. Of several mappings the first wins. -/
def mergeSource? : Node → Option (List (Node × Node))
  | scalar _ _ => none
  | mapping _ entries => (mergedParts? entries).map fun (taken, own) => taken ++ own
  | sequence _ items => mergeItems? items

/-- The entries of mappings in a list, the last mapping first. -/
def mergeItems? : List Node → Option (List (Node × Node))
  | [] => some []
  | sequence _ _ :: _ => none
  | scalar _ _ :: _ => none
  | mapping _ entries :: rest =>
    match mergedParts? entries, mergeItems? rest with
    | some (taken, own), some more => some (more ++ (taken ++ own))
    | _, _ => none

end

/-- All entries of a mapping, those it takes over first. -/
def allEntries? (entries : List (Node × Node)) : Option (List (Node × Node)) :=
  (mergedParts? entries).map fun (taken, own) => taken ++ own

/-- Puts entries into a mapping, the last of a key winning. -/
def toMap (entries : List (Value × Value)) : List (Value × Value) :=
  entries.foldl (fun found (k, v) => Value.insert k v found) []

/-- Refuses keys that are collections. -/
def checkKey (depth : Nat) (k : Node) (key : Built Value) : Built Value :=
  match k, key with
  | scalar _ _, key => key
  | _, .ok v => if v.isKey then .ok v else .error ⟨depth, .malformed⟩
  | _, .error f => if f.depth ≤ depth then .error f else .error ⟨depth, .malformed⟩

mutual

/-- The value of a node that its parent meets at a depth. The fuel bounds the nesting. -/
def build : Nat → Nat → Node → Built Value
  | 0, depth, _ => .error ⟨depth, .malformed⟩
  | fuel + 1, depth, n =>
    match scalarReader? n.tag with
    | some read =>
      match n.scalarText? with
      | none => .error ⟨depth, .malformed⟩
      | some text =>
        -- Only a point in time is read from the node itself and not from its text.
        if n.tag = coreTag "timestamp" ∧ !n.isScalar then .error ⟨depth, .mappedTimestamp⟩
        else (read text).mapError (⟨depth, ·⟩)
    -- A collection is filled after its parent, so its faults lie deeper.
    | none =>
      let inner := depth + 1
      let refused : Built Value := .error ⟨inner, .malformed⟩
      if n.tag = sequenceTag then
        match n with
        | sequence _ items => (Built.list (items.map (build fuel inner))).map .list
        | _ => refused
      else if n.tag = mappingTag then
        match n with
        | mapping _ entries => (buildEntries fuel inner entries).map .map
        | _ => refused
      else if n.tag = coreTag "set" then
        match n with
        | mapping _ entries =>
          (buildEntries fuel inner entries).map fun es => .set (es.map (·.1))
        | _ => refused
      else if n.tag = coreTag "omap" ∨ n.tag = coreTag "pairs" then
        match n with
        | sequence _ items => (Built.list (items.map (buildPair fuel inner))).map .list
        | _ => refused
      else .error ⟨depth, .malformed⟩

def buildEntries : Nat → Nat → List (Node × Node) → Built (List (Value × Value))
  | 0, depth, _ => .error ⟨depth, .malformed⟩
  | fuel + 1, depth, entries =>
    match allEntries? entries with
    | none => .error ⟨depth, .malformed⟩
    | some all =>
      (Built.list (all.map fun (k, v) =>
        (checkKey depth k (build fuel depth k)).pair (build fuel depth v))).map toMap

/-- The pair that a mapping of one entry stands for. -/
def buildPair : Nat → Nat → Node → Built Value
  | 0, depth, _ => .error ⟨depth, .malformed⟩
  | fuel + 1, depth, n =>
    match n with
    | mapping _ [(k, v)] =>
      ((build fuel depth k).pair (build fuel depth v)).map fun (a, b) => .pair a b
    | _ => .error ⟨depth, .malformed⟩

end

/-- The value of a node. -/
def value (n : Node) : Except Error Value :=
  (build (2 * n.height + 2) 0 n).mapError (·.error)

end Node

/-- A character that a YAML text may hold. -/
def isAllowed (c : Char) : Bool :=
  let n := c.toNat
  n = 0x9 || n = 0xA || n = 0xD || (0x20 ≤ n && n ≤ 0x7E) || n = 0x85 ||
    (0xA0 ≤ n && n ≤ 0xFFFD) || 0x10000 ≤ n

/-- The value of a YAML text, null when it holds no document. -/
def read (text : List Char) : Except Error Value :=
  if text.all isAllowed then do
    match ← Node.ofTokens (Token.ofText text) with
    | none => return .null
    | some n => n.value
  else .error .malformed

end FormatServer.Yaml
