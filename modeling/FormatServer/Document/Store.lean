import FormatServer.Document.Position
import FormatServer.Uri.Parts

/-!
The open documents. They are found by their percent-decoded URI, so all spellings of a URI name the same
document.
-/

namespace FormatServer

structure Document where
  /-- the URI as it was given -/
  uri : String
  language : String
  version : Int
  text : String
  deriving DecidableEq, Repr

/-- The open documents by their percent-decoded URIs. -/
structure DocumentStore where
  entries : List (String × Document) := []
  deriving DecidableEq, Repr

namespace DocumentStore

def find? (store : DocumentStore) (uri : String) : Option Document :=
  store.entries.lookup (Uri.decode uri)

def contains (store : DocumentStore) (uri : String) : Bool := (store.find? uri).isSome

def size (store : DocumentStore) : Nat := store.entries.length

/-- Puts a document in the place of a key, or at the end. -/
def put (key : String) (d : Document) : List (String × Document) → List (String × Document)
  | [] => [(key, d)]
  | (k, old) :: rest => if k = key then (k, d) :: rest else (k, old) :: put key d rest

/-- Opens a document, in the place of one that is open under the same decoded URI. -/
def openDocument (store : DocumentStore) (d : Document) : Except Uri.Error DocumentStore := do
  let _ ← Uri.parse d.uri.toList
  return ⟨put (Uri.decode d.uri) d store.entries⟩

/-- Replaces the text and the version of an open document; none when it is not open. -/
def change? (store : DocumentStore) (uri : String) (version : Int) (text : String) :
    Option DocumentStore :=
  (store.find? uri).map fun d => ⟨put (Uri.decode uri) { d with version, text } store.entries⟩

def close (store : DocumentStore) (uri : String) : DocumentStore :=
  ⟨store.entries.filter (·.1 ≠ Uri.decode uri)⟩

end DocumentStore

namespace Document

def textIn (d : Document) (e : Text.Encoding) : Option TextRange → List Char
  | none => d.text.toList
  | some r => FormatServer.textIn e d.text.toList r

def fullRange (d : Document) (e : Text.Encoding) : TextRange :=
  ⟨⟨0, 0⟩, endPosition e d.text.toList⟩

end Document

end FormatServer
