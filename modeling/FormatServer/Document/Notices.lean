import FormatServer.Document.Store
import FormatServer.Formatter.Error

/-!
What a client tells of its documents, one notice after another, and what is looked up in between. A notice that does
not apply is refused and changes nothing; a document that is not open is refused by the URI that was asked for.
-/

namespace FormatServer

/-- What a client tells of a document. -/
inductive DocumentNotice where
  | opened (document : Document)
  /-- its whole text is another one -/
  | changed (uri : String) (version : Int) (text : String)
  | closed (uri : String)
  deriving DecidableEq, Repr

/-- Why a notice does not apply. -/
inductive NoticeFault where
  | uri (cause : Uri.Error)
  /-- no document is open under this decoded URI -/
  | notOpen (key : String)
  deriving DecidableEq, Repr

namespace NoticeFault

def kind : NoticeFault → String
  | uri _ => "ValueError"
  | notOpen _ => "KeyError"

def message : NoticeFault → String
  | uri cause => cause.message
  | notOpen key => Text.quoted key

end NoticeFault

namespace DocumentStore

def apply (store : DocumentStore) : DocumentNotice → Except NoticeFault DocumentStore
  | .opened d => (store.openDocument d).mapError .uri
  | .changed uri version text =>
    match store.change? uri version text with
    | some store => .ok store
    | none => .error (.notOpen (Uri.decode uri))
  | .closed uri => .ok (store.close uri)

/-- The store after a notice. One that fails leaves it as it was. -/
def perform (store : DocumentStore) (n : DocumentNotice) : DocumentStore :=
  (store.apply n).toOption.getD store

/-- The store after notices, one after another. -/
def run (store : DocumentStore) (notices : List DocumentNotice) : DocumentStore :=
  notices.foldl perform store

def get (store : DocumentStore) (uri : String) : Except FormatError Document :=
  match store.find? uri with
  | some d => .ok d
  | none => .error (.documentNotFound uri)

/-- The text of a document, or of a range of it. -/
def getText (store : DocumentStore) (e : Text.Encoding) (uri : String) (range : Option TextRange) :
    Except FormatError String :=
  (store.get uri).map fun d => String.ofList (d.textIn e range)

/-- A value is a URI of an open document. -/
def holds (store : DocumentStore) : Value → Bool
  | .text uri => store.contains uri
  | _ => false

end DocumentStore

end FormatServer
