import FormatServer.Protocol.Field

/-!
Why a request has no result: a code, a text, and data that may come with it.
-/

namespace FormatServer

/-- Why a request has no result. -/
structure ResponseError where
  code : Int
  text : String
  data : Option Value := none
  deriving Repr

namespace ResponseError

/-- A request of an unknown method. -/
def methodNotFound (method : String) : ResponseError := ⟨-32601, "Method Not Found: " ++ method, none⟩

/-- A request for a command, none of which exists. -/
def noCommand (name : String) : ResponseError :=
  ⟨-32602, "Invalid Params: Command name '" ++ name ++ "' is not defined", none⟩

/-- A failure that the server did not foresee, of a kind and with a text. -/
def unforeseen (kind text : String) : ResponseError :=
  ⟨-32603, kind ++ ": " ++ text, some (.map [(.text "traceback", .list [])])⟩

/-- The texts of codes, for errors that come without a text. -/
def standardTexts : List (Int × String) :=
  [(-32700, "Parse Error"), (-32600, "Invalid Request"), (-32601, "Method Not Found"),
   (-32602, "Invalid Params"), (-32603, "Internal Error"), (-32800, "Request Cancelled"),
   (-32801, "Content Modified")]

/-- Reads an error that a client answered with. One without a text gets the text of its code. -/
def ofValue? (v : Value) : Option ResponseError := do
  let code ← v.intField? "code"
  let text ← v.textField? "message"
  return {
    code
    text := if text.isEmpty then (standardTexts.lookup code).getD "" else text
    data := v.optional "data" }

end ResponseError

end FormatServer
