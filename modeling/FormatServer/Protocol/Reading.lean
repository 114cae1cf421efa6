import FormatServer.Protocol.Parameters
import FormatServer.Protocol.ResponseError

/-!
From the text of a message to the message. A message of a method that the protocol has may have more fields
than it needs; any other message has the fields of its form and no more.
-/

namespace FormatServer.Incoming

/-- Every key of a message is one of some fields. -/
def hasOnly (fields : List String) : Value → Bool
  | .map entries => entries.all fun (k, _) => (k.text?.map fields.contains).getD false
  | _ => false

/-- A message of a method that the protocol does not have is a message all the same: it has a method and
parameters, and nothing else that the protocol does not give to messages. -/
def isPlain (v : Value) : Bool :=
  hasOnly ["jsonrpc", "id", "method", "params"] v && (v.field? "params").isSome

/-- Reads a message with a method, with an identifier or without one. -/
def ofMethod (v : Value) (id : Option Value) (method : String) : Except MessageFault Incoming :=
  let p := v.field? "params"
  let id? := id.bind RequestId.ofValue?
  match Parameters.call? method p, Parameters.notice? method p with
  | some c, _ =>
    match id?, c with
    | some id, some c => .ok (.call id c)
    | _, _ => .error .parameters
  | none, some (some n) => .ok (.notice n)
  | none, some none => .error .parameters
  | none, none =>
    if !isPlain v then .error .internal
    else match id, id? with
      | none, _ => .ok (.notice .other)
      | some _, some id => .ok (.call id (.other method))
      | some _, none => .error .parameters

/-- Checks an answer to something that was not asked. -/
def checkAnswer (v : Value) : Except MessageFault Incoming :=
  if hasOnly ["jsonrpc", "id", "result"] v && (v.field? "result").isSome then .ok .ignored
  else .error .internal

/-- Checks an error that answers something that was not asked. -/
def checkError (error : Value) : Except MessageFault Incoming :=
  match error with
  | .null => .ok .ignored
  | e => if (ResponseError.ofValue? e).isSome then .ok .ignored else .error .parameters

def ofValue (v : Value) : Except MessageFault Incoming := do
  match v.field? "jsonrpc" with
  | none => throw (.shape v.kind)
  | some version =>
    let message ← match v.field? "id", v.field? "error", v.field? "method" with
      -- The field that decides the form: an error, a method, or neither.
      | some _, some error, _ => checkError error
      | some id, none, some method => ofMethod v (some id) method.asText
      | some _, none, none => checkAnswer v
      | none, _, some method => ofMethod v none method.asText
      | none, _, none => throw .internal
    return if version.asText = "2.0" then message else .ignored

def ofText (text : List Char) : Except MessageFault Incoming := do
  ofValue (← (Json.read text).mapError .json)

end FormatServer.Incoming
