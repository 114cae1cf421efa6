import FormatServer.Number.Written
import FormatServer.Text.Blank
import FormatServer.Value.Shown

/-!
Errors that end a formatting request, with the code and the text of the answer.
-/

namespace FormatServer

/-- Why a formatting request has no edits. -/
inductive FormatError where
  /-- any other failure of a request -/
  | general (text : String)
  /-- the document is not open -/
  | documentNotFound (uri : String)
  /-- the client's settings for the document cannot be used -/
  | invalidSettings (uri : String) (reason : String)
  /-- the temporary file cannot be written or read back -/
  | temporaryFile (path : String) (reason : String)
  /-- the formatter cannot be started -/
  | spawn (command : List String) (reason : String)
  /-- the formatter ended with an exit code other than zero -/
  | failed (exitCode : Int) (stderr : String)
  /-- the formatter did not end in time -/
  | timeout (seconds : Binary64)
  deriving DecidableEq, Repr

namespace FormatError

/-- The code of the answer. -/
def code : FormatError → Int
  | documentNotFound _ => -32602
  | _ => -32803

def message : FormatError → String
  | general text => text
  | documentNotFound uri => "Document not open: " ++ uri
  | invalidSettings uri reason => "Invalid formatter settings for " ++ uri ++ ": " ++ reason
  | temporaryFile path reason => "Temporary file error for " ++ path ++ ": " ++ reason
  | spawn command reason =>
    let shown := if command.isEmpty then "<no formatter configured>" else joined " " command
    "Could not start formatter " ++ shown ++ ": " ++ reason
  | failed exitCode stderr =>
    let text := String.ofList (Text.strip stderr.toList)
    "Formatter exited with code " ++ writtenInt exitCode ++
      (if text.isEmpty then "" else ": " ++ text)
  | timeout seconds => "Formatter did not finish within " ++ seconds.brief ++ "s"

end FormatError

end FormatServer
