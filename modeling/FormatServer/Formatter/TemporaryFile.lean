import FormatServer.Path
import FormatServer.Settings.Basic
import FormatServer.Uri.Parts

/-!
The path of a temporary file: a name from the settings' start of names, a token and an extension, below
the directory for temporary files. The extension is the document's own, or the default one.
-/

namespace FormatServer

/-- The name of a temporary file. -/
def temporaryName (s : Settings) (token : String) (uri : Uri) : List Char :=
  let own := (Path.ofChars uri.decodedPath).extension
  s.tempPrefix.toList ++ '-' :: token.toList ++
    (if own.isEmpty then s.defaultExtension.toList else own)

def temporaryPath (directory : Path) (s : Settings) (token uri : String) : Except Uri.Error Path := do
  return directory.append (.ofChars (temporaryName s token (← Uri.parse uri.toList)))

/-- A token that no other number has: digits in groups of 8, 4, 4, 4 and 12. -/
def tokenOf (n : Nat) : String :=
  "00000000-0000-4000-8000-" ++ String.ofList (Text.hexadecimal 12 n)

end FormatServer
