import FormatServer.Disk
import FormatServer.Settings.Layer
import FormatServer.Text.Utf8
import FormatServer.Yaml.Data

/-!
The settings file of a workspace: a mapping in YAML. No file, or one that holds nothing, stands for the
empty mapping.
-/

namespace FormatServer

/-- The name of the settings file in the root of a workspace. -/
def settingsFileName : String := ".fmtbridge.yml"

/-- Why a settings file gives no layer. -/
inductive SettingsFileError where
  | decode (cause : Text.Utf8.DecodeError)
  | yaml (cause : Yaml.Error)
  | notMapping (path : String)
  | disk (cause : DiskError) (path : Path)

namespace SettingsFileError

def message : SettingsFileError → String
  | decode cause => cause.message
  | yaml cause => cause.message
  | notMapping path => path ++ " must contain a mapping"
  | disk cause path => cause.message path

def kind : SettingsFileError → String
  | decode _ => "UnicodeDecodeError"
  | yaml cause => cause.kind
  | notMapping _ => "ValueError"
  | disk _ _ => "OSError"

/-- The error is one that is reported and gone on from. -/
def isRefusal : SettingsFileError → Bool
  | yaml cause => cause.isRefusal
  | _ => true

end SettingsFileError

/-- A text whose line breaks are all single line feeds. -/
def plainBreaks : List Char → List Char
  | [] => []
  | '\r' :: '\n' :: rest => '\n' :: plainBreaks rest
  | c :: rest => (if c = '\r' then '\n' else c) :: plainBreaks rest

/-- The path of the settings file of a workspace. -/
def settingsFilePath (root : Path) : Path := root.append (.ofString settingsFileName)

/-- Reads the layer that a settings file holds. -/
def readSettingsFile (path : Path) : Option FileEntry → Except SettingsFileError Value
  | none | some .directory => .ok (.map [])
  | some (.file content) => do
    let text ← (Text.Utf8.decode content).mapError .decode
    match ← (Yaml.read (plainBreaks text)).mapError .yaml with
    | .null => return .map []
    | .map entries => return .map entries
    | _ => throw (.notMapping path.toString)

/-- Reads the layer that the settings file of a workspace holds. A file that cannot be reached is none, but
for a path that is too long to look for. -/
def loadSettings (d : Disk) (root : Path) : Except SettingsFileError Value :=
  let path := settingsFilePath root
  match d.locate path with
  | .ok place => readSettingsFile path (d.find? place)
  | .error .nameTooLong => .error (.disk .nameTooLong path)
  | .error _ => .ok (.map [])

end FormatServer
