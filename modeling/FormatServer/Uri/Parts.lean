import FormatServer.Uri.Host

/-!
The parts of a URI reference: scheme, authority, path. Query, fragment and the parameters of the last
segment are cut off. Controls and spaces in front do not count, and tabs and line breaks count nowhere.
-/

namespace FormatServer

open Text

/-- The scheme, authority and path of a URI. -/
structure Uri where
  scheme : List Char
  authority : List Char
  path : List Char
  deriving DecidableEq, Repr

namespace Uri

/-- Why a text is no URI. -/
inductive Error where
  | brackets
  | host (cause : HostError)
  | compatibility (authority : List Char)
  deriving DecidableEq, Repr

def Error.message : Error → String
  | brackets => "Invalid IPv6 URL"
  | host cause => cause.message
  | compatibility authority =>
    "netloc '" ++ String.ofList authority ++
      "' contains invalid characters under NFKC normalization"

/-- A text without the controls and spaces in front, and without tabs and line breaks. -/
def cleaned (cs : List Char) : List Char :=
  (cs.dropWhile (·.toNat ≤ 0x20)).filter fun c => c ≠ '\t' && c ≠ '\r' && c ≠ '\n'

def isSchemeChar (c : Char) : Bool := c.isAlphanum || c = '+' || c = '-' || c = '.'

/-- Cuts the scheme off, in lower case. -/
def takeScheme (cs : List Char) : List Char × List Char :=
  match cutAt ':' cs with
  | (c :: name, some rest) =>
    if c.isAlpha && (c :: name).all isSchemeChar then ((c :: name).map Char.toLower, rest)
    else ([], cs)
  | _ => ([], cs)

/-- Cuts the authority off: what stands between two slashes and the next slash, question mark or number
sign. -/
def takeAuthority : List Char → List Char × List Char
  | '/' :: '/' :: rest => rest.span fun c => c ≠ '/' && c ≠ '?' && c ≠ '#'
  | cs => ([], cs)

/-- Characters whose compatibility form holds a character that ends an authority. -/
def compatibilityCodes : List Nat :=
  [0x2047, 0x2048, 0x2049, 0x2100, 0x2101, 0x2105, 0x2106, 0x2A74, 0xFE13, 0xFE16, 0xFE55, 0xFE56,
   0xFE5F, 0xFE6B, 0xFF03, 0xFF0F, 0xFF1A, 0xFF1F, 0xFF20]

/-- Checks the brackets of an authority. -/
def checkBrackets (authority : List Char) : Except Error Unit :=
  match authority.contains '[', authority.contains ']' with
  | false, false => .ok ()
  | true, true =>
    let inner := ((cutAt '[' authority).2).getD []
    (checkHost (cutAt ']' inner).1).mapError .host
  | _, _ => .error .brackets

/-- Checks the characters of an authority. -/
def checkCharacters (authority : List Char) : Except Error Unit :=
  if authority.any fun c => compatibilityCodes.contains c.toNat then
    .error (.compatibility authority)
  else .ok ()

/-- Schemes whose paths may end with parameters. -/
def parameterSchemes : List String :=
  ["", "ftp", "hdl", "prospero", "http", "imap", "https", "shttp", "rtsp", "rtsps", "rtspu", "sip",
   "sips", "mms", "sftp", "tel"]

/-- A path without the parameters of its last segment. -/
def dropParameters (path : List Char) : List Char :=
  let last := (path.reverse.takeWhile (· ≠ '/')).reverse
  path.take (path.length - last.length) ++ (cutAt ';' last).1

def parse (text : List Char) : Except Error Uri := do
  let (scheme, afterScheme) := takeScheme (cleaned text)
  let (authority, afterAuthority) := takeAuthority afterScheme
  -- The brackets are looked at before the characters.
  checkBrackets authority
  checkCharacters authority
  let path := (cutAt '?' (cutAt '#' afterAuthority).1).1
  let path := if parameterSchemes.contains (String.ofList scheme) then dropParameters path else path
  return { scheme, authority, path }

/-- The path of a URI, percent-decoded. -/
def decodedPath (uri : Uri) : List Char := decodeChars uri.path

/-- A path that starts with a slash, a letter and a colon. -/
def startsWithDrive : List Char → Bool
  | '/' :: c :: ':' :: _ => c.isAlpha
  | _ => false

/-- The path of a file that a URI of the scheme `file` names. A drive's letter is written small. -/
def filePath? (uri : Uri) : Option (List Char) :=
  if uri.scheme ≠ "file".toList then none
  else
    let authority := decodeChars uri.authority
    let path := uri.decodedPath
    if !authority.isEmpty && !path.isEmpty then some ('/' :: '/' :: authority ++ path)
    else if startsWithDrive path then
      match path with
      | _ :: c :: rest => some (c.toLower :: rest)
      | _ => some path
    else some path

end Uri

end FormatServer
