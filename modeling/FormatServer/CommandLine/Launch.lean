import FormatServer.CommandLine.Choices
import FormatServer.Protocol.Outgoing

/-!
What comes of a command line: a text and an exit code, or a server that is started over the standard
streams or over TCP. Faults are told with the usage, and the exit code is two.
-/

namespace FormatServer.CommandLine

def textOf (lines : List String) : String := String.join (lines.map (· ++ "\n"))

def usageText : String := textOf [
  "usage: fmtbridge [-h] [--formatter FORMATTER] [--timeout TIMEOUT] [--tcp]",
  "                 [--host HOST] [--port PORT] [--version]"]

def helpText : String := usageText ++ textOf [
  "",
  "Language server that formats documents with an external command.",
  "",
  "options:",
  "  -h, --help            show this help message and exit",
  "  --formatter FORMATTER",
  "                        Formatter command; the temporary file path is appended",
  "                        (default: $FMTBRIDGE_FORMATTER)",
  "  --timeout TIMEOUT     Seconds to wait for the formatter before giving up",
  "  --tcp                 Serve over TCP instead of stdio",
  "  --host HOST           TCP host (default: 127.0.0.1)",
  "  --port PORT           TCP port (default: 2087)",
  "  --version             show program's version number and exit"]

inductive Transport where
  | streams
  | tcp (host : Given String) (port : Given Int)
  deriving DecidableEq, Repr

/-- What comes of a command line. -/
inductive Launch where
  /-- the program ends with a code, after writing to its output and its error output -/
  | exit (code : Nat) (out err : String)
  /-- a server is started with these settings -/
  | serve (transport : Transport) (overrides : Value) (settings : Settings)
  /-- the program breaks off -/
  | breakOff (kind text : String)

/-- The end after a fault. -/
def Fault.launch (f : Fault) : Launch :=
  .exit 2 "" (usageText ++ textOf ["fmtbridge: error: " ++ f.message])

/-- The end of a reading that was cut short. -/
def Halt.launch : Halt → Launch
  | .help => .exit 0 helpText ""
  | .version => .exit 0 (textOf [serverName ++ " " ++ serverVersion]) ""
  | .fault f => f.launch

namespace Choices

/-- The layer of settings that a command line stands for. An empty command counts as none. -/
def overrides (c : Choices) : Value :=
  let command := match c.formatter with
    | some (.value line) => if line.isEmpty then [] else [(.text "command", .text line)]
    | some .nothing | none => []
  let timeout := match c.timeout with
    | some (.value x) => [(.text "timeout", .float x)]
    | some .nothing => [(.text "timeout", .list [])]
    | none => []
  .map (command ++ timeout)

def transport (c : Choices) : Transport := if c.tcp then .tcp c.host c.port else .streams

/-- Starts a server, unless the settings are refused. -/
def launch (c : Choices) : Launch :=
  match Settings.merged {} c.overrides with
  | .ok settings => .serve c.transport c.overrides settings
  | .error e => if e.isRefusal then (Fault.settings e.message).launch else .breakOff e.kind e.message

end Choices

/-- What comes of a command line. -/
def launch (environment : Option String) (words : List String) : Launch :=
  match read environment words with
  | .ok choices => choices.launch
  | .error h => h.launch

end FormatServer.CommandLine
