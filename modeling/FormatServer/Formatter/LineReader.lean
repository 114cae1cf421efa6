import FormatServer.Text.Blank
import FormatServer.Text.Utf8

/-!
Reading lines from chunks of bytes. A line that is too long ends the reading; what came before it is
read, what comes after it is not.
-/

namespace FormatServer

/-- The most bytes of a line before its line feed. -/
def lineLimit : Nat := 65536

/-- A line that is too long: its line feed has arrived, or has not. -/
inductive Overrun where
  | terminated
  | unterminated
  deriving DecidableEq, Repr

def Overrun.message : Overrun → String
  | terminated => "Separator is found, but chunk is longer than limit"
  | unterminated => "Separator is not found, and chunk exceed the limit"

/-- A reader of lines: the bytes since the last line feed, and whether a line was too long. -/
structure LineReader where
  pending : List UInt8 := []
  stopped : Bool := false
  deriving DecidableEq, Repr

/-- Cuts bytes after every line feed: the lines with their line feeds, and the rest. -/
def cutBytes : List UInt8 → List (List UInt8) × List UInt8
  | [] => ([], [])
  | b :: rest =>
    let (lines, tail) := cutBytes rest
    if b = 0x0A then ([b] :: lines, tail)
    else match lines with
      | [] => ([], b :: tail)
      | line :: more => ((b :: line) :: more, tail)

/-- Cutting loses nothing. -/
theorem flatten_cutBytes (bytes : List UInt8) :
    (cutBytes bytes).1.flatten ++ (cutBytes bytes).2 = bytes := by
  induction bytes with
  | nil => rfl
  | cons b rest ih =>
    simp only [cutBytes]
    split
    · simp_all
    · split <;> simp_all

namespace LineReader

/-- A line is within the limit. -/
def fits (line : List UInt8) : Bool := line.length ≤ lineLimit + 1

/-- What a chunk completes: lines, and an overrun if one was met. -/
structure Feed where
  reader : LineReader
  lines : List (List UInt8)
  overrun : Option Overrun

def feed (r : LineReader) (chunk : List UInt8) : Feed :=
  if r.stopped then ⟨r, [], none⟩
  else
    let (lines, tail) := cutBytes (r.pending ++ chunk)
    let good := lines.takeWhile fits
    if good.length < lines.length then ⟨⟨[], true⟩, good, some .terminated⟩
    else if lineLimit < tail.length then ⟨⟨[], true⟩, good, some .unterminated⟩
    else ⟨⟨tail, false⟩, good, none⟩

/-- Takes the end of the stream: the line that is left, if it is not empty. -/
def finish (r : LineReader) : LineReader × List (List UInt8) :=
  if r.stopped || r.pending.isEmpty then (r, []) else (⟨[], r.stopped⟩, [r.pending])

end LineReader

/-- The text of a line in a log entry: without the blanks it ends with. -/
def loggedLine (line : List UInt8) : String :=
  String.ofList (Text.stripEnd (Text.Utf8.decodeLossy line))

end FormatServer
