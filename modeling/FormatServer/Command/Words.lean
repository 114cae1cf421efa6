/-!
Splitting a command line into words. Blanks separate words; single quotes keep all they enclose;
double quotes keep all but a backslash in front of a double quote or a backslash; a backslash outside
quotes keeps the character after it.
-/

namespace FormatServer.Command

/-- Why a command line has no words. -/
inductive SplitError where
  | openQuote
  | danglingEscape
  deriving DecidableEq, Repr

def SplitError.message : SplitError → String
  | openQuote => "No closing quotation"
  | danglingEscape => "No escaped character"

/-- What separates words: space, tab, carriage return, line feed. -/
def isSeparator (c : Char) : Bool := c = ' ' || c = '\t' || c = '\r' || c = '\n'

/-- Where in a command line a reader stands. -/
inductive Place where
  /-- between words -/
  | between
  /-- in a word, outside quotes -/
  | bare
  /-- after a backslash outside quotes -/
  | bareEscape
  /-- between single quotes -/
  | single
  /-- between double quotes -/
  | double
  /-- after a backslash between double quotes -/
  | doubleEscape
  deriving DecidableEq, Repr

/-- Reads on from a place. `word` holds the characters of the word so far, last first. -/
def splitFrom : Place → List Char → List Char → Except SplitError (List (List Char))
  | .between, _, [] => .ok []
  | .bare, word, [] => .ok [word.reverse]
  | .single, _, [] | .double, _, [] => .error .openQuote
  | .bareEscape, _, [] | .doubleEscape, _, [] => .error .danglingEscape
  | .between, word, c :: rest =>
    if isSeparator c then splitFrom .between word rest
    else if c = '\'' then splitFrom .single word rest
    else if c = '"' then splitFrom .double word rest
    else if c = '\\' then splitFrom .bareEscape word rest
    else splitFrom .bare (c :: word) rest
  | .bare, word, c :: rest =>
    if isSeparator c then (splitFrom .between [] rest).map (word.reverse :: ·)
    else if c = '\'' then splitFrom .single word rest
    else if c = '"' then splitFrom .double word rest
    else if c = '\\' then splitFrom .bareEscape word rest
    else splitFrom .bare (c :: word) rest
  | .bareEscape, word, c :: rest => splitFrom .bare (c :: word) rest
  | .single, word, c :: rest =>
    if c = '\'' then splitFrom .bare word rest else splitFrom .single (c :: word) rest
  | .double, word, c :: rest =>
    if c = '"' then splitFrom .bare word rest
    else if c = '\\' then splitFrom .doubleEscape word rest
    else splitFrom .double (c :: word) rest
  | .doubleEscape, word, c :: rest =>
    if c = '"' ∨ c = '\\' then splitFrom .double (c :: word) rest
    else splitFrom .double (c :: '\\' :: word) rest

/-- The words of a command line. -/
def split (line : List Char) : Except SplitError (List (List Char)) := splitFrom .between [] line

/-- The words of a command line. -/
def words (line : String) : Except SplitError (List String) :=
  (split line.toList).map (·.map String.ofList)

end FormatServer.Command
