import FormatServer.Number.Written
import FormatServer.Text.Quoted
import FormatServer.Value.Basic

/-!
The text of a value in a message: quoted texts, numbers in full, lists in square brackets, mappings
in braces, and calls of a constructor for dates.
-/

namespace FormatServer

def joined (separator : String) : List String → String
  | [] => ""
  | [s] => s
  | s :: rest => s ++ separator ++ joined separator rest

/-- A span of time in seconds, as whole days and the seconds that remain. -/
def shownSpan (seconds : Int) : String :=
  let days := Int.fdiv seconds 86400
  let rest := Int.fmod seconds 86400
  let parts :=
    (if days = 0 then [] else ["days=" ++ writtenInt days]) ++
    (if rest = 0 then [] else ["seconds=" ++ writtenInt rest])
  "datetime.timedelta(" ++ (if parts.isEmpty then "0" else joined ", " parts) ++ ")"

def Date.shown (d : Date) : String :=
  "datetime.date(" ++ joined ", " ([d.year, d.month, d.day].map toString) ++ ")"

/-- A point in time; seconds and parts of a second are left out when they are zero. -/
def DateTime.shown (t : DateTime) : String :=
  let small :=
    if t.microsecond ≠ 0 then [t.second, t.microsecond]
    else if t.second ≠ 0 then [t.second]
    else []
  let numbers := ([t.year, t.month, t.day, t.hour, t.minute] ++ small).map toString
  let zone := match t.offset with
    | none => []
    | some 0 => ["tzinfo=datetime.timezone.utc"]
    | some seconds => ["tzinfo=datetime.timezone(" ++ shownSpan seconds ++ ")"]
  "datetime.datetime(" ++ joined ", " (numbers ++ zone) ++ ")"

namespace Value

mutual

/-- The text of a value in a message. -/
def shown : Value → String
  | null => "None"
  | bool true => "True"
  | bool false => "False"
  | int i => writtenInt i
  | float x => x.written
  | text s => Text.quoted s
  | list items => "[" ++ joined ", " (shownItems items) ++ "]"
  | map entries => "\x7b" ++ joined ", " (shownEntries entries) ++ "\x7d"
  | bytes bs => Text.quotedBytes bs
  | date d => d.shown
  | dateTime t => t.shown
  | set members =>
    if members.isEmpty then "set()" else "\x7b" ++ joined ", " (shownItems members) ++ "\x7d"
  | pair a b => "(" ++ a.shown ++ ", " ++ b.shown ++ ")"

def shownItems : List Value → List String
  | [] => []
  | v :: rest => v.shown :: shownItems rest

def shownEntries : List (Value × Value) → List String
  | [] => []
  | (k, v) :: rest => (k.shown ++ ": " ++ v.shown) :: shownEntries rest

end

/-- The most decimal digits of an integer in a message. -/
def digitLimit : Nat := 4300

mutual

/-- The value holds an integer with too many digits for a message. -/
def isOversize : Value → Bool
  | int i => 10 ^ digitLimit ≤ i.natAbs
  | list items => anyOversize items
  | map entries => anyEntryOversize entries
  | set members => anyOversize members
  | pair a b => a.isOversize || b.isOversize
  | _ => false

def anyOversize : List Value → Bool
  | [] => false
  | v :: rest => v.isOversize || anyOversize rest

def anyEntryOversize : List (Value × Value) → Bool
  | [] => false
  | (k, v) :: rest => k.isOversize || v.isOversize || anyEntryOversize rest

end

end Value

end FormatServer
