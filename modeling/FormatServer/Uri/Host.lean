import FormatServer.Text.Pieces
import FormatServer.Text.Quoted
import FormatServer.Uri.Percent

/-!
Addresses between square brackets in the host part of a URI: numeric addresses of the sixth version of
the Internet Protocol, and those of later versions, which start with a `v`.
-/

namespace FormatServer.Uri

open Text

/-- Why the text between brackets is no address. -/
inductive HostError where
  | laterVersion
  | fourthVersion
  | noAddress (text : List Char)
  deriving DecidableEq, Repr

def HostError.message : HostError → String
  | laterVersion => "IPvFuture address is invalid"
  | fourthVersion => "An IPv4 address cannot be in brackets"
  | noAddress text =>
    String.ofList (quotedChars text) ++ " does not appear to be an IPv4 or IPv6 address"

/-- One number of an address of the fourth version: up to 255, without a zero in front. -/
def isOctet (cs : List Char) : Bool :=
  !cs.isEmpty && cs.all Char.isDigit && cs.length ≤ 3 && (cs.length = 1 || cs.head? ≠ some '0') &&
    ofDigits 10 (cs.filterMap digitValue?) ≤ 255

/-- An address of the fourth version: four numbers with points between them. -/
def isFourthVersion (cs : List Char) : Bool :=
  let octets := splitOn '.' cs
  octets.length = 4 && octets.all isOctet

/-- One group of an address of the sixth version: up to four hexadecimal digits. -/
def isGroup (cs : List Char) : Bool :=
  !cs.isEmpty && cs.length ≤ 4 && cs.all fun c => (hexDigit? c).isSome

/-- The groups of an address; the last may be an address of the fourth version, which takes two
places. -/
def groupsOf? (cs : List Char) : Option (List (List Char)) :=
  let groups := splitOn ':' cs
  match groups.getLast? with
  | none => none
  | some last =>
    if groups.length < 3 then none
    else if last.contains '.' then
      if isFourthVersion last then some (groups.dropLast ++ [['0'], ['0']]) else none
    else some groups

/-- The places of empty groups between the first and the last. -/
def innerGaps (groups : List (List Char)) : List Nat :=
  (List.range (groups.length - 1)).filter fun i => 0 < i && (groups.getD i []).isEmpty

/-- The groups make an address: eight of them, or fewer with one gap of zeros. -/
def areGroups (groups : List (List Char)) : Bool :=
  groups.length ≤ 9 &&
    match innerGaps groups with
    | [] => groups.length = 8 && groups.all isGroup
    | [gap] =>
      let before := groups.take gap
      let after := groups.drop (gap + 1)
      -- An address may begin or end with its gap.
      let high := if before.head? = some [] then before.drop 1 else before
      let low := if after.getLast? = some [] then after.dropLast else after
      (before.head? ≠ some [] || high.isEmpty) && (after.getLast? ≠ some [] || low.isEmpty) &&
        high.length + low.length < 8 && high.all isGroup && low.all isGroup
    | _ => false

/-- An address of the sixth version, with a zone after a percent sign if it has one. -/
def isSixthVersion (cs : List Char) : Bool :=
  let (address, zone) := cutAt '%' cs
  let zoneFine := match zone with
    | none => true
    | some z => !z.isEmpty && !z.contains '%'
  !cs.contains '/' && zoneFine &&
    match groupsOf? address with
    | none => false
    | some groups => areGroups groups

/-- An address of a later version, after its `v`: hexadecimal digits, a point, and more on one line. -/
def isLaterVersion (cs : List Char) : Bool :=
  let (version, rest) := cutAt '.' cs
  !version.isEmpty && version.all (fun c => (hexDigit? c).isSome) &&
    match rest with
    | none => false
    | some r => !r.isEmpty && !r.contains '\n'

/-- Checks the text between brackets. -/
def checkHost (cs : List Char) : Except HostError Unit :=
  match cs with
  | 'v' :: rest => if isLaterVersion rest then .ok () else .error .laterVersion
  | _ =>
    if isFourthVersion cs then .error .fourthVersion
    else if isSixthVersion cs then .ok ()
    else .error (.noAddress cs)

end FormatServer.Uri
