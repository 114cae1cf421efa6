import FormatServer.CommandLine.Launch
import FormatServer.Proofs.Command.Quoting
import FormatServer.Proofs.CommandLine.Line
import FormatServer.Proofs.Session.History

/-!
What comes of a command line. Of each kind of choice the last one counts (`chosen`), and a server is started with
what is chosen unless the settings are refused (`Serves`, `Refuses`). Main statement (`command_line_settled`): a
command line starts a server of one transport or ends with an exit code, and nothing else ends the program before
the transport is started.
-/

namespace FormatServer.CommandLine

/-! ## What a line chooses all in all -/

namespace Choice

def formatter? : Choice → Option (Given String)
  | formatter line => some line
  | _ => none

def timeout? : Choice → Option (Given Binary64)
  | timeout x => some x
  | _ => none

def host? : Choice → Option (Given String)
  | host name => some name
  | _ => none

def port? : Choice → Option (Given Int)
  | port i => some i
  | _ => none

end Choice

def lastOf {α : Type} (kind : Choice → Option α) (choices : List Choice) : Option α :=
  (choices.filterMap kind).getLast?

/-- What a line chooses all in all. The formatter of the environment is taken when the line names none. -/
def chosen (environment : Option String) (choices : List Choice) : Choices where
  formatter := (lastOf Choice.formatter? choices).or (environment.map .value)
  timeout := lastOf Choice.timeout? choices
  tcp := decide (.tcp ∈ choices)
  host := (lastOf Choice.host? choices).getD (.value "127.0.0.1")
  port := (lastOf Choice.port? choices).getD (.value 2087)

private theorem lastOf_concat {α : Type} (kind : Choice → Option α) (choices : List Choice) (choice : Choice) :
    lastOf kind (choices ++ [choice]) = (kind choice).or (lastOf kind choices) := by
  cases h : kind choice <;> simp [lastOf, h]

/-- **Of each kind of choice the last one counts.** -/
theorem foldl_after (environment : Option String) (choices : List Choice) :
    choices.foldl Choices.after { formatter := environment.map .value } = chosen environment choices := by
  induction choices using List.reverseRecOn with
  | nil => rfl
  | append_singleton choices choice ih =>
    rw [List.foldl_append, ih]
    cases choice <;>
      simp [chosen, lastOf_concat, Choices.after, Choice.formatter?, Choice.timeout?, Choice.host?, Choice.port?]

/-! ## Settings of a server -/

inductive NoTimeout : Binary64 → Prop where
  | zero (negative : Bool) : NoTimeout (.finite negative 0)
  | negative (ticks : Nat) : NoTimeout (.finite true ticks)
  | infinite (negative : Bool) : NoTimeout (.infinite negative)
  | nan : NoTimeout .nan

/-- The command that a chosen line stands for. None, a lost or an empty one leave the standing command. -/
inductive CommandOf (standing : List String) : Option (Given String) → List String → Prop where
  | none : CommandOf standing none standing
  | lost : CommandOf standing (some .nothing) standing
  | empty : CommandOf standing (some (.value "")) standing
  | line {line : String} {words : List String} (hne : line ≠ "") (hwords : Command.words line = .ok words) :
      CommandOf standing (some (.value line)) words

inductive TimeoutOf (standing : Binary64) : Option (Given Binary64) → Binary64 → Prop where
  | none : TimeoutOf standing none standing
  | seconds {x : Binary64} (hx : ¬ NoTimeout x) : TimeoutOf standing (some (.value x)) x

/-- What is chosen starts a server over a transport with settings, which are the defaults but for command and
timeout. -/
structure Serves (c : Choices) (transport : Transport) (settings : Settings) : Prop where
  tcp : transport = .tcp c.host c.port ↔ c.tcp = true
  streams : transport = .streams ↔ c.tcp = false
  command : CommandOf ({} : Settings).command c.formatter settings.command
  timeout : TimeoutOf ({} : Settings).timeout c.timeout settings.timeout
  tempPrefix : settings.tempPrefix = ({} : Settings).tempPrefix
  defaultExtension : settings.defaultExtension = ({} : Settings).defaultExtension

/-- What is chosen is refused. The command is looked at first. -/
inductive Refuses (c : Choices) : Fault → Prop where
  /-- the line ends inside a quote or after a backslash -/
  | command {line : String} {cause : Command.SplitError} (hline : c.formatter = some (.value line))
      (hcut : (Command.Place.between.after line.toList).missing? = some cause) : Refuses c (.settings cause.message)
  | timeout {x : Binary64} (hcommand : ∃ words, CommandOf [] c.formatter words)
      (htimeout : c.timeout = some (.value x)) (hx : NoTimeout x) :
      Refuses c (.settings ("timeout must be positive, got " ++ (Value.float x).shown))
  | lost (hcommand : ∃ words, CommandOf [] c.formatter words) (htimeout : c.timeout = some .nothing) :
      Refuses c (.settings "timeout must be a number of seconds, got []")

variable {c : Choices} {transport : Transport} {settings : Settings} {f : Fault}

theorem noTimeout_iff (x : Binary64) : NoTimeout x ↔ (x.isFinite && x.isPositive) = false := by
  constructor
  · intro h
    cases h with
    | zero negative => cases negative <;> rfl
    | negative ticks => rfl
    | infinite negative => rfl
    | nan => rfl
  · intro h
    cases x with
    | nan => exact .nan
    | infinite negative => exact .infinite negative
    | finite negative ticks =>
      cases negative with
      | true => exact .negative ticks
      | false =>
        obtain rfl : ticks = 0 := by simpa [Binary64.isFinite, Binary64.isPositive] using h
        exact .zero false

private theorem words_eq_error_iff (line : String) (cause : Command.SplitError) :
    Command.words line = .error cause ↔ (Command.Place.between.after line.toList).missing? = some cause := by
  rw [← Command.splitFrom_eq_error_iff .between [], Command.words, Command.split]
  cases Command.splitFrom .between [] line.toList <;> simp [Except.map]

private def commandEntries (formatter : Option (Given String)) : List (Value × Value) :=
  match formatter with
  | some (.value line) => if line.isEmpty then [] else [(.text "command", .text line)]
  | some .nothing | none => []

private def timeoutEntries (timeout : Option (Given Binary64)) : List (Value × Value) :=
  match timeout with
  | some (.value x) => [(.text "timeout", .float x)]
  | some .nothing => [(.text "timeout", .list [])]
  | none => []

private theorem overrides_eq (c : Choices) :
    c.overrides = .map (commandEntries c.formatter ++ timeoutEntries c.timeout) := rfl

private theorem entryChange_command (line : String) : Settings.entryChange? (.text "command", .text line) =
    some (((Command.words line).mapError .words).map Settings.Change.command) := rfl

private theorem entryChange_timeout (x : Binary64) : Settings.entryChange? (.text "timeout", .float x) =
    some ((Settings.readTimeout (.float x)).map Settings.Change.timeout) := rfl

/-- **The entry of a command settles the command**, whatever entries follow. -/
private theorem merged_command {s : Settings} {formatter : Option (Given String)} {words : List String}
    (h : CommandOf s.command formatter words) (rest : List (Value × Value)) :
    s.merged (.map (commandEntries formatter ++ rest)) = { s with command := words }.merged (.map rest) := by
  cases h with
  | none | lost | empty => rfl
  | @line line words hne hwords =>
    rw [commandEntries, if_neg (by simpa using hne), List.singleton_append, Settings.merged_map, Settings.merged_map,
      Settings.changes, entryChange_command, hwords]
    cases Settings.changes rest <;> rfl

private theorem merged_command_cut {line : String} {cause : Command.SplitError}
    (h : Command.words line = .error cause) (s : Settings) (rest : List (Value × Value)) :
    s.merged (.map (commandEntries (some (.value line)) ++ rest)) = .error (.words cause) := by
  have hne : line ≠ "" := by
    rintro rfl
    cases h
  rw [commandEntries, if_neg (by simpa using hne), List.singleton_append, Settings.merged_map, Settings.changes,
    entryChange_command, h]
  rfl

private theorem merged_timeout {s : Settings} {timeout : Option (Given Binary64)} {y : Binary64}
    (h : TimeoutOf s.timeout timeout y) : s.merged (.map (timeoutEntries timeout)) = .ok { s with timeout := y } := by
  cases h with
  | none => rfl
  | @seconds x hx =>
    rw [noTimeout_iff, Bool.not_eq_false] at hx
    rw [timeoutEntries, Settings.merged_map, Settings.changes, entryChange_timeout, Settings.readTimeout, if_pos hx]
    rfl

private theorem merged_timeout_refused {x : Binary64} (h : NoTimeout x) (s : Settings) :
    s.merged (.map (timeoutEntries (some (.value x)))) = .error (.notPositive (.float x)) := by
  rw [noTimeout_iff] at h
  rw [timeoutEntries, Settings.merged_map, Settings.changes, entryChange_timeout, Settings.readTimeout,
    if_neg (Bool.not_eq_true _ ▸ h)]
  rfl

/-! ## Starting a server -/

private theorem transport_eq (h : Serves c transport settings) : c.transport = transport := by
  cases htcp : c.tcp with
  | true => rw [Choices.transport, if_pos htcp, h.tcp.mpr htcp]
  | false => rw [Choices.transport, if_neg (by simp [htcp]), h.streams.mpr htcp]

private theorem merged_of_serves (h : Serves c transport settings) : Settings.merged {} c.overrides = .ok settings := by
  have htimeout := merged_timeout (s := { command := settings.command }) h.timeout
  rw [overrides_eq, merged_command h.command, htimeout, ← h.tempPrefix, ← h.defaultExtension]

private theorem launch_of_serves (h : Serves c transport settings) :
    c.launch = .serve transport c.overrides settings := by
  rw [Choices.launch, merged_of_serves h, transport_eq h]

private theorem launch_of_refuses (h : Refuses c f) : c.launch = f.launch := by
  cases h with
  | @command line cause hline hcut =>
    have hmerged : Settings.merged {} c.overrides = .error (.words cause) := by
      rw [overrides_eq, hline, merged_command_cut ((words_eq_error_iff line cause).mpr hcut)]
    rw [Choices.launch, hmerged]
    rfl
  | @timeout x hcommand htimeout hx =>
    obtain ⟨words, hwords⟩ := hcommand
    have hmerged : Settings.merged {} c.overrides = .error (.notPositive (.float x)) := by
      rw [overrides_eq, htimeout, merged_command (s := {}) hwords, merged_timeout_refused hx]
    rw [Choices.launch, hmerged]
    rfl
  | lost hcommand htimeout =>
    obtain ⟨words, hwords⟩ := hcommand
    have hmerged : Settings.merged {} c.overrides = .error (.notNumber (.list [])) := by
      rw [overrides_eq, htimeout, merged_command (s := {}) hwords]
      rfl
    rw [Choices.launch, hmerged]
    rfl

/-- A chosen line stands for a command, or it is cut. -/
private theorem command_or_cut (standing : List String) (formatter : Option (Given String)) :
    (∃ words, CommandOf standing formatter words) ∨ ∃ line cause,
      formatter = some (.value line) ∧ (Command.Place.between.after line.toList).missing? = some cause := by
  match formatter with
  | none => exact .inl ⟨standing, .none⟩
  | some .nothing => exact .inl ⟨standing, .lost⟩
  | some (.value line) =>
    by_cases hne : line = ""
    · exact .inl ⟨standing, hne ▸ .empty⟩
    · cases hwords : Command.words line with
      | ok words => exact .inl ⟨words, .line hne hwords⟩
      | error cause => exact .inr ⟨line, cause, rfl, (words_eq_error_iff line cause).mp hwords⟩

/-- What is chosen starts a server or is refused. -/
private theorem serves_or_refuses (c : Choices) :
    (∃ transport settings, Serves c transport settings) ∨ ∃ f, Refuses c f := by
  rcases command_or_cut [] c.formatter with ⟨words, hwords⟩ | ⟨line, cause, hline, hcut⟩
  · have hserves : ∀ y, TimeoutOf ({} : Settings).timeout c.timeout y →
        ∃ transport settings, Serves c transport settings := by
      intro y hy
      refine ⟨c.transport, { command := words, timeout := y }, ?_, ?_, hwords, hy, rfl, rfl⟩
      all_goals cases htcp : c.tcp <;> simp [Choices.transport, htcp]
    match htimeout : c.timeout with
    | none =>
      rw [htimeout] at hserves
      exact .inl (hserves _ .none)
    | some .nothing => exact .inr ⟨_, .lost ⟨words, hwords⟩ htimeout⟩
    | some (.value x) =>
      by_cases hx : NoTimeout x
      · exact .inr ⟨_, .timeout ⟨words, hwords⟩ htimeout hx⟩
      · rw [htimeout] at hserves
        exact .inl (hserves x (.seconds hx))
  · exact .inr ⟨_, .command hline hcut⟩

/-- The settings with which a server is started are those of its session. -/
private theorem start_of_serves (h : Serves c transport settings) (directory : Path) (pids : Nat → Nat) (disk : Disk) :
    ∃ first, Session.start c.overrides directory pids disk = .ok first ∧ first.cache.globals = settings := by
  simp only [Session.start, bind, Except.bind, Settings.merged_overrides, merged_of_serves h]
  exact ⟨_, rfl, rfl⟩

/-! ## What comes of a command line -/

variable {environment : Option String} {words : List String} {choices : List Choice} {halt : Halt}

private theorem launch_of_line (h : Line words choices []) :
    launch environment words = (chosen environment choices).launch := by
  rw [launch, (read_eq_ok_iff environment words _).mpr ⟨choices, h, rfl⟩, foldl_after]

private theorem launch_of_stops (h : Stops words halt) : launch environment words = halt.launch := by
  rw [launch, (read_eq_error_iff environment words halt).mpr h]

inductive Faults (environment : Option String) (words : List String) : Fault → Prop where
  | line {f : Fault} (h : Stops words (.fault f)) : Faults environment words f
  | settings {choices : List Choice} {f : Fault} (hline : Line words choices [])
      (h : Refuses (chosen environment choices) f) : Faults environment words f

inductive Comes (environment : Option String) (words : List String) : Launch → Prop where
  | served {choices : List Choice} {transport : Transport} {settings : Settings} (hline : Line words choices [])
      (h : Serves (chosen environment choices) transport settings) :
      Comes environment words (.serve transport (chosen environment choices).overrides settings)
  | help (h : Stops words .help) : Comes environment words (.exit 0 helpText "")
  | version (h : Stops words .version) : Comes environment words (.exit 0 "fmtbridge 0.1.0\n" "")
  | faulty {f : Fault} (h : Faults environment words f) :
      Comes environment words (.exit 2 "" (usageText ++ textOf ["fmtbridge: error: " ++ f.message]))

theorem comes_launch (environment : Option String) (words : List String) :
    Comes environment words (launch environment words) := by
  cases hread : read environment words with
  | error halt =>
    have hstops := (read_eq_error_iff environment words halt).mp hread
    rw [launch_of_stops hstops]
    cases halt with
    | help => exact .help hstops
    | version => exact .version hstops
    | fault f => exact .faulty (.line hstops)
  | ok c =>
    obtain ⟨choices, hline, -⟩ := (read_eq_ok_iff environment words c).mp hread
    rw [launch_of_line hline]
    rcases serves_or_refuses (chosen environment choices) with ⟨transport, settings, h⟩ | ⟨f, h⟩
    · rw [launch_of_serves h]
      exact .served hline h
    · rw [launch_of_refuses h]
      exact .faulty (.settings hline h)

/-- **What comes of a command line comes of it for its reason.** -/
theorem launch_eq_iff (environment : Option String) (words : List String) (l : Launch) :
    launch environment words = l ↔ Comes environment words l := by
  refine ⟨fun h => h ▸ comes_launch environment words, fun h => ?_⟩
  cases h with
  | served hline h => rw [launch_of_line hline, launch_of_serves h]
  | help h | version h => exact launch_of_stops h
  | faulty h =>
    cases h with
    | line h => exact launch_of_stops h
    | settings hline h =>
      rw [launch_of_line hline, launch_of_refuses h]
      rfl

/-- **What a command line does.** It starts a server of one transport exactly when all its words choose something and
the settings are accepted, and the server's sessions begin with these settings. It ends with code 0 for help and
version alone, and with code 2 for every fault of the line or of the settings; nothing else ends it before the transport
is started, which is as far as this goes. All values are as they are given, but for two dashes, which are lost
(`Given.ofWord`): a lost formatter counts as none and a lost timeout is refused. -/
theorem command_line_settled (environment : Option String) (words : List String) :
    (∀ transport settings,
      (∃ overrides, launch environment words = .serve transport overrides settings) ↔
        ∃ choices, Line words choices [] ∧ Serves (chosen environment choices) transport settings) ∧
    (∀ transport overrides settings, launch environment words = .serve transport overrides settings →
      ∀ directory pids disk, ∃ first,
        Session.start overrides directory pids disk = .ok first ∧ first.cache.globals = settings) ∧
    (∀ code out err, launch environment words = .exit code out err ↔
      code = 0 ∧ err = "" ∧
        (Stops words .help ∧ out = helpText ∨ Stops words .version ∧ out = "fmtbridge 0.1.0\n") ∨
      code = 2 ∧ out = "" ∧ ∃ f, Faults environment words f ∧
        err = usageText ++ textOf ["fmtbridge: error: " ++ f.message]) ∧
    (∀ kind text, launch environment words ≠ .breakOff kind text) := by
  refine ⟨fun transport settings => ?_, fun transport overrides settings h => ?_, fun code out err => ?_,
    fun kind text h => ?_⟩
  · constructor
    · rintro ⟨overrides, h⟩
      cases (launch_eq_iff environment words _).mp h with
      | served hline h => exact ⟨_, hline, h⟩
    · rintro ⟨choices, hline, h⟩
      exact ⟨_, (launch_eq_iff environment words _).mpr (.served hline h)⟩
  · cases (launch_eq_iff environment words _).mp h with
    | served _ h => exact start_of_serves h
  · rw [launch_eq_iff]
    constructor
    · intro h
      cases h with
      | help h => exact .inl ⟨rfl, rfl, .inl ⟨h, rfl⟩⟩
      | version h => exact .inl ⟨rfl, rfl, .inr ⟨h, rfl⟩⟩
      | faulty h => exact .inr ⟨rfl, rfl, _, h, rfl⟩
    · rintro (⟨rfl, rfl, ⟨h, rfl⟩ | ⟨h, rfl⟩⟩ | ⟨rfl, rfl, f, h, rfl⟩)
      · exact .help h
      · exact .version h
      · exact .faulty h
  · cases (launch_eq_iff environment words _).mp h

/-- Names may be shortened, and a formatter of two dashes is lost: neither the one in front of it nor that of the
environment takes its place. -/
theorem command_line_settled_lost :
    let words := ["--timeout", "2", "--tcp", "--po=9000", "--formatter", "fmt 'a b'", "--form=--"]
    ∃ choices, Line words choices [] ∧
      Serves (chosen (some "fmt") choices) (.tcp (.value "127.0.0.1") (.value 9000))
        { command := [], timeout := .finite false (2 * Binary64.ticksPerUnit) } := by
  intro words
  let two := Binary64.finite false (2 * Binary64.ticksPerUnit)
  let c : Choices := { formatter := some .nothing, timeout := some (.value two), tcp := true, port := .value 9000 }
  have hread : read (some "fmt") words = .ok c := by decide +kernel
  have hmerged : (Settings.merged {} c.overrides).toOption = some { command := [], timeout := two } := by
    decide +kernel
  obtain ⟨hserves, -⟩ := command_line_settled (some "fmt") words
  refine (hserves _ _).mp ⟨c.overrides, ?_⟩
  rw [launch, hread]
  dsimp only
  rw [Choices.launch]
  cases hsettings : Settings.merged {} c.overrides with
  | error e =>
    rw [hsettings] at hmerged
    cases hmerged
  | ok settings =>
    rw [hsettings] at hmerged
    obtain rfl := Option.some.inj hmerged
    rfl

end FormatServer.CommandLine
