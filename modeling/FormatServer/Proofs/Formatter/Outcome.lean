import FormatServer.Proofs.Formatter.Events
import FormatServer.Proofs.Formatter.Playing
import FormatServer.Session.Formatting

/-!
The outcomes of a formatting run. `Ends` lists them in the order in which they are decided, each with the
processes that the run started; `ends_iff` says that a run ends in the one way that the list gives.
Of the ways to end, five are no formatting errors (`Crashes`), and these are the ones whose requests are
answered with a code of their own (`format_outcome`).

Texts are made of Unicode characters, so a name of a file or a word of a command can always be encoded.
-/

namespace FormatServer

open ScriptStep

/-! ## The ways to end -/

def selected (e : Text.Encoding) (text : String) : Option TextRange → List Char
  | none => text.toList
  | some r => slice text.toList (offsetAt e text.toList r.start) (offsetAt e text.toList r.stop)

/-- The range that the edit of a request replaces: the request's own, or the whole document. -/
def editRange (e : Text.Encoding) (text : String) (range : Option TextRange) : TextRange :=
  range.getD ⟨⟨0, 0⟩, endPosition e text.toList⟩

def timeLimit (s : Settings) : Nat := s.timeout.ticks?.getD 0

section Ways

variable (c : RunContext) (r : FormatRequest) (d : Disk)

def given (document : Document) : List UInt8 :=
  Text.Utf8.encode (selected c.encoding document.text r.range)

structure Named (document : Document) (p : Path) : Prop where
  isOpen : c.store.find? r.uri = some document
  path : temporaryPath c.directory r.settings c.token r.uri = .ok p

structure Written (document : Document) (p : Path) (d' : Disk) : Prop extends
    Named c r document p where
  noNull : '\x00' ∉ p.chars
  write : d.write p (given c r document) = .ok d'

structure Started (document : Document) (p : Path) (d' : Disk) : Prop extends
    Written c r d document p d' where
  command : r.settings.command ≠ []
  words : ∀ word ∈ r.settings.command, '\x00' ∉ word.toList
  accepted : c.script.refusal = none

/-- The formatter closed its output and exited in time, and none of its lines was too long. -/
structure Finished (document : Document) (p : Path) (d' : Disk) : Prop extends
    Started c r d document p d' where
  lines : ∀ s, withinLimit (outputOn s c.script.steps) = true
  inTime : endsBefore (timeLimit r.settings) c.script.steps = true

def leftEntry (document : Document) : Option FileEntry :=
  entryAfter (some (.file (given c r document))) c.script.steps

inductive Unreadable (p : Path) : Option FileEntry → String → Prop where
  | missing : Unreadable p none (DiskError.notFound.message p)
  | directory : Unreadable p (some .directory) (DiskError.isDirectory.message p)
  | notText {content : List UInt8} {e : Text.Utf8.DecodeError}
      (h : Text.Utf8.decode content = .error e) : Unreadable p (some (.file content)) e.message

/-- The ways in which a run ends, with the processes it started, in the order in which they are decided. -/
inductive Ends : Outcome → List (List String × List UInt8) → Prop where
  | notOpen (h : c.store.find? r.uri = none) : Ends (.failed (.documentNotFound r.uri)) []
  | badUri {document : Document} {e : Uri.Error} (h : c.store.find? r.uri = some document)
      (hpath : temporaryPath c.directory r.settings c.token r.uri = .error e) :
      Ends (.crashed (.uri e)) []
  | nullByte {document : Document} {p : Path} (h : Named c r document p) (hnull : '\x00' ∈ p.chars) :
      Ends (.crashed .nullByte) []
  | notWritten {document : Document} {p : Path} {e : DiskError} (h : Named c r document p)
      (hnull : '\x00' ∉ p.chars) (hwrite : d.write p (given c r document) = .error e) :
      Ends (.failed (.temporaryFile p.toString (e.message p))) []
  | noCommand {document : Document} {p : Path} {d' : Disk} (h : Written c r d document p d')
      (hcommand : r.settings.command = []) :
      Ends (.failed (.spawn [] "no formatter command configured")) []
  | badWord {document : Document} {p : Path} {d' : Disk} {word : String}
      (h : Written c r d document p d') (hword : word ∈ r.settings.command)
      (hnull : '\x00' ∈ word.toList) : Ends (.crashed .nullByte) []
  | refused {document : Document} {p : Path} {d' : Disk} {program : String}
      {arguments : List String} {number : Int} (h : Written c r d document p d')
      (hcommand : r.settings.command = program :: arguments)
      (hwords : ∀ word ∈ r.settings.command, '\x00' ∉ word.toList)
      (hrefusal : c.script.refusal = some number) :
      Ends (.failed (.spawn (commandLine r.settings p) (systemErrorMessage number program)))
        [(commandLine r.settings p, given c r document)]
  | overrun {document : Document} {p : Path} {d' : Disk} {cause : Overrun}
      (h : Started c r d document p d')
      (hcause : firstOverrun (fun _ => []) (takenBefore (timeLimit r.settings) c.script.steps) =
        some cause) :
      Ends (.crashed (.line cause)) [(commandLine r.settings p, given c r document)]
  | expired {document : Document} {p : Path} {d' : Disk} (h : Started c r d document p d')
      (hlines : ∀ s, withinLimit
        (outputOn s (takenBefore (timeLimit r.settings) c.script.steps)) = true)
      (htime : endsBefore (timeLimit r.settings) c.script.steps = false)
      (hkill : c.script.killing.answer ≠ .forbidden) :
      Ends (.failed (.timeout r.settings.timeout))
        [(commandLine r.settings p, given c r document)]
  | forbidden {document : Document} {p : Path} {d' : Disk} (h : Started c r d document p d')
      (hlines : ∀ s, withinLimit
        (outputOn s (takenBefore (timeLimit r.settings) c.script.steps)) = true)
      (htime : endsBefore (timeLimit r.settings) c.script.steps = false)
      (hkill : c.script.killing.answer = .forbidden) :
      Ends (.crashed .forbidden) [(commandLine r.settings p, given c r document)]
  | failed {document : Document} {p : Path} {d' : Disk} (h : Finished c r d document p d')
      (hcode : exitAfter 0 c.script.steps ≠ 0) :
      Ends (.failed (.failed (exitAfter 0 c.script.steps)
          (String.ofList (Text.Utf8.decodeLossy (outputOn .stderr c.script.steps)))))
        [(commandLine r.settings p, given c r document)]
  | notRead {document : Document} {p : Path} {d' : Disk} {reason : String}
      (h : Finished c r d document p d') (hcode : exitAfter 0 c.script.steps = 0)
      (hread : Unreadable p (leftEntry c r document) reason) :
      Ends (.failed (.temporaryFile p.toString reason))
        [(commandLine r.settings p, given c r document)]
  | edits {document : Document} {p : Path} {d' : Disk} {content : List UInt8} {text : List Char}
      (h : Finished c r d document p d') (hcode : exitAfter 0 c.script.steps = 0)
      (hleft : leftEntry c r document = some (.file content))
      (htext : Text.Utf8.decode content = .ok text) :
      Ends (.edits [⟨editRange c.encoding document.text r.range, String.ofList text⟩])
        [(commandLine r.settings p, given c r document)]

end Ways

/-! ## The run ends so -/

section

variable {c : RunContext} {r : FormatRequest} {d : Disk} {document : Document} {p : Path} {d' : Disk}

/-- The range that the edit will replace is known before the process starts. -/
private theorem fullRange_getD (document : Document) (e : Text.Encoding) (range : Option TextRange) :
    range.getD (document.fullRange e) = editRange e document.text range := rfl

private theorem textIn_eq (document : Document) (e : Text.Encoding) (range : Option TextRange) :
    document.textIn e range = selected e document.text range := by
  cases range <;> rfl

def opening (r : FormatRequest) (p : Path) : RunEvent :=
  .logged .log ("Formatting " ++ r.uri ++ " using " ++ p.toString)

theorem start_named (h : Named c r document p) (hnull : '\x00' ∉ p.chars) :
    start c r d = match d.write p (given c r document) with
      | .error e =>
        endWith (.error (.failed (.temporaryFile p.toString (e.message p)))) d p [opening r p]
      | .ok d' => spawn c r (editRange c.encoding document.text r.range) p d' [opening r p] := by
  have hnone : p.chars.contains '\x00' = false := by simpa using hnull
  rw [given]
  cases hwrite : d.write p (Text.Utf8.encode (selected c.encoding document.text r.range)) <;>
    simp only [start, h.isOpen, h.path, hnone, textIn_eq, fullRange_getD, opening,
      Bool.false_eq_true, if_false, hwrite]

theorem start_written (h : Written c r d document p d') :
    start c r d = spawn c r (editRange c.encoding document.text r.range) p d' [opening r p] := by
  rw [start_named h.toNamed h.noNull, h.write]

def firstRun (c : RunContext) (r : FormatRequest) (document : Document) (p : Path) : Run :=
  ⟨r, editRange c.encoding document.text r.range,
    { pid := c.pid, path := p, killing := c.script.killing }⟩

private theorem any_null_eq_false {words : List String} :
    words.any (·.toList.contains '\x00') = false ↔ ∀ word ∈ words, '\x00' ∉ word.toList := by
  simp

theorem start_started (h : Started c r d document p d') :
    start c r d = ⟨.ok (firstRun c r document p), d',
      [opening r p, .spawned (commandLine r.settings p) (given c r document)]⟩ := by
  obtain ⟨l, hleads, hentry, _⟩ := Disk.leads_of_write h.write
  have hread : d'.read p = .ok (given c r document) := by
    rw [Disk.read_of_leads hleads, hentry]
  rw [start_written h.toWritten, spawn]
  cases hcommand : r.settings.command with
  | nil => exact absurd hcommand h.command
  | cons program arguments =>
    have hwords := any_null_eq_false.mpr (hcommand ▸ h.words)
    simp only [hwords, Bool.false_eq_true, if_false, h.accepted, hread, Except.toOption,
      Option.getD_some, firstRun, List.cons_append, List.nil_append]

private theorem format_of_start_error {outcome : Outcome} {stage : Stage (Except Outcome Run)}
    (h : start c r d = stage) (hresult : stage.result = .error outcome) :
    format c r d = ⟨outcome, stage.disk, stage.events⟩ := by
  simp [format, h, hresult]

/-- **How the run of a started formatter ends**, whatever its script does. -/
theorem format_started (h : Started c r d document p d') :
    (format c r d).result =
      (match firstOverrun (fun _ => []) (takenBefore (timeLimit r.settings) c.script.steps) with
      | some cause => .crashed (.line cause)
      | none =>
        if endsBefore (timeLimit r.settings) c.script.steps then
          finalOutcome (editRange c.encoding document.text r.range) p (exitAfter 0 c.script.steps)
            (outputOn .stderr c.script.steps) (leftEntry c r document)
        else lateOutcome (firstRun c r document p).process.killable r.settings) ∧
    spawns (format c r d).events = [(commandLine r.settings p, given c r document)] := by
  obtain ⟨l, hleads, hentry, _⟩ := Disk.leads_of_write h.write
  simp only [format, start_started h, takenBefore]
  rw [show r.settings.timeout.ticks?.getD 0 = timeLimit r.settings from rfl]
  cases hout : runsOut (timeLimit r.settings) 0 with
  | true =>
    have hlate : endsBefore (timeLimit r.settings) c.script.steps = false := by
      rw [← Bool.not_eq_true, endsBefore_iff]
      have hlimit := (runsOut_iff _ _).mp hout
      rintro ⟨ticks, _, htime⟩
      exact absurd (Nat.le_trans (Nat.le_add_left ..) htime) (by simpa using hlimit)
    have hresult : ((firstRun c r document p).expireBefore d' c.script.steps).result =
        lateOutcome (firstRun c r document p).process.killable r.settings := by
      rw [result_expireBefore]
      rfl
    simpa [hlate, firstOverrun, opening] using hresult
  | false =>
    have hlimit : clockResolution ≤ timeLimit r.settings := by
      have := mt (runsOut_iff (timeLimit r.settings) 0).mpr (by simp [hout])
      simpa using this
    have hplay := result_play c.script.steps (firstRun c r document p) d' (timeLimit r.settings) l
      (fun _ => []) (Process.hasHeard_nothing ..) hleads
    simp only [taken_eq_self _ _ hlimit, hentry] at hplay
    simp only [Bool.false_eq_true, if_false]
    exact ⟨hplay, by simp [spawns_play, opening]⟩

/-- A process that ends in time takes all its steps. -/
theorem runs_whole {limit : Nat} {steps : List ScriptStep} (h : endsBefore limit steps = true) :
    runsOut limit 0 = false ∧ taken limit steps = steps := by
  obtain ⟨ticks, _, htime⟩ := (endsBefore_iff _ _).mp h
  have hlimit : clockResolution ≤ limit := Nat.le_trans (Nat.le_add_left ..) htime
  refine ⟨?_, (taken_eq_self limit steps hlimit).mpr h⟩
  rw [← Bool.not_eq_true, runsOut_iff]
  simpa using hlimit

/-- The steps that a process takes are all its steps when they end in time. -/
theorem takenBefore_eq_self {limit : Nat} {steps : List ScriptStep}
    (h : endsBefore limit steps = true) : takenBefore limit steps = steps := by
  obtain ⟨hout, htaken⟩ := runs_whole h
  simp [takenBefore, hout, htaken]

/-- The run of a started formatter that has any time at all. -/
theorem format_eq_play (h : Started c r d document p d')
    (hout : runsOut (timeLimit r.settings) 0 = false) :
    format c r d =
      let s := play (firstRun c r document p) d' (timeLimit r.settings) c.script.steps
      { s with events :=
        [opening r p, .spawned (commandLine r.settings p) (given c r document)] ++ s.events } := by
  simp only [format, start_started h]
  rw [show r.settings.timeout.ticks?.getD 0 = timeLimit r.settings from rfl, hout]
  rfl

theorem firstOverrun_none_iff (steps : List ScriptStep) :
    firstOverrun (fun _ => []) steps = none ↔ ∀ s, withinLimit (outputOn s steps) = true := by
  simpa using firstOverrun_eq_none (fun _ => []) steps fun _ => rfl

private theorem format_finished (h : Finished c r d document p d') :
    (format c r d).result =
        finalOutcome (editRange c.encoding document.text r.range) p (exitAfter 0 c.script.steps)
          (outputOn .stderr c.script.steps) (leftEntry c r document) ∧
      spawns (format c r d).events = [(commandLine r.settings p, given c r document)] := by
  have hstarted := format_started h.toStarted
  rwa [takenBefore_eq_self h.inTime, (firstOverrun_none_iff _).mpr h.lines, if_pos h.inTime] at hstarted

private theorem finalOutcome_of_unreadable {range : TextRange} {stderr : List UInt8}
    {e : Option FileEntry} {reason : String} (h : Unreadable p e reason) :
    finalOutcome range p 0 stderr e = .failed (.temporaryFile p.toString reason) := by
  cases h with
  | missing => rfl
  | directory => rfl
  | notText h => simp [finalOutcome, h]

/-- A way to end that the list gives is the way the run ends. -/
private theorem format_of_ends {o : Outcome} {s : List (List String × List UInt8)}
    (h : Ends c r d o s) : (format c r d).result = o ∧ spawns (format c r d).events = s := by
  cases h with
  | notOpen h => simp [format, start, h]
  | badUri h hpath => simp [format, start, h, hpath]
  | nullByte h hnull => simp [format, start, h.isOpen, h.path, hnull]
  | notWritten h hnull hwrite =>
    rw [format_of_start_error (start_named h hnull) (by rw [hwrite]; rfl), hwrite]
    simp [opening]
  | noCommand h hcommand =>
    have hstart := start_written h
    rw [spawn, hcommand] at hstart
    rw [format_of_start_error hstart rfl]
    simp [opening]
  | badWord h hword hnull =>
    have hstart := start_written h
    rw [spawn] at hstart
    cases hcommand : r.settings.command with
    | nil => exact absurd hword (by simp [hcommand])
    | cons program arguments =>
      have hany : (program :: arguments).any (·.toList.contains '\x00') = true :=
        List.any_eq_true.mpr ⟨_, hcommand ▸ hword, by simpa using hnull⟩
      simp only [hcommand, hany, if_true] at hstart
      rw [format_of_start_error hstart rfl]
      simp [opening]
  | refused h hcommand hwords hrefusal =>
    obtain ⟨l, hleads, hentry, _⟩ := Disk.leads_of_write h.write
    have hread := Disk.read_of_leads hleads
    have hstart := start_written h
    rw [hentry] at hread
    rw [hcommand] at hwords
    rw [spawn, hcommand] at hstart
    simp only [any_null_eq_false.mpr hwords, Bool.false_eq_true, if_false, hrefusal, hread,
      Except.toOption, Option.getD_some] at hstart
    rw [format_of_start_error hstart rfl]
    simp [opening]
  | overrun h hcause =>
    have hstarted := format_started h
    rwa [hcause] at hstarted
  | expired h hlines htime hkill =>
    have hstarted := format_started h
    rwa [(firstOverrun_none_iff _).mpr hlines, if_neg (by simp [htime]), lateOutcome,
      if_pos (by simp [Process.killable, firstRun, hkill])] at hstarted
  | forbidden h hlines htime hkill =>
    have hstarted := format_started h
    rwa [(firstOverrun_none_iff _).mpr hlines, if_neg (by simp [htime]), lateOutcome,
      if_neg (by simp [Process.killable, firstRun, hkill])] at hstarted
  | failed h hcode =>
    have hfinished := format_finished h
    simpa only [finalOutcome, ne_eq, hcode, not_false_eq_true, if_true] using hfinished
  | notRead h hcode hread =>
    have hfinished := format_finished h
    rw [hcode] at hfinished
    rwa [finalOutcome_of_unreadable hread] at hfinished
  | edits h hcode hleft htext =>
    have hfinished := format_finished h
    rw [hcode, hleft] at hfinished
    simpa [finalOutcome, htext] using hfinished

/-! ## Every run ends in one of the ways -/

/-- All that is left after a file was read is in the list too. -/
private theorem exists_ends_finished (h : Finished c r d document p d') :
    ∃ o s, Ends c r d o s := by
  by_cases hcode : exitAfter 0 c.script.steps = 0
  · cases hleft : leftEntry c r document with
    | none => exact ⟨_, _, .notRead h hcode (by rw [hleft]; exact .missing)⟩
    | some entry =>
      cases entry with
      | directory => exact ⟨_, _, .notRead h hcode (by rw [hleft]; exact .directory)⟩
      | file content =>
        cases htext : Text.Utf8.decode content with
        | error e => exact ⟨_, _, .notRead h hcode (by rw [hleft]; exact .notText htext)⟩
        | ok text => exact ⟨_, _, .edits h hcode hleft htext⟩
  · exact ⟨_, _, .failed h hcode⟩

private theorem exists_ends_started (h : Started c r d document p d') : ∃ o s, Ends c r d o s := by
  cases hcause : firstOverrun (fun _ => []) (takenBefore (timeLimit r.settings) c.script.steps) with
  | some cause => exact ⟨_, _, .overrun h hcause⟩
  | none =>
    have hlines := (firstOverrun_none_iff _).mp hcause
    cases htime : endsBefore (timeLimit r.settings) c.script.steps with
    | false =>
      by_cases hkill : c.script.killing.answer = .forbidden
      · exact ⟨_, _, .forbidden h hlines htime hkill⟩
      · exact ⟨_, _, .expired h hlines htime hkill⟩
    | true =>
      rw [takenBefore_eq_self htime] at hlines
      exact exists_ends_finished ⟨h, hlines, htime⟩

private theorem exists_ends_written (h : Written c r d document p d') : ∃ o s, Ends c r d o s := by
  cases hcommand : r.settings.command with
  | nil => exact ⟨_, _, .noCommand h hcommand⟩
  | cons program arguments =>
    by_cases hwords : ∀ word ∈ r.settings.command, '\x00' ∉ word.toList
    · cases hrefusal : c.script.refusal with
      | some number => exact ⟨_, _, .refused h hcommand hwords hrefusal⟩
      | none => exact exists_ends_started ⟨h, by simp [hcommand], hwords, hrefusal⟩
    · simp only [not_forall, not_not] at hwords
      obtain ⟨word, hword, hnull⟩ := hwords
      exact ⟨_, _, .badWord h hword hnull⟩

private theorem exists_ends (c : RunContext) (r : FormatRequest) (d : Disk) :
    ∃ o s, Ends c r d o s := by
  cases hopen : c.store.find? r.uri with
  | none => exact ⟨_, _, .notOpen hopen⟩
  | some document =>
    cases hpath : temporaryPath c.directory r.settings c.token r.uri with
    | error e => exact ⟨_, _, .badUri hopen hpath⟩
    | ok p =>
      have hnamed : Named c r document p := ⟨hopen, hpath⟩
      by_cases hnull : '\x00' ∈ p.chars
      · exact ⟨_, _, .nullByte hnamed hnull⟩
      cases hwrite : d.write p (given c r document) with
      | error e => exact ⟨_, _, .notWritten hnamed hnull hwrite⟩
      | ok d' => exact exists_ends_written ⟨hnamed, hnull, hwrite⟩

/-- **A run ends in exactly one of the ways**, the first of the list whose condition holds. -/
theorem ends_iff (c : RunContext) (r : FormatRequest) (d : Disk) (o : Outcome)
    (s : List (List String × List UInt8)) :
    Ends c r d o s ↔ (format c r d).result = o ∧ spawns (format c r d).events = s := by
  constructor
  · exact format_of_ends
  · rintro ⟨rfl, rfl⟩
    obtain ⟨o, s, h⟩ := exists_ends c r d
    obtain ⟨hresult, hspawns⟩ := format_of_ends h
    rwa [hresult, hspawns]

end

/-! ## Answers -/

def Outcome.answer : Outcome → Response
  | .edits replacements => .edits replacements
  | .failed e => .error (.formatting e)
  | .crashed cause => .error (.unforeseen cause.kind cause.message)

def Session.report (s : Session) : Outcome → Session
  | .failed e => s.log .error e.message
  | _ => s

theorem Session.settle_eq (s : Session) (j : Job) (o : Outcome) :
    s.settle j o = (s.report o).conclude j o.answer := by
  cases o <;> rfl

/-- A formatting error is answered with one of two codes, a crash with another. -/
theorem Outcome.answer_code (o : Outcome) :
    (∃ e, o.answer = .error e ∧ e.code ≠ -32602 ∧ e.code ≠ -32803) ↔ ∃ cause, o = .crashed cause := by
  cases o with
  | edits edits => simp [answer]
  | failed e => cases e <;> simp [answer, ResponseError.formatting, FormatError.code]
  | crashed cause => simp [answer, ResponseError.unforeseen]

/-- The formatter puts out a line that is too long in time, or its time is up while it may not be killed. -/
def Breaks (limit : Nat) (script : Script) : Prop :=
  (∃ stream, withinLimit (outputOn stream (takenBefore limit script.steps)) = false) ∨
    endsBefore limit script.steps = false ∧ script.killing.answer = .forbidden

/-- The runs that end with no formatting error: the path of the temporary file cannot be told, or names no
file, or a word of the command is none for the system, or the formatter puts out a line that is too long or
may not be killed when its time is up. -/
def Crashes (c : RunContext) (r : FormatRequest) (d : Disk) : Prop :=
  ∃ document, c.store.find? r.uri = some document ∧
    ((∃ e, temporaryPath c.directory r.settings c.token r.uri = .error e) ∨
      ∃ p, temporaryPath c.directory r.settings c.token r.uri = .ok p ∧
        ('\x00' ∈ p.chars ∨
          ∃ d', (Written c r d document p d' ∧
              ∃ word ∈ r.settings.command, '\x00' ∈ word.toList) ∨
            Started c r d document p d' ∧ Breaks (timeLimit r.settings) c.script))

/-- A started formatter breaks off its run exactly when it breaks. -/
private theorem crashes_of_breaks {document : Document} {p : Path} {d' : Disk}
    (h : Started c r d document p d') (hbreaks : Breaks (timeLimit r.settings) c.script) :
    ∃ cause, (format c r d).result = .crashed cause := by
  cases hcause : firstOverrun (fun _ => [])
    (takenBefore (timeLimit r.settings) c.script.steps) with
  | some cause => exact ⟨_, (format_of_ends (.overrun h hcause)).1⟩
  | none =>
    have hlines := (firstOverrun_none_iff _).mp hcause
    rcases hbreaks with ⟨stream, hlong⟩ | ⟨htime, hkill⟩
    · exact absurd (hlong ▸ hlines stream) (by simp)
    · exact ⟨_, (format_of_ends (.forbidden h hlines htime hkill)).1⟩

/-- A run crashes exactly for these reasons. -/
theorem crashed_iff (c : RunContext) (r : FormatRequest) (d : Disk) :
    (∃ cause, (format c r d).result = .crashed cause) ↔ Crashes c r d := by
  constructor
  · rintro ⟨cause, hresult⟩
    obtain ⟨s, h⟩ : ∃ s, Ends c r d (.crashed cause) s := ⟨_, (ends_iff ..).mpr ⟨hresult, rfl⟩⟩
    cases h with
    | badUri hopen hpath => exact ⟨_, hopen, .inl ⟨_, hpath⟩⟩
    | nullByte h hnull => exact ⟨_, h.isOpen, .inr ⟨_, h.path, .inl hnull⟩⟩
    | badWord h hword hnull =>
      exact ⟨_, h.isOpen, .inr ⟨_, h.path, .inr ⟨_, .inl ⟨h, _, hword, hnull⟩⟩⟩⟩
    | overrun h hcause =>
      refine ⟨_, h.isOpen, .inr ⟨_, h.path, .inr ⟨_, .inr ⟨h, .inl ?_⟩⟩⟩⟩
      by_contra hnone
      simp only [not_exists, Bool.not_eq_false] at hnone
      rw [(firstOverrun_none_iff _).mpr hnone] at hcause
      exact absurd hcause (by simp)
    | forbidden h hlines htime hkill =>
      exact ⟨_, h.isOpen, .inr ⟨_, h.path, .inr ⟨_, .inr ⟨h, .inr ⟨htime, hkill⟩⟩⟩⟩⟩
  · rintro ⟨document, hopen, ⟨e, hpath⟩ |
      ⟨p, hpath, hnull | ⟨d', ⟨hwritten, word, hword, hnull⟩ | ⟨hstarted, hbreaks⟩⟩⟩⟩
    · exact ⟨_, (format_of_ends (.badUri hopen hpath)).1⟩
    · exact ⟨_, (format_of_ends (.nullByte ⟨hopen, hpath⟩ hnull)).1⟩
    · exact ⟨_, (format_of_ends (.badWord hwritten hword hnull)).1⟩
    · exact crashes_of_breaks hstarted hbreaks

/-- **How a formatting run ends.** It ends in exactly one of the ways of the list. When its document is not
open it does nothing at all. It fails with no formatting error exactly for the five reasons of `Crashes`,
and exactly then its request is answered with a code that is not one of the two codes of formatting errors. -/
theorem format_outcome (c : RunContext) (r : FormatRequest) (d : Disk) :
    (∀ o s, Ends c r d o s ↔ (format c r d).result = o ∧ spawns (format c r d).events = s) ∧
    (format c r d = ⟨.failed (.documentNotFound r.uri), d, []⟩ ↔ c.store.find? r.uri = none) ∧
    ((∃ cause, (format c r d).result = .crashed cause) ↔ Crashes c r d) ∧
    ((∃ e, (format c r d).result.answer = .error e ∧ e.code ≠ -32602 ∧ e.code ≠ -32803) ↔
      Crashes c r d) ∧
    ∀ (s : Session) (j : Job), s.settle j (format c r d).result =
      (s.report (format c r d).result).conclude j (format c r d).result.answer := by
  refine ⟨ends_iff c r d, ⟨?_, ?_⟩, crashed_iff c r d, ?_, fun s j => s.settle_eq j _⟩
  · intro hformat
    have hresult : (format c r d).result = .failed (.documentNotFound r.uri) := by rw [hformat]
    obtain ⟨s, h⟩ : ∃ s, Ends c r d (.failed (.documentNotFound r.uri)) s :=
      ⟨_, (ends_iff ..).mpr ⟨hresult, rfl⟩⟩
    cases h with
    | notOpen hopen => exact hopen
  · intro hopen
    simp [format, start, hopen]
  · rw [Outcome.answer_code]
    exact crashed_iff c r d

end FormatServer
