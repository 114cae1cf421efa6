import FormatServer.Formatter.Run
import FormatServer.Proofs.Disk
import FormatServer.Proofs.Formatter.LineReader

/-!
How the playing of a process ends, said of its script as a whole: of the steps it takes before the time is
up, of all that they put out on a stream, of the exit code and the file that they leave. Main statement
(`result_play`): a line that is too long comes first, then the time limit, then the exit code, then the file.
-/

namespace FormatServer

/-! ## What a script amounts to -/

namespace ScriptStep

def bytesOn (stream : OutputStream) : ScriptStep → List UInt8
  | output s bytes => if s = stream then bytes else []
  | _ => []

def outputOn (stream : OutputStream) (steps : List ScriptStep) : List UInt8 :=
  steps.flatMap (bytesOn stream)

def exitFrom (code : Int) : ScriptStep → Int
  | exit n => n
  | _ => code

/-- The exit code that steps leave: the last one that was set. -/
def exitAfter (code : Int) (steps : List ScriptStep) : Int := steps.foldl exitFrom code

def entryFrom (e : Option FileEntry) : ScriptStep → Option FileEntry
  | change c => c.apply e
  | _ => e

def entryAfter (e : Option FileEntry) (steps : List ScriptStep) : Option FileEntry :=
  steps.foldl entryFrom e

/-- The steps that a process takes while so many ticks are left. -/
def taken (left : Nat) : List ScriptStep → List ScriptStep
  | [] | hang :: _ => []
  | sleep ticks :: rest =>
    if runsOut left ticks then [] else sleep ticks :: taken (left - ticks) rest
  | step :: rest => step :: taken left rest

def duration : List ScriptStep → Option Nat
  | [] => some 0
  | hang :: _ => none
  | sleep ticks :: rest => (duration rest).map (ticks + ·)
  | _ :: rest => duration rest

/-- Steps come to an end before a limit, as far as the clock can tell. -/
def endsBefore (limit : Nat) (steps : List ScriptStep) : Bool :=
  (duration steps).any fun ticks => ticks + clockResolution ≤ limit

def takenBefore (limit : Nat) (steps : List ScriptStep) : List ScriptStep :=
  if runsOut limit 0 then [] else taken limit steps

def heardWith (heard : OutputStream → List UInt8) (step : ScriptStep) (s : OutputStream) :
    List UInt8 := heard s ++ step.bytesOn s

/-- The first overrun that steps make after what was heard before. -/
def firstOverrun (heard : OutputStream → List UInt8) : List ScriptStep → Option Overrun
  | [] => none
  | output s bytes :: rest =>
    if withinLimit (heard s ++ bytes) then firstOverrun (heardWith heard (output s bytes)) rest
    else some (LineReader.overrunOf (heard s ++ bytes))
  | _ :: rest => firstOverrun heard rest

@[simp] theorem outputOn_nil (s : OutputStream) : outputOn s [] = [] := rfl

@[simp] theorem outputOn_cons (s : OutputStream) (step : ScriptStep) (rest : List ScriptStep) :
    outputOn s (step :: rest) = step.bytesOn s ++ outputOn s rest := rfl

/-- **Steps make an overrun exactly when all they put out on a stream is not within the limit**, however
it is cut into chunks. -/
theorem firstOverrun_eq_none (heard : OutputStream → List UInt8) (steps : List ScriptStep)
    (h : ∀ s, withinLimit (heard s) = true) :
    firstOverrun heard steps = none ↔ ∀ s, withinLimit (heard s ++ outputOn s steps) = true := by
  induction steps generalizing heard with
  | nil => simp [firstOverrun, h]
  | cons step rest ih =>
    cases step with
    | output s bytes =>
      rw [firstOverrun]
      split
      · next hw =>
        have hnext : ∀ t, withinLimit (heardWith heard (output s bytes) t) = true := by
          intro t
          by_cases ht : s = t
          · simpa [heardWith, bytesOn, ht] using ht ▸ hw
          · simpa [heardWith, bytesOn, ht] using h t
        rw [ih _ hnext]
        simp [heardWith]
      · next hw =>
        simp only [reduceCtorEq, false_iff]
        intro hall
        have hs := hall s
        rw [outputOn_cons, ← List.append_assoc] at hs
        exact hw (by simpa [bytesOn] using withinLimit_of_append _ _ hs)
    | change c => simpa [firstOverrun, bytesOn] using ih heard h
    | exit code => simpa [firstOverrun, bytesOn] using ih heard h
    | sleep ticks => simpa [firstOverrun, bytesOn] using ih heard h
    | hang => simpa [firstOverrun, bytesOn] using ih heard h

theorem runsOut_iff (left pause : Nat) :
    runsOut left pause = true ↔ left < pause + clockResolution := decide_eq_true_iff

theorem endsBefore_iff (limit : Nat) (steps : List ScriptStep) :
    endsBefore limit steps = true ↔ ∃ ticks, duration steps = some ticks ∧
      ticks + clockResolution ≤ limit := by
  simp only [endsBefore, Option.any_eq_true, decide_eq_true_eq]

/-- **A process takes all its steps exactly when they end in time.** -/
theorem taken_eq_self (left : Nat) (steps : List ScriptStep) (h : clockResolution ≤ left) :
    taken left steps = steps ↔ endsBefore left steps = true := by
  have hout := runsOut_iff
  have hends := endsBefore_iff
  -- How fine the clock is does not matter here.
  generalize clockResolution = resolution at h hout hends
  induction steps generalizing left with
  | nil => simpa [taken, hends, duration] using h
  | cons step rest ih =>
    cases step with
    | sleep ticks =>
      rw [taken]
      split
      · next hlate =>
        have hleft := (hout left ticks).mp hlate
        simp only [List.nil_eq, reduceCtorEq, false_iff, hends, duration, Option.map_eq_some_iff]
        rintro ⟨_, ⟨more, _, rfl⟩, hmore⟩
        omega
      · next hlate =>
        have hleft : ticks + resolution ≤ left := Nat.not_lt.mp (mt (hout left ticks).mpr hlate)
        have hrec := ih (left - ticks) (by omega)
        simp only [List.cons.injEq, true_and, hrec, hends, duration, Option.map_eq_some_iff]
        constructor
        · rintro ⟨more, hmore, htime⟩
          exact ⟨ticks + more, ⟨more, hmore, rfl⟩, by omega⟩
        · rintro ⟨_, ⟨more, hmore, rfl⟩, htime⟩
          exact ⟨more, hmore, by omega⟩
    | output s bytes => simpa [taken, hends, duration] using ih left h
    | change c => simpa [taken, hends, duration] using ih left h
    | exit code => simpa [taken, hends, duration] using ih left h
    | hang => simp [taken, hends, duration]

end ScriptStep

/-! ## What a process has heard -/

open ScriptStep

namespace Process

/-- What a process holds when its reader has heard these bytes on the two streams. -/
structure HasHeard (p : Process) (heard : OutputStream → List UInt8) : Prop where
  reader : ∀ s, p.reader s = LineReader.standing (heard s)
  within : ∀ s, withinLimit (heard s) = true
  diagnostics : p.diagnostics = (cutBytes (heard .stderr)).1.flatMap Text.Utf8.decodeLossy

/-- A process that was just started has heard nothing. -/
theorem hasHeard_nothing (pid : Nat) (path : Path) (killing : Killing) :
    HasHeard { pid, path, killing } fun _ => [] :=
  ⟨fun s => by cases s <;> rfl, fun _ => rfl, rfl⟩

theorem HasHeard.hear {p : Process} {heard : OutputStream → List UInt8} (h : p.HasHeard heard)
    (stream : OutputStream) (bytes : List UInt8)
    (hw : withinLimit (heard stream ++ bytes) = true) :
    (p.hear stream bytes).process.HasHeard (heardWith heard (.output stream bytes)) ∧
      (p.hear stream bytes).overrun = none := by
  have hfeed := LineReader.feed_standing (heard stream) bytes hw
  rw [← h.reader stream] at hfeed
  refine ⟨⟨?_, ?_, ?_⟩, by rw [Process.hear, hfeed]⟩
  · intro s
    have hs := h.reader s
    rw [Process.hear, hfeed]
    cases stream <;> cases s <;> simp_all [setReader, keep, Process.reader, heardWith, bytesOn]
  · intro s
    by_cases hs : stream = s
    · simpa [heardWith, bytesOn, hs] using hs ▸ hw
    · simpa [heardWith, bytesOn, hs] using h.within s
  · rw [Process.hear, hfeed]
    cases stream with
    | stdout => simpa [setReader, keep, heardWith, bytesOn] using h.diagnostics
    | stderr =>
      have hcut := cutBytes_append (heard .stderr) bytes
      simp [setReader, keep, heardWith, bytesOn, hcut, h.diagnostics]

theorem HasHeard.overrun {p : Process} {heard : OutputStream → List UInt8} (h : p.HasHeard heard)
    (stream : OutputStream) (bytes : List UInt8)
    (hw : withinLimit (heard stream ++ bytes) = false) :
    (p.hear stream bytes).overrun = some (LineReader.overrunOf (heard stream ++ bytes)) := by
  rw [Process.hear, h.reader stream]
  exact LineReader.feed_standing_overrun _ _ (h.within stream) hw

/-- **When the streams end, all that came on stderr has been kept.** -/
theorem HasHeard.close {p : Process} {heard : OutputStream → List UInt8} (h : p.HasHeard heard) :
    p.close.1.diagnostics = Text.Utf8.decodeLossy (heard .stderr) := by
  have hout := h.reader .stdout
  have herr := h.reader .stderr
  have hfinish := finish_standing (heard .stderr)
  simp only [Process.reader] at hout herr
  rw [← flatMap_decodeLossy_streamLines, streamLines, List.flatMap_append, ← hfinish, ← h.diagnostics]
  simp [Process.close, hearEnd, Process.reader, setReader, keep, herr]

@[simp] theorem path_hear (p : Process) (stream : OutputStream) (bytes : List UInt8) :
    (p.hear stream bytes).process.path = p.path := by
  cases stream <;> rfl

@[simp] theorem exitCode_hear (p : Process) (stream : OutputStream) (bytes : List UInt8) :
    (p.hear stream bytes).process.exitCode = p.exitCode := by
  cases stream <;> rfl

@[simp] theorem killable_hear (p : Process) (stream : OutputStream) (bytes : List UInt8) :
    (p.hear stream bytes).process.killable = p.killable := by
  cases stream <;> rfl

@[simp] theorem killable_setExit (p : Process) (code : Int) :
    { p with exitCode := code }.killable = p.killable := rfl

@[simp] theorem path_close (p : Process) : p.close.1.path = p.path := rfl

@[simp] theorem exitCode_close (p : Process) : p.close.1.exitCode = p.exitCode := rfl

end Process

/-! ## The end of a run -/

def finalOutcome (range : TextRange) (path : Path) (code : Int) (stderr : List UInt8)
    (e : Option FileEntry) : Outcome :=
  if code ≠ 0 then .failed (.failed code (String.ofList (Text.Utf8.decodeLossy stderr)))
  else match e with
    | none => .failed (.temporaryFile path.toString (DiskError.notFound.message path))
    | some .directory => .failed (.temporaryFile path.toString (DiskError.isDirectory.message path))
    | some (.file content) =>
      match Text.Utf8.decode content with
      | .error e => .failed (.temporaryFile path.toString e.message)
      | .ok text => .edits [⟨range, String.ofList text⟩]

def lateOutcome (killable : Bool) (s : Settings) : Outcome :=
  if killable then .failed (.timeout s.timeout) else .crashed .forbidden

@[simp] theorem result_endWith {α : Type} (result : α) (d : Disk) (p : Path)
    (events : List RunEvent) : (endWith result d p events).result = result := rfl

private theorem result_conclude (r : Run) (d : Disk) (l : Location)
    (heard : OutputStream → List UInt8) (hr : r.process.HasHeard heard)
    (hd : d.Leads r.process.path l) :
    (r.close.1.conclude d).result =
      finalOutcome r.range r.process.path r.process.exitCode (heard .stderr) (d.find? l) := by
  have hread := Disk.read_of_leads hd
  simp only [Run.conclude, Run.close, result_endWith, Process.exitCode_close, hr.close, finalOutcome]
  split
  · rfl
  · simp only [Run.readBack, Process.path_close, hread]
    cases d.find? l with
    | none => rfl
    | some e => cases e <;> rfl

@[simp] theorem result_expire (r : Run) (d : Disk) :
    (r.expire d).result = lateOutcome r.process.killable r.request.settings := by
  unfold Run.expire lateOutcome
  split <;> rfl

@[simp] theorem result_expireBefore (r : Run) (d : Disk) (steps : List ScriptStep) :
    (r.expireBefore d steps).result = lateOutcome r.process.killable r.request.settings := by
  unfold Run.expireBefore
  split <;> simp

/-- **How the playing of a process ends.** -/
theorem result_play (steps : List ScriptStep) (r : Run) (d : Disk) (left : Nat) (l : Location)
    (heard : OutputStream → List UInt8) (hr : r.process.HasHeard heard)
    (hd : d.Leads r.process.path l) :
    (play r d left steps).result =
      match firstOverrun heard (taken left steps) with
      | some cause => .crashed (.line cause)
      | none =>
        if taken left steps = steps then
          finalOutcome r.range r.process.path (exitAfter r.process.exitCode steps)
            (heard .stderr ++ outputOn .stderr steps) (entryAfter (d.find? l) steps)
        else lateOutcome r.process.killable r.request.settings := by
  -- The induction carries what was heard and the disk along with the process.
  induction steps generalizing r d left heard with
  | nil => simpa [play, taken, firstOverrun, exitAfter, entryAfter] using result_conclude r d l heard hr hd
  | cons step rest ih =>
    cases step with
    | hang => simp [play, taken, firstOverrun]
    | sleep ticks =>
      rw [play, taken]
      split
      · simp [firstOverrun]
      · simpa [firstOverrun, exitAfter, exitFrom, entryAfter, entryFrom, bytesOn] using
          ih r d (left - ticks) heard hr hd
    | output s bytes =>
      simp only [play, Process.perform, taken, firstOverrun]
      cases hw : withinLimit (heard s ++ bytes) with
      | false => simp [hr.overrun s bytes hw, Run.overrun]
      | true =>
        obtain ⟨hheard, hnone⟩ := hr.hear s bytes hw
        have hrec := ih { r with process := (r.process.hear s bytes).process } d left _ hheard
          (by simpa using hd)
        simpa [hnone, exitAfter, exitFrom, entryAfter, entryFrom, heardWith, bytesOn] using hrec
    | change c =>
      have hrec := ih r (d.change r.process.path c) left heard hr (hd.change c)
      simpa [play, Process.perform, taken, firstOverrun, exitAfter, exitFrom, entryAfter, entryFrom,
        bytesOn, Disk.find?_change hd] using hrec
    | exit code =>
      have hrec := ih { r with process := { r.process with exitCode := code } } d left heard
        ⟨hr.reader, hr.within, hr.diagnostics⟩ hd
      simpa [play, Process.perform, taken, firstOverrun, exitAfter, exitFrom, entryAfter, entryFrom,
        bytesOn] using hrec

end FormatServer
