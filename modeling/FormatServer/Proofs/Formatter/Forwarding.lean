import FormatServer.Proofs.Formatter.TemporaryFile

/-!
What the log is told of a formatter's output. Main statement (`output_forwarded`): of a formatter that ends in
time the log gets every line that came on each of its streams, in the order in which it came there, then its exit
code, and nothing else of it. Which lines these are depends on the bytes of a stream alone (`Lined`), not on
the chunks in which they came nor on what came on the other stream in between.
-/

namespace FormatServer

open ScriptStep

/-! ## The lines of a stream -/

/-- The bytes of a stream that has ended, and its lines: each ends with the only line feed that it holds, but
for a last one that holds none. -/
inductive Lined : List UInt8 → List (List UInt8) → Prop where
  | nothing : Lined [] []
  | tail {rest : List UInt8} (hne : rest ≠ []) (hnone : 0x0A ∉ rest) : Lined rest [rest]
  | line {body rest : List UInt8} {lines : List (List UInt8)} (hnone : 0x0A ∉ body)
      (h : Lined rest lines) : Lined (body ++ 0x0A :: rest) ((body ++ [0x0A]) :: lines)

private theorem streamLines_cons (b : UInt8) (rest : List UInt8) :
    streamLines (b :: rest) =
      if b = 0x0A then [b] :: streamLines rest
      else match streamLines rest with
        | [] => [[b]]
        | line :: more => (b :: line) :: more := by
  rcases hcut : cutBytes rest with ⟨_ | ⟨line, more⟩, tail⟩
  · by_cases hb : b = 0x0A
    · simp [streamLines, cutBytes, hcut, hb]
    · cases tail <;> simp [streamLines, cutBytes, hcut, hb]
  · by_cases hb : b = 0x0A <;> simp [streamLines, cutBytes, hcut, hb]

/-- The lines that are read of a stream are its lines. -/
theorem lined_streamLines (bytes : List UInt8) : Lined bytes (streamLines bytes) := by
  induction bytes with
  | nil => exact .nothing
  | cons b rest ih =>
    rw [streamLines_cons]
    split
    · next hb => exact hb ▸ @Lined.line [] rest _ (by simp) ih
    · next hb =>
      generalize streamLines rest = lines at ih
      cases ih with
      | nothing => exact .tail (by simp) (by simpa using Ne.symm hb)
      | tail hne hnone => exact .tail (by simp) (by simp [Ne.symm hb, hnone])
      | @line body _ _ hnone h => exact @Lined.line (b :: body) _ _ (by simp [Ne.symm hb, hnone]) h

/-- **A stream has lines in one way**, and so they are read. -/
theorem lined_iff (bytes : List UInt8) (lines : List (List UInt8)) :
    Lined bytes lines ↔ streamLines bytes = lines := by
  constructor
  · intro h
    induction h with
    | nothing => rfl
    | tail hne hnone =>
      have hcut := cutBytes_append_of_not_mem _ [] hnone
      rw [List.append_nil] at hcut
      simp [streamLines, hcut, cutBytes, hne]
    | @line body rest lines hnone h ih =>
      have hcut := cutBytes_append_of_not_mem body (0x0A :: rest) hnone
      simp only [cutBytes, if_true] at hcut
      rw [← ih]
      simp [streamLines, hcut]
  · rintro rfl
    exact lined_streamLines bytes

/-- What is read of a stream: what its line feeds complete, then what its end does. -/
private theorem streamLines_eq (bytes : List UInt8) :
    streamLines bytes = (cutBytes bytes).1 ++ ((LineReader.standing bytes).finish).2 := by
  rw [finish_standing]
  rfl

/-! ## Log entries -/

def forwarded (line : OutputStream × List UInt8) : RunEvent :=
  .logged .log (Process.logEntry line.1 line.2)

def linesOn (stream : OutputStream) (lines : List (OutputStream × List UInt8)) : List (List UInt8) :=
  (lines.filter (·.1 = stream)).map Prod.snd

@[simp] theorem linesOn_append (stream : OutputStream) (a b : List (OutputStream × List UInt8)) :
    linesOn stream (a ++ b) = linesOn stream a ++ linesOn stream b := by
  simp [linesOn]

@[simp] theorem linesOn_map (stream s : OutputStream) (lines : List (List UInt8)) :
    linesOn stream (lines.map (s, ·)) = if s = stream then lines else [] := by
  induction lines with
  | nil => simp [linesOn]
  | cons line rest ih =>
    by_cases hs : s = stream
    · simpa [linesOn, hs] using ih
    · simp [linesOn, hs]

theorem map_forwarded (s : OutputStream) (lines : List (List UInt8)) :
    (lines.map (s, ·)).map forwarded = outputEvents (lines.map (Process.logEntry s)) := by
  simp [forwarded, outputEvents, Function.comp_def]

def exited (code : Int) : RunEvent :=
  .logged .log ("Formatter exited with code " ++ writtenInt code)

/-- The log entry about an entry that is left in the place of a temporary file: there is one if it cannot be
removed. -/
def removal (p : Path) (e : Option FileEntry) : List RunEvent :=
  if e = some .directory then [unremoved p .isDirectory] else []

def tellsExit : RunEvent → Bool
  | .logged _ text => "Formatter exited with code".toList.isPrefixOf text.toList
  | _ => false

@[simp] theorem tellsExit_exited (code : Int) : tellsExit (exited code) = true := by
  simp [tellsExit, exited]

@[simp] theorem tellsExit_forwarded (line : OutputStream × List UInt8) :
    tellsExit (forwarded line) = false := by
  obtain ⟨stream, bytes⟩ := line
  cases stream <;> simp [tellsExit, forwarded, Process.logEntry, OutputStream.name, List.isPrefixOf]

@[simp] theorem tellsExit_opening (r : FormatRequest) (p : Path) :
    tellsExit (opening r p) = false := by
  simp [tellsExit, opening, List.isPrefixOf]

@[simp] theorem tellsExit_spawned (command : List String) (content : List UInt8) :
    tellsExit (.spawned command content) = false := rfl

@[simp] theorem tellsExit_unremoved (p : Path) (e : DiskError) :
    tellsExit (unremoved p e) = false := by
  simp [tellsExit, unremoved, List.isPrefixOf]

/-! ## What a process logs -/

namespace Process

variable {p : Process} {heard : OutputStream → List UInt8}

/-- A chunk logs the lines that it completes. -/
theorem HasHeard.logs_hear (h : p.HasHeard heard) (stream : OutputStream) (bytes : List UInt8)
    (hw : withinLimit (heard stream ++ bytes) = true) :
    (p.hear stream bytes).logs =
      (cutBytes ((cutBytes (heard stream)).2 ++ bytes)).1.map (logEntry stream) := by
  rw [Process.hear, h.reader stream, LineReader.feed_standing _ _ hw]

/-- The end of the streams logs what is left of each. -/
theorem HasHeard.logs_close (h : p.HasHeard heard) :
    p.close.2 = ((LineReader.standing (heard .stdout)).finish).2.map (logEntry .stdout) ++
      ((LineReader.standing (heard .stderr)).finish).2.map (logEntry .stderr) := by
  have hout := h.reader .stdout
  have herr := h.reader .stderr
  simp only [Process.reader] at hout herr
  simp [Process.close, hearEnd, Process.reader, setReader, keep, hout, herr]

end Process

private theorem events_conclude (r : Run) (d : Disk) {l : Location} (hd : d.Leads r.process.path l) :
    (r.conclude d).events = exited r.process.exitCode :: removal r.process.path (d.find? l) := by
  rw [Run.conclude, events_endWith, cleanUp_of_leads hd]
  rfl

/-- **What a process that ends in time logs**, after some bytes were heard: the lines that these bytes have
completed were logged before. -/
theorem events_play (steps : List ScriptStep) (r : Run) (d : Disk) (left : Nat) (l : Location)
    (heard : OutputStream → List UInt8) (hr : r.process.HasHeard heard)
    (hd : d.Leads r.process.path l) (hlines : ∀ s, withinLimit (heard s ++ outputOn s steps) = true)
    (htaken : taken left steps = steps) :
    ∃ lines : List (OutputStream × List UInt8),
      (play r d left steps).events = lines.map forwarded ++
        exited (exitAfter r.process.exitCode steps) ::
          removal r.process.path (entryAfter (d.find? l) steps) ∧
      ∀ s, (cutBytes (heard s)).1 ++ linesOn s lines = streamLines (heard s ++ outputOn s steps) := by
  -- A chunk may end inside a line, so the induction carries what was heard and not what was logged.
  induction steps generalizing r d left heard with
  | nil =>
    have hconclude : (r.close.1.conclude d).events =
        exited r.process.exitCode :: removal r.process.path (d.find? l) :=
      events_conclude r.close.1 d hd
    refine ⟨((LineReader.standing (heard .stdout)).finish).2.map (.stdout, ·) ++
      ((LineReader.standing (heard .stderr)).finish).2.map (.stderr, ·), ?_, fun s => ?_⟩
    · change outputEvents r.process.close.2 ++ (r.close.1.conclude d).events = _
      rw [hconclude, hr.logs_close, List.map_append, map_forwarded, map_forwarded, outputEvents,
        List.map_append]
      rfl
    · cases s <;> simp [streamLines_eq]
  | cons step rest ih =>
    cases step with
    | hang => simp [taken] at htaken
    | sleep ticks =>
      rw [taken] at htaken
      split at htaken
      · exact absurd htaken (by simp)
      · next hout =>
        rw [play, if_neg hout]
        exact ih r d (left - ticks) heard hr hd hlines (List.cons.inj htaken).2
    | output s bytes =>
      have hw : withinLimit (heard s ++ bytes) = true :=
        withinLimit_of_append _ (outputOn s rest) (by simpa [bytesOn] using hlines s)
      obtain ⟨hheard, hnone⟩ := hr.hear s bytes hw
      obtain ⟨lines, hevents, hon⟩ := ih { r with process := (r.process.hear s bytes).process } d left _
        hheard (by simpa using hd) (fun t => by simpa [heardWith] using hlines t)
        (by simpa [taken] using htaken)
      refine ⟨(cutBytes ((cutBytes (heard s)).2 ++ bytes)).1.map (s, ·) ++ lines, ?_, fun t => ?_⟩
      · rw [List.map_append, map_forwarded]
        simp [play, Process.perform, hnone, hr.logs_hear s bytes hw, hevents, exitAfter, exitFrom,
          entryAfter, entryFrom]
      · have ht := hon t
        by_cases hs : s = t
        · subst hs
          simpa [heardWith, bytesOn, cutBytes_append (heard s) bytes] using ht
        · simpa [heardWith, bytesOn, hs] using ht
    | change c =>
      have hrec := ih r (d.change r.process.path c) left heard hr (hd.change c) hlines
        (by simpa [taken] using htaken)
      simpa [play, Process.perform, outputEvents, exitAfter, exitFrom, entryAfter, entryFrom, bytesOn,
        Disk.find?_change hd] using hrec
    | exit code =>
      have hrec := ih { r with process := { r.process with exitCode := code } } d left heard
        ⟨hr.reader, hr.within, hr.diagnostics⟩ hd hlines (by simpa [taken] using htaken)
      simpa [play, Process.perform, outputEvents, exitAfter, exitFrom, entryAfter, entryFrom,
        bytesOn] using hrec

/-! ## What a run logs -/

section

variable {c : RunContext} {r : FormatRequest} {d : Disk} {document : Document} {p : Path} {d' : Disk}

/-- **What the run of a formatter that ends in time logs**, from its first entry to its last. -/
private theorem events_finished (h : Finished c r d document p d') :
    ∃ lines : List (OutputStream × List UInt8),
      (format c r d).events =
        [opening r p, .spawned (commandLine r.settings p) (given c r document)] ++
          (lines.map forwarded ++
            exited (exitAfter 0 c.script.steps) :: removal p (leftEntry c r document)) ∧
      ∀ s, linesOn s lines = streamLines (outputOn s c.script.steps) := by
  obtain ⟨l, hleads, hentry, _⟩ := Disk.leads_of_write h.write
  obtain ⟨hout, htaken⟩ := runs_whole h.inTime
  obtain ⟨lines, hevents, hon⟩ := events_play c.script.steps (firstRun c r document p) d'
    (timeLimit r.settings) l (fun _ => []) (Process.hasHeard_nothing ..) hleads h.lines htaken
  rw [hentry] at hevents
  refine ⟨lines, ?_, fun s => by simpa [cutBytes] using hon s⟩
  simp only [format_eq_play h.toStarted hout, hevents]
  rfl

end

end FormatServer
