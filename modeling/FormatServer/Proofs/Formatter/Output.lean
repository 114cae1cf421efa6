import FormatServer.Proofs.Formatter.Outcome

/-!
Two runs whose formatters do the same work and put out different bytes. Main statement
(`output_without_consequence`): as long as no line is too long they end alike, on the same disk, and what was
put out shows in the log and in the text of a failure alone. Lines that are too long are what makes a
difference, and nothing else does.
-/

namespace FormatServer

open ScriptStep

/-! ## Runs that end alike -/

/-- Two runs end in the same way, but for what a formatter that failed has said. -/
inductive Outcome.Alike : Outcome → Outcome → Prop where
  | same (o : Outcome) : Alike o o
  | failed (code : Int) (said said' : String) :
      Alike (.failed (.failed code said)) (.failed (.failed code said'))

/-- Two formatters do the same work on a file with some content, each in time: they are started, exit with the
same code and leave the same in the place of the file. -/
structure SameWork (content : List UInt8) (limit : Nat) (one other : Script) : Prop where
  refusal : one.refusal = other.refusal
  inTime : endsBefore limit one.steps = true
  inTime' : endsBefore limit other.steps = true
  exit : exitAfter 0 one.steps = exitAfter 0 other.steps
  file : entryAfter (some (.file content)) one.steps =
    entryAfter (some (.file content)) other.steps

/-! ## The disk after a run -/

/-- **Only a directory is left in the place of a temporary file**, and all else is as before. -/
theorem find?_cleanUp {d : Disk} {p : Path} {l : Location} (h : d.Leads p l) (k : Location) :
    (cleanUp d p).1.find? k =
      if k = l then if d.find? l = some .directory then some .directory else none
      else d.find? k := by
  rw [cleanUp, Disk.remove_of_leads h]
  cases hentry : d.find? l with
  | none =>
    by_cases hk : k = l
    · simp [hk, hentry]
    · simp [hk]
  | some e =>
    cases e with
    | directory =>
      by_cases hk : k = l
      · simp [hk, hentry]
      · simp [hk]
    | file content =>
      rw [Disk.find?_erase d l k h.ne_root]
      simp

/-- **The disk after a play**, when no line was too long: the temporary file is removed after the steps that
were taken. No process is made to end if these are all. -/
theorem disk_play (steps : List ScriptStep) (r : Run) (d : Disk) (left : Nat) (l : Location)
    (heard : OutputStream → List UInt8) (hr : r.process.HasHeard heard)
    (hd : d.Leads r.process.path l) (hlines : firstOverrun heard (taken left steps) = none) :
    ∃ d', d.SameBut l d' ∧ d'.find? l = entryAfter (d.find? l) (taken left steps) ∧
      (play r d left steps).disk = (cleanUp d' r.process.path).1 ∧
      (taken left steps = steps → signals (play r d left steps).events = []) := by
  have hexpire : ∀ (r : Run) (d : Disk), (r.expire d).disk = (cleanUp d r.process.path).1 := by
    intro r d
    unfold Run.expire
    split <;> rfl
  induction steps generalizing r d left heard with
  | nil =>
    refine ⟨d, .refl l d, rfl, rfl, ?_⟩
    simp [play]
  | cons step rest ih =>
    cases step with
    | hang => exact ⟨d, .refl l d, rfl, hexpire r d, by simp [play, taken]⟩
    | sleep ticks =>
      rw [taken] at hlines ⊢
      rw [play]
      split
      · exact ⟨d, .refl l d, rfl, hexpire r d, by simp⟩
      · next hout =>
        rw [if_neg hout] at hlines
        simpa [entryAfter, entryFrom] using ih r d (left - ticks) heard hr hd hlines
    | output s bytes =>
      simp only [taken, firstOverrun] at hlines
      split at hlines
      · next hw =>
        obtain ⟨hheard, hnone⟩ := hr.hear s bytes hw
        have hrec := ih { r with process := (r.process.hear s bytes).process } d left _ hheard
          (by simpa using hd) hlines
        simpa [play, Process.perform, hnone, taken, entryAfter, entryFrom] using hrec
      · exact absurd hlines (by simp)
    | change c =>
      obtain ⟨d', hsame, hentry, hdisk, hsignals⟩ :=
        ih r (d.change r.process.path c) left heard hr (hd.change c) hlines
      refine ⟨d', (Disk.sameBut_change hd c).trans hsame, ?_, ?_, ?_⟩
      · simpa [taken, entryAfter, entryFrom, Disk.find?_change hd] using hentry
      · simpa [play, Process.perform] using hdisk
      · simpa [play, Process.perform, taken] using hsignals
    | exit code =>
      have hrec := ih { r with process := { r.process with exitCode := code } } d left heard
        ⟨hr.reader, hr.within, hr.diagnostics⟩ hd hlines
      simpa [play, Process.perform, taken, entryAfter, entryFrom] using hrec

/-! ## Runs that were started -/

section

variable {c : RunContext} {r : FormatRequest} {d : Disk}

private theorem spawn_script {other : Script} {range : TextRange} {p : Path} {d : Disk}
    {events : List RunEvent} {outcome : Outcome} (h : c.script.refusal = other.refusal)
    (hresult : (spawn c r range p d events).result = .error outcome) :
    spawn { c with script := other } r range p d events = spawn c r range p d events := by
  cases hrefusal : c.script.refusal with
  | some number => simp only [spawn, ← h, hrefusal]
  | none =>
    simp only [spawn, ← h, hrefusal] at hresult ⊢
    cases hcommand : r.settings.command with
    | nil => rfl
    | cons program arguments =>
      simp only [hcommand] at hresult ⊢
      split
      · rfl
      · next hnull =>
        rw [if_neg hnull] at hresult
        exact absurd hresult (by simp)

/-- A run whose start gives no process does not depend on what else its formatter does. -/
private theorem start_script {other : Script} {outcome : Outcome}
    (h : c.script.refusal = other.refusal) (hresult : (start c r d).result = .error outcome) :
    start { c with script := other } r d = start c r d := by
  cases hopen : c.store.find? r.uri with
  | none => simp only [start, hopen]
  | some document =>
    cases hpath : temporaryPath c.directory r.settings c.token r.uri with
    | error e => simp only [start, hopen, hpath]
    | ok p =>
      simp only [start, hopen, hpath] at hresult ⊢
      split
      · rfl
      · next hnull =>
        rw [if_neg hnull] at hresult
        cases hwrite : d.write p (Text.Utf8.encode (document.textIn c.encoding r.range)) with
        | error e => rfl
        | ok d' =>
          simp only [hwrite] at hresult ⊢
          exact spawn_script h hresult

/-- A run whose start gives a process was started. -/
theorem exists_started {run : Run} (h : (start c r d).result = .ok run) :
    ∃ document p d', Started c r d document p d' := by
  unfold start at h
  split at h
  · exact absurd h (by simp)
  · next document hopen =>
    split at h
    · exact absurd h (by simp)
    · next p hpath =>
      dsimp only at h
      split at h
      · exact absurd h (by simp)
      · next hnull =>
        split at h
        · exact absurd h (by simp)
        · next d' hwrite =>
          obtain ⟨hcommand, hwords, haccepted, -⟩ := spawn_started h
          have hgiven : given c r document = Text.Utf8.encode (document.textIn c.encoding r.range) := by
            rw [given]
            cases r.range <;> rfl
          exact ⟨document, p, d', ⟨⟨⟨hopen, hpath⟩, by simpa using hnull, hgiven ▸ hwrite⟩,
            hcommand, hwords, haccepted⟩⟩

/-- A run that was not started does not depend on its formatter. -/
private theorem format_not_started {other : Script} (hrefusal : c.script.refusal = other.refusal)
    (h : ¬ ∃ document p d', Started c r d document p d') :
    format { c with script := other } r d = format c r d := by
  cases hresult : (start c r d).result with
  | error outcome =>
    have hstart := start_script hrefusal hresult
    simp only [format, hstart, hresult]
  | ok run => exact absurd (exists_started hresult) h

/-- The same run with another formatter that can be started too. -/
private theorem Started.script {document : Document} {p : Path} {d' : Disk} {other : Script}
    (h : Started c r d document p d') (hrefusal : c.script.refusal = other.refusal) :
    Started { c with script := other } r d document p d' :=
  ⟨⟨⟨h.isOpen, h.path⟩, h.noNull, h.write⟩, h.command, h.words, hrefusal ▸ h.accepted⟩

/-- **How a formatter that ends in time ends its run**, and what it leaves on the disk. -/
private theorem format_inTime {document : Document} {p : Path} {d' : Disk}
    (h : Started c r d document p d')
    (htime : endsBefore (timeLimit r.settings) c.script.steps = true) :
    (format c r d).result =
      match firstOverrun (fun _ => []) c.script.steps with
      | some cause => .crashed (.line cause)
      | none => finalOutcome (editRange c.encoding document.text r.range) p
          (exitAfter 0 c.script.steps) (outputOn .stderr c.script.steps) (leftEntry c r document) := by
  have hstarted := (format_started h).1
  rwa [takenBefore_eq_self htime, if_pos htime] at hstarted

private theorem disk_inTime {document : Document} {p : Path} {d' : Disk}
    (h : Started c r d document p d')
    (htime : endsBefore (timeLimit r.settings) c.script.steps = true)
    (hlines : firstOverrun (fun _ => []) c.script.steps = none) :
    ∃ l, d'.Leads p l ∧ signals (format c r d).events = [] ∧
      ∀ k, (format c r d).disk.find? k =
        if k = l then
          if leftEntry c r document = some .directory then some .directory else none
        else d'.find? k := by
  obtain ⟨l, hleads, hentry, _⟩ := Disk.leads_of_write h.write
  obtain ⟨hout, htaken⟩ := runs_whole htime
  obtain ⟨d₂, hsame, hentry₂, hdisk, hsignals⟩ := disk_play c.script.steps (firstRun c r document p) d'
    (timeLimit r.settings) l (fun _ => []) (Process.hasHeard_nothing ..) hleads (htaken.symm ▸ hlines)
  rw [htaken, hentry] at hentry₂
  have hformat := format_eq_play h hout
  refine ⟨l, hleads, by simpa [hformat, opening] using hsignals htaken, fun k => ?_⟩
  rw [hformat, hdisk, show (firstRun c r document p).process.path = p from rfl,
    find?_cleanUp (hleads.of_sameBut hsame), hentry₂]
  by_cases hk : k = l
  · simp only [hk, if_true]
    rfl
  · simp only [hk, if_false]
    exact hsame k hk

/-! ## Two runs -/

/-- What was said makes no other difference than in the text of a failure. -/
private theorem alike_finalOutcome (range : TextRange) (p : Path) (code : Int)
    (said said' : List UInt8) (e : Option FileEntry) :
    (finalOutcome range p code said e).Alike (finalOutcome range p code said' e) := by
  by_cases hcode : code = 0
  · subst hcode
    exact .same _
  · simp only [finalOutcome, ne_eq, hcode, not_false_eq_true, if_true]
    exact .failed ..

private theorem finalOutcome_ne_crashed (range : TextRange) (p : Path) (code : Int)
    (said : List UInt8) (e : Option FileEntry) (cause : Crash) :
    finalOutcome range p code said e ≠ .crashed cause := by
  unfold finalOutcome
  split
  · simp
  · split
    · simp
    · simp
    · split <;> simp

private theorem Outcome.Alike.crashed_iff {o o' : Outcome} (h : o.Alike o') (cause : Crash) :
    o = .crashed cause ↔ o' = .crashed cause := by
  cases h with
  | same => rfl
  | failed => simp

/-- Two runs that may have met a line that is too long end alike exactly when they met the same. -/
private theorem alike_iff {x y : Option Overrun} {o o' : Outcome} (halike : o.Alike o')
    (ho : ∀ cause, o ≠ .crashed cause) (ho' : ∀ cause, o' ≠ .crashed cause) :
    Outcome.Alike (match x with | some cause => .crashed (.line cause) | none => o)
      (match y with | some cause => .crashed (.line cause) | none => o') ↔ x = y := by
  constructor
  · intro h
    cases x with
    | none =>
      cases y with
      | none => rfl
      | some cause => exact absurd ((h.crashed_iff _).mpr rfl) (ho _)
    | some cause =>
      have hcause := (h.crashed_iff (.line cause)).mp rfl
      cases y with
      | none => exact absurd hcause (ho' _)
      | some cause' =>
        rw [Outcome.crashed.injEq, Crash.line.injEq] at hcause
        rw [hcause]
  · rintro rfl
    cases x with
    | none => exact halike
    | some cause => exact .same _

/-- **Output is without consequence.** Two formatters do the same work on what the run gives them, each in
time, and put out any bytes in any chunks. While no line is too long, their runs end alike, send no signals
and leave the same on the disk. In any case the same process was started; and the runs end alike exactly when they
never began, or both met no line that is too long, or the first they met was too long in the same way. -/
theorem output_without_consequence (c : RunContext) (r : FormatRequest) (d : Disk) (other : Script)
    (hwork : ∀ document, c.store.find? r.uri = some document →
      SameWork (given c r document) (timeLimit r.settings) c.script other) :
    let first := format c r d
    let second := format { c with script := other } r d
    ((∀ s, withinLimit (outputOn s c.script.steps) = true) →
      (∀ s, withinLimit (outputOn s other.steps) = true) →
        first.result.Alike second.result ∧ signals first.events = [] ∧ signals second.events = [] ∧
          ∀ k, first.disk.find? k = second.disk.find? k) ∧
    spawns first.events = spawns second.events ∧
    (first.result.Alike second.result ↔
      ∀ document p d', Started c r d document p d' →
        firstOverrun (fun _ => []) c.script.steps = firstOverrun (fun _ => []) other.steps) := by
  intro first second
  by_cases hstarted : ∃ document p d', Started c r d document p d'
  · obtain ⟨document, p, d', h⟩ := hstarted
    have hw := hwork document h.isOpen
    have h' := h.script hw.refusal
    have hresult : first.result = _ := format_inTime h hw.inTime
    have hresult' : second.result = _ := format_inTime h' hw.inTime'
    have hleft : leftEntry { c with script := other } r document = leftEntry c r document :=
      hw.file.symm
    rw [hleft, ← hw.exit] at hresult'
    have halike := alike_iff (x := firstOverrun (fun _ => []) c.script.steps)
      (y := firstOverrun (fun _ => []) other.steps)
      (alike_finalOutcome (editRange c.encoding document.text r.range) p
        (exitAfter 0 c.script.steps) (outputOn .stderr c.script.steps)
        (outputOn .stderr other.steps) (leftEntry c r document))
      (finalOutcome_ne_crashed _ _ _ _ _) (finalOutcome_ne_crashed _ _ _ _ _)
    rw [← hresult, ← hresult'] at halike
    refine ⟨fun hlines hlines' => ?_, ?_, ?_⟩
    · rw [← firstOverrun_none_iff] at hlines hlines'
      obtain ⟨l, hleads, hsignals, hdisk⟩ := disk_inTime h hw.inTime hlines
      obtain ⟨l', hleads', hsignals', hdisk'⟩ := disk_inTime h' hw.inTime' hlines'
      have hl : l = l' := Except.ok.inj (hleads.locate_self.symm.trans hleads'.locate_self)
      refine ⟨halike.mpr (hlines.trans hlines'.symm), hsignals, hsignals', fun k => ?_⟩
      rw [hdisk, hdisk', hleft, hl]
    · exact (format_started h).2.trans (format_started h').2.symm
    · exact halike.trans ⟨fun heq _ _ _ _ => heq, fun hall => hall document p d' h⟩
  · have hsame : second = first := by
      cases hopen : c.store.find? r.uri with
      | none => simp [first, second, format, start, hopen]
      | some document => exact format_not_started (hwork document hopen).refusal hstarted
    have hsignals : signals first.events = [] := by
      have hstart := signals_start c r d
      cases hresult : (start c r d).result with
      | error outcome => simpa [first, format, hresult] using hstart
      | ok run => exact absurd (exists_started hresult) hstarted
    rw [hsame]
    exact ⟨fun _ _ => ⟨.same _, hsignals, hsignals, fun _ => rfl⟩, rfl,
      fun _ document p d' h => absurd ⟨document, p, d', h⟩ hstarted, fun _ => .same _⟩

/-- A formatter that says what is no text, in two chunks, and fails, and one that says nothing at all. -/
theorem output_without_consequence_failed :
    let uri := "file:///a.src"
    let c : RunContext := {
      store := ⟨[(Uri.decode uri, ⟨uri, "text", 1, "a"⟩)]⟩, encoding := .utf16,
      directory := .ofString "/tmp", token := tokenOf 0, pid := 4242,
      script := { steps := [.output .stdout [0xFF], .output .stderr [0xC3], .sleep 1,
        .output .stderr [0xA9, 0x0A], .change .delete, .exit 3] } }
    let other : Script := { steps := [.exit 3, .change (.write [0x78]), .change .delete] }
    let r : FormatRequest := { uri, settings := { command := ["fmt"] } }
    let d : Disk := ⟨[([['t', 'm', 'p']], .directory)]⟩
    (format c r d).result.Alike (format { c with script := other } r d).result ∧
      (format c r d).result = .failed (.failed 3 "é\n") := by
  intro uri c other r d
  have hwork : ∀ document, c.store.find? r.uri = some document →
      SameWork (given c r document) (timeLimit r.settings) c.script other :=
    fun document _ => ⟨rfl, by decide +kernel, by decide +kernel, rfl, rfl⟩
  have h := output_without_consequence c r d other hwork
  exact ⟨(h.1 (fun s => by cases s <;> decide +kernel)
    (fun s => by cases s <;> decide +kernel)).1, by decide +kernel⟩

end

end FormatServer
