import FormatServer.Proofs.Formatter.TemporaryFile
import FormatServer.Proofs.Lookup
import FormatServer.Proofs.Session.History

/-!
A formatting request by itself. Once its run has begun, what becomes of a request is a matter of its own moves,
of its process and of the entry in the place of its file (`Job.moved`): this is what the session's turns do with
it (`Session.makes_moved`), wherever else the disk differs it comes to the same (`sameAt_moved`), and when its
moves come as the clock has them it ends as a run with nothing else going on (`run_schedule`).
-/

namespace FormatServer

open Session ScriptStep

/-! ## Moves of a request -/

inductive OwnMove where
  /-- its next phase -/
  | advance
  /-- the pause of its process is over -/
  | wake
  /-- its time is up -/
  | expire
  /-- the client withdraws it -/
  | withdraw
  deriving DecidableEq, Repr

/-- A request after one of its moves. -/
structure Moved where
  /-- nothing when the request has been answered -/
  job : Option Job
  disk : Disk
  events : List SessionEvent := []
  /-- a process that goes on without the request -/
  left : Option Orphan := none

/-- What a move does comes after these events. -/
def Moved.after (m : Moved) (events : List RunEvent) : Moved :=
  { m with events := events.map eventOf ++ m.events }

def Outcome.entries : Outcome → List SessionEvent
  | failed e => [.sent (.log .error e.message)]
  | _ => []

@[simp] theorem Outcome.silent_entries (o : Outcome) : Silent o.entries := by
  cases o with
  | failed e => simp [Outcome.entries, unremoved, eventOf]
  | _ => exact silent_nil

namespace Job

def begun (j : Job) : Bool :=
  match j.phase with
  | .starting _ _ _ | .playing _ _ | .pausing _ _ | .ending _ _ _ | .closed _ | .done _ => true
  | .accepted | .asking | .answered _ => false

def path? (j : Job) : Option Path :=
  match j.phase with
  | .starting run _ _ | .playing run _ | .pausing run _ | .ending run _ _ | .closed run =>
    some run.process.path
  | _ => none

def enters (j : Job) (p : Phase) (d : Disk) (events : List RunEvent) : Moved :=
  { job := some { j with phase := p }, disk := d, events := events.map eventOf }

def ends (j : Job) (stage : Stage Outcome) : Moved where
  job := some { j with phase := .done stage.result.answer }
  disk := stage.disk
  events := stage.events.map eventOf ++ stage.result.entries

/-- The process of a request has performed a step. After a line that was too long it goes on without the request. -/
def performed (j : Job) (run : Run) (rest : List ScriptStep) (done : Process.Performed) : Moved :=
  let run := { run with process := done.process }
  match done.overrun with
  | none => j.enters (.playing run rest) done.disk (outputEvents done.logs)
  | some cause =>
    { (j.ends (run.overrun done.disk cause)).after (outputEvents done.logs) with
      left := some { process := run.process, steps := rest } }

def plays (j : Job) (run : Run) (d : Disk) : List ScriptStep → Moved
  | [] => j.enters (.closed run.close.1) d run.close.2
  | .hang :: rest | .sleep _ :: rest => j.enters (.pausing run rest) d []
  | step :: rest => j.performed run rest (run.process.perform d step)

def resigns (j : Job) (stage : Stage Unit) : Moved :=
  j.enters (.done (.error (.cancelled j.id))) stage.disk stage.events

def parts (j : Job) (run : Run) (d : Disk) : Farewell → Moved
  | .expired => j.ends (run.timeOut d)
  | .withdrawn => j.resigns (run.abandon d)
  | .unconnected => j.resigns (run.leave d)

def buries (j : Job) (run : Run) (why : Farewell) (d : Disk) : Nat → Moved
  | 0 => j.parts run d why
  | turns + 1 => j.enters (.ending run why turns) d []

/-- A request tells its process to end. A process that may not be told goes on without the request. -/
def kills (j : Job) (run : Run) (steps : List ScriptStep) (why : Farewell) (d : Disk) : Moved :=
  if run.process.killable then
    (j.buries run why d run.process.killing.turns).after [run.signal why]
  else
    { j.ends (run.spare d why) with
      left := some { process := run.process, steps, heard := false } }

/-- The phase of a request whose process is started and whose output is connected after so many turns. -/
def firstPhase (run : Run) (steps : List ScriptStep) : Nat → Phase
  | 0 => if runsOut (timeLimit run.request.settings) 0 then .pausing run steps else .playing run steps
  | turns + 1 => .starting run steps turns

def leaves (j : Job) (r : Response) (d : Disk) : Moved where
  job := none
  disk := d
  events := [.sent (.response j.id r)]

def advances (j : Job) (d : Disk) : Moved :=
  match j.phase, j.cancelled with
  | .done r, _ => j.leaves r d
  | .closed run, _ => j.ends (run.conclude d)
  | .ending run .withdrawn turns, _ => j.buries run .withdrawn d turns
  | .ending run .unconnected turns, _ => j.buries run .unconnected d turns
  | .ending run .expired _, true => j.resigns (run.leave d)
  | .ending run .expired turns, false => j.buries run .expired d turns
  | .starting run steps _, true => j.kills run steps .unconnected d
  | .starting run steps turns, false => j.enters (firstPhase run steps turns) d []
  | .playing run steps, true | .pausing run steps, true => j.kills run steps .withdrawn d
  | .playing run steps, false => j.plays run d steps
  | _, _ => { job := some j, disk := d }

/-- What a move makes of a request whose run has begun, on a disk. -/
def moved (j : Job) (d : Disk) : OwnMove → Moved
  | .advance => j.advances d
  | .wake =>
    match j.phase with
    | .pausing run steps => j.plays run d steps
    | _ => { job := some j, disk := d }
  | .expire =>
    match j.phase, j.cancelled with
    | .playing run steps, false | .pausing run steps, false => j.kills run steps .expired d
    | _, _ => { job := some j, disk := d }
  | .withdraw => { job := some { j with cancelled := true }, disk := d }

theorem path?_firstPhase (j : Job) (run : Run) (steps : List ScriptStep) (turns : Nat) :
    ({ j with phase := firstPhase run steps turns } : Job).path? = some run.process.path := by
  cases turns with
  | zero =>
    rw [firstPhase]
    split <;> rfl
  | succ turns => rfl

def asks (j : Job) (token : String) (d : Disk) : Moved where
  job := some { j with phase := .asking }
  disk := d
  events := [.sent (.configuration token j.uri)]

def starts (j : Job) (c : RunContext) (settings : Settings) (d : Disk) : Moved :=
  let stage := start c { uri := j.uri, range := j.range, settings } d
  match stage.result with
  | .error o => j.ends { result := o, disk := stage.disk, events := stage.events }
  | .ok run => j.enters (firstPhase run c.script.steps c.script.startup) stage.disk stage.events

section

variable {j : Job} {c : RunContext} {settings : Settings} {d : Disk}

theorem starts_error {o : Outcome}
    (h : (start c { uri := j.uri, range := j.range, settings } d).result = .error o) :
    let stage := start c { uri := j.uri, range := j.range, settings } d
    j.starts c settings d = j.ends { result := o, disk := stage.disk, events := stage.events } := by
  simp only [starts, h]

theorem starts_ok {run : Run}
    (h : (start c { uri := j.uri, range := j.range, settings } d).result = .ok run) :
    let stage := start c { uri := j.uri, range := j.range, settings } d
    let phase := firstPhase run c.script.steps c.script.startup
    j.starts c settings d = j.enters phase stage.disk stage.events ∧
      ({ j with phase } : Job).path? = some run.process.path :=
  ⟨by simp only [starts, h], path?_firstPhase j run c.script.steps c.script.startup⟩

end

theorem begun_of_path? {j : Job} {p : Path} (h : j.path? = some p) : j.begun = true := by
  unfold path? at h
  unfold begun
  split at h <;> simp_all

end Job

/-! ## What the turns of a session do -/

namespace Session

/-- A session makes a move of one request, and of no other. -/
structure Makes (s : Session) (number : Nat) (m : Moved) (s' : Session) : Prop where
  job : s'.job? number = m.job
  others : ∀ k, k ≠ number → s'.job? k = s.job? k
  disk : s'.disk = m.disk
  trace : s'.trace = s.trace ++ m.events
  orphans : s'.orphans = s.orphans ++ m.left.toList
  nextJob : s'.nextJob = s.nextJob

variable {s s' : Session} {j j₀ : Job} {n : Nat}

theorem number_of_job? (h : s.job? n = some j) : j.number = n := by
  simpa using List.find?_some h

theorem job?_setJob (s : Session) (j : Job) (k : Nat) :
    (s.setJob j).job? k = if k = j.number then (s.job? k).map fun _ => j else s.job? k := by
  unfold setJob job?
  dsimp only
  induction s.jobs with
  | nil => simp
  | cons old rest ih =>
    rw [List.map_cons, List.find?_cons, List.find?_cons]
    by_cases hold : old.number = j.number
    · rw [if_pos hold]
      by_cases hk : k = j.number
      · simp [hold, hk]
      · simpa [hold, Ne.symm hk, hk] using ih
    · rw [if_neg hold]
      by_cases hk : old.number = k
      · have hne : k ≠ j.number := fun he => hold (hk.trans he)
        simp [hk, hne]
      · simpa [hk] using ih

/-! ### Steps of turns -/

private theorem makes_setJob (hj : s.job? j.number = some j₀) (hjobs : s'.jobs = (s.setJob j).jobs)
    (hdisk : s'.disk = s.disk) (htrace : s'.trace = s.trace) (horphans : s'.orphans = s.orphans)
    (hnext : s'.nextJob = s.nextJob) :
    s.Makes j.number { job := some j, disk := s.disk } s' := by
  have hjob : ∀ k, s'.job? k = if k = j.number then (s.job? k).map fun _ => j else s.job? k := by
    intro k
    rw [← job?_setJob, job?, job?, hjobs]
  refine ⟨?_, fun k hk => ?_, hdisk, ?_, ?_, hnext⟩
  · rw [hjob, if_pos rfl, hj, Option.map_some]
  · rw [hjob, if_neg hk]
  · rw [htrace, List.append_nil]
  · rw [horphans]
    exact (List.append_nil _).symm

theorem makes_proceed (hj : s.job? j.number = some j₀) (p : Phase) :
    s.Makes j.number (j.enters p s.disk []) (s.proceed j p) :=
  makes_setJob (j := { j with phase := p }) hj rfl rfl rfl rfl rfl

/-- What a run did on the disk and its events come first. -/
private theorem Makes.absorb {d : Disk} {events : List RunEvent} {m : Moved}
    (h : (s.absorb d events).Makes n m s') :
    s.Makes n { m with events := events.map eventOf ++ m.events } s' where
  job := h.job
  others := h.others
  disk := h.disk
  trace := by rw [h.trace, Session.absorb, List.append_assoc]
  orphans := h.orphans
  nextJob := h.nextJob

private theorem makes_enters (hj : s.job? j.number = some j₀) (p : Phase) (d : Disk)
    (events : List RunEvent) :
    s.Makes j.number (j.enters p d events) ((s.absorb d events).proceed j p) := by
  have h := (makes_proceed (s := s.absorb d events) hj p).absorb
  rwa [show (j.enters p (s.absorb d events).disk []).events = [] from rfl, List.append_nil] at h

theorem makes_settle (hj : s.job? j.number = some j₀) (o : Outcome) :
    s.Makes j.number (j.ends ⟨o, s.disk, []⟩) (s.settle j o) := by
  cases o with
  | edits edits => exact makes_proceed hj _
  | failed e =>
    have h := makes_proceed (s := s.log .error e.message) hj (.done (.error (.formatting e)))
    exact ⟨h.job, h.others, h.disk, h.trace.trans (List.append_nil _), h.orphans, h.nextJob⟩
  | crashed c => exact makes_proceed hj _

/-- A run that ends settles its request. -/
private theorem makes_ends (hj : s.job? j.number = some j₀) (stage : Stage Outcome) :
    s.Makes j.number (j.ends stage) ((s.absorb stage.disk stage.events).settle j stage.result) :=
  (makes_settle (s := s.absorb stage.disk stage.events) hj stage.result).absorb

/-- A process goes on without its request. -/
private theorem Makes.abandon {m : Moved} (h : s.Makes n m s') (hnone : m.left = none) (o : Orphan) :
    s.Makes n { m with left := some o } (s'.abandon o) where
  job := h.job
  others := h.others
  disk := h.disk
  trace := h.trace
  orphans := by rw [Session.abandon, Session.enqueue, h.orphans, hnone, Option.toList_none, List.append_nil]; rfl
  nextJob := h.nextJob

private theorem makes_performed (hj : s.job? j.number = some j₀) (run : Run) (rest : List ScriptStep)
    (done : Process.Performed) : s.Makes j.number (j.performed run rest done) (s.performed j run rest done) := by
  unfold Job.performed Session.performed
  cases done.overrun with
  | none => exact makes_enters hj _ _ _
  | some cause =>
    have h := (makes_ends (s := s.absorb done.disk (outputEvents done.logs)) hj
      (({ run with process := done.process } : Run).overrun done.disk cause)).absorb
    exact h.abandon rfl _

private theorem makes_playStep (hj : s.job? j.number = some j₀) (run : Run)
    (steps : List ScriptStep) :
    s.Makes j.number (j.plays run s.disk steps) (s.playStep j run steps) := by
  cases steps with
  | nil => exact makes_enters hj (.closed run.close.1) s.disk run.close.2
  | cons step rest =>
    cases step with
    | hang =>
      exact makes_setJob (j := { j with phase := .pausing run rest }) hj rfl rfl rfl rfl rfl
    | sleep ticks =>
      exact makes_setJob (j := { j with phase := .pausing run rest }) hj rfl rfl rfl rfl rfl
    | output stream bytes => exact makes_performed hj run rest (run.process.perform s.disk (.output stream bytes))
    | change c => exact makes_performed hj run rest (run.process.perform s.disk (.change c))
    | exit code => exact makes_performed hj run rest (run.process.perform s.disk (.exit code))

private theorem makes_resign (hj : s.job? j.number = some j₀) (stage : Stage Unit) :
    s.Makes j.number (j.resigns stage) (s.resign j stage) :=
  makes_enters hj _ _ _

private theorem makes_part (hj : s.job? j.number = some j₀) (run : Run) (why : Farewell) :
    s.Makes j.number (j.parts run s.disk why) (s.part j run why) := by
  cases why with
  | expired => exact makes_ends hj _
  | withdrawn => exact makes_resign hj _
  | unconnected => exact makes_resign hj _

private theorem makes_bury (hj : s.job? j.number = some j₀) (run : Run) (why : Farewell)
    (turns : Nat) : s.Makes j.number (j.buries run why s.disk turns) (s.bury j run why turns) := by
  cases turns with
  | zero => exact makes_part hj run why
  | succ turns => exact makes_proceed hj _

private theorem makes_kill (hj : s.job? j.number = some j₀) (run : Run) (steps : List ScriptStep)
    (why : Farewell) :
    s.Makes j.number (j.kills run steps why s.disk) (s.kill j run steps why) := by
  unfold Job.kills kill
  split
  · exact (makes_bury (s := s.absorb s.disk [run.signal why]) hj run why _).absorb
  · exact (makes_ends hj (run.spare s.disk why)).abandon rfl _

private theorem makes_connect (hj : s.job? j.number = some j₀) (run : Run)
    (steps : List ScriptStep) (turns : Nat) :
    s.Makes j.number (j.enters (Job.firstPhase run steps turns) s.disk [])
      (s.connect j run steps turns) := by
  cases turns with
  | zero =>
    have hlimit : run.request.settings.timeout.ticks?.getD 0 = timeLimit run.request.settings := rfl
    rw [Job.firstPhase, connect, launch, hlimit]
    split
    · exact makes_setJob (j := { j with phase := .pausing run steps }) hj rfl rfl rfl rfl rfl
    · exact makes_setJob (j := { j with phase := .playing run steps }) hj rfl rfl rfl rfl rfl
  | succ turns => exact makes_proceed hj _

theorem makes_nothing (hj : s.job? n = some j) :
    s.Makes n { job := some j, disk := s.disk } s where
  job := hj
  others _ _ := rfl
  disk := rfl
  trace := (List.append_nil _).symm
  orphans := (List.append_nil _).symm
  nextJob := rfl

private theorem makes_finish (j : Job) (r : Response) :
    s.Makes j.number (j.leaves r s.disk) (s.finish j r) where
  job := (find?_filter_ne Job.number s.jobs j.number j.number).trans (if_pos rfl)
  others k hk := (find?_filter_ne Job.number s.jobs j.number k).trans (if_neg hk)
  disk := rfl
  trace := rfl
  orphans := (List.append_nil _).symm
  nextJob := rfl

private theorem makes_advances (hj : s.job? j.number = some j) (hbegun : j.begun = true) :
    s.Makes j.number (j.advances s.disk) (s.advance j) := by
  unfold Job.begun at hbegun
  unfold Job.advances advance
  cases hphase : j.phase with
  | accepted => simp [hphase] at hbegun
  | asking => simp [hphase] at hbegun
  | answered a => simp [hphase] at hbegun
  | done r => exact makes_finish j r
  | closed run => exact makes_ends hj (run.conclude s.disk)
  | ending run why turns =>
    cases why with
    | withdrawn => exact makes_bury hj run .withdrawn turns
    | unconnected => exact makes_bury hj run .unconnected turns
    | expired =>
      cases j.cancelled with
      | true =>
        simp only [giveUp, hphase]
        exact makes_resign hj _
      | false => exact makes_bury hj run .expired turns
  | starting run steps turns =>
    cases j.cancelled with
    | true =>
      simp only [giveUp, hphase]
      exact makes_kill hj run steps .unconnected
    | false => exact makes_connect hj run steps turns
  | playing run steps =>
    cases j.cancelled with
    | true =>
      simp only [giveUp, hphase]
      exact makes_kill hj run steps .withdrawn
    | false => exact makes_playStep hj run steps
  | pausing run steps =>
    cases j.cancelled with
    | true =>
      simp only [giveUp, hphase]
      exact makes_kill hj run steps .withdrawn
    | false => exact makes_nothing hj

def move (s : Session) (number : Nat) : OwnMove → Session
  | .advance => s.take (.advance number)
  | .wake => s.take (.wake number)
  | .expire => s.take (.expire number)
  | .withdraw => s.withdraw number

private theorem makes_withdraw (hj : s.job? n = some j) :
    s.Makes n { job := some { j with cancelled := true }, disk := s.disk } (s.withdraw n) := by
  obtain rfl := number_of_job? hj
  have h : ∀ s', s'.jobs = (s.setJob { j with cancelled := true }).jobs → s'.disk = s.disk →
      s'.trace = s.trace → s'.orphans = s.orphans → s'.nextJob = s.nextJob →
      s.Makes j.number { job := some { j with cancelled := true }, disk := s.disk } s' :=
    fun s' => makes_setJob (j := { j with cancelled := true }) hj
  unfold withdraw
  rw [hj]
  dsimp only
  split <;> exact h _ rfl rfl rfl rfl rfl

/-- **Moves of a session do with a request what they do with it by itself.** -/
theorem makes_moved (hj : s.job? n = some j) (hbegun : j.begun = true) (o : OwnMove) :
    s.Makes n (j.moved s.disk o) (s.move n o) := by
  obtain rfl := number_of_job? hj
  cases o with
  | advance =>
    simp only [move, take, withJob, hj]
    exact makes_advances hj hbegun
  | wake =>
    simp only [move, take, withJob, hj, wake, Job.moved]
    cases j.phase with
    | pausing run steps => exact makes_playStep hj run steps
    | _ => exact makes_nothing hj
  | expire =>
    simp only [move, take, withJob, hj, expire, Job.moved]
    cases j.cancelled with
    | true => cases j.phase <;> exact makes_nothing hj
    | false =>
      cases j.phase with
      | playing run steps | pausing run steps => exact makes_kill hj run steps .expired
      | _ => exact makes_nothing hj
  | withdraw => exact makes_withdraw hj

/-! ### The start of a run -/

def context (s : Session) (w : Workspace) : RunContext where
  store := w.store
  encoding := w.units
  directory := s.directory
  token := tokenOf s.nextToken
  pid := s.nextPid
  script := s.script

/-- The settings with which the next turn of a request starts its run, if it does. -/
def settingsFor (s : Session) (j : Job) : Option Settings :=
  match j.phase, j.cancelled with
  | .accepted, false =>
    s.workspace.bind fun w =>
      if !w.store.contains j.uri then none
      else if s.configuration then s.cache.find? j.uri
      else some s.cache.globals
  | .answered (.settings v), false =>
    s.workspace.bind fun _ => (s.cache.settle j.uri v).toOption.map Prod.fst
  | _, _ => none

/-- A run starts only for a request that is not withdrawn. -/
theorem not_cancelled_of_settingsFor {settings : Settings} (h : s.settingsFor j = some settings) :
    j.cancelled = false := by
  unfold settingsFor at h
  split at h
  · next hcancelled => exact hcancelled
  · next hcancelled => exact hcancelled
  · cases h

/-- A request that works on no file goes on without one. -/
def Idles (s : Session) (number : Nat) (s' : Session) : Prop :=
  ∃ j events, j.path? = none ∧ s.Makes number { job := some j, disk := s.disk, events } s'

theorem request_of_start {c : RunContext} {r : FormatRequest} {d : Disk} {run : Run}
    (h : (FormatServer.start c r d).result = .ok run) : run.request = r := by
  obtain ⟨document, p, d', hstarted⟩ := exists_started h
  rw [start_started hstarted, Except.ok.injEq] at h
  rw [← h]
  rfl

/-- **A run starts with the document as it is at that moment.** -/
theorem makes_startRun (hj : s.job? j.number = some j₀) {w : Workspace}
    (hw : s.workspace = some w) (settings : Settings) :
    s.Makes j.number (j.starts (s.context w) settings s.disk) (s.startRun j settings) := by
  unfold startRun
  rw [hw]
  generalize hstage : FormatServer.start (s.context w)
    { uri := j.uri, range := j.range, settings } s.disk = stage
  have hstarts : j.starts (s.context w) settings s.disk = match stage.result with
      | .error o => j.ends ⟨o, stage.disk, stage.events⟩
      | .ok run =>
        j.enters (Job.firstPhase run s.script.steps s.script.startup) stage.disk stage.events := by
    rw [Job.starts, hstage]
    rfl
  rw [hstarts]
  change s.Makes j.number _ (match (FormatServer.start (s.context w)
    { uri := j.uri, range := j.range, settings } s.disk).result with
      | .error outcome => _
      | .ok run => _)
  rw [hstage]
  cases hresult : stage.result with
  | error o =>
    have h := makes_ends (s := s.takeToken.2) hj ⟨o, stage.disk, stage.events⟩
    subst hstage
    exact ⟨h.job, h.others, h.disk, h.trace, h.orphans, h.nextJob⟩
  | ok run =>
    have h := (makes_connect
      (s := ({ s.takeToken.2 with launched := s.launched + 1 } : Session).absorb stage.disk stage.events)
      hj run s.script.steps s.script.startup).absorb
    subst hstage
    refine ⟨h.job, h.others, h.disk, ?_, h.orphans, h.nextJob⟩
    exact h.trace.trans (congrArg (s.trace ++ ·) (List.append_nil _))

private theorem idles_settle (hj : s.job? j.number = some j₀) (o : Outcome) :
    s.Idles j.number (s.settle j o) :=
  ⟨_, _, rfl, makes_settle hj o⟩

private theorem idles_conclude (hj : s.job? j.number = some j₀) (r : Response) :
    s.Idles j.number (s.conclude j r) :=
  ⟨_, _, rfl, makes_proceed hj (.done r)⟩

private theorem idles_startRun (hj : s.job? j.number = some j₀) (hw : s.workspace = none)
    (settings : Settings) : s.Idles j.number (s.startRun j settings) := by
  rw [startRun, hw]
  exact idles_conclude hj _

/-- **A request asks the client**, and waits. -/
private theorem Makes.enqueue {m : Moved} (h : s.Makes n m s') (t : Turn) : s.Makes n m (s'.enqueue t) :=
  ⟨h.job, h.others, h.disk, h.trace, h.orphans, h.nextJob⟩

theorem makes_ask (hj : s.job? j.number = some j₀) :
    s.Makes j.number (j.asks (tokenOf s.nextToken) s.disk) (s.ask j) := by
  have hset : s.Makes j.number _ (s.setJob { j with phase := .asking }) :=
    makes_setJob (j := { j with phase := .asking }) hj rfl rfl rfl rfl rfl
  have hsent : s.Makes j.number (j.asks (tokenOf s.nextToken) s.disk)
      ((s.takeToken.2.send (.configuration (tokenOf s.nextToken) j.uri)).setJob { j with phase := .asking }) :=
    ⟨hset.job, hset.others, hset.disk, rfl, hset.orphans, hset.nextJob⟩
  unfold ask
  dsimp only
  split
  · exact hsent
  · exact hsent.enqueue _

private theorem idles_ask (hj : s.job? j.number = some j₀) : s.Idles j.number (s.ask j) :=
  ⟨_, _, rfl, makes_ask hj⟩

/-- A turn of a request is its next phase. -/
theorem take_advance (hj : s.job? j.number = some j) : s.take (.advance j.number) = s.advance j := by
  rw [take, withJob, hj]

/-- **A request for which there are settings starts its run** in its turn. -/
theorem makes_starts (hj : s.job? j.number = some j) {settings : Settings}
    (h : s.settingsFor j = some settings) : ∃ w, s.workspace = some w ∧
      s.Makes j.number (j.starts (s.context w) settings s.disk) (s.take (.advance j.number)) := by
  rw [take_advance hj]
  unfold settingsFor at h
  unfold advance
  cases hphase : j.phase with
  | accepted =>
    cases hcancelled : j.cancelled with
    | true => simp [hphase, hcancelled] at h
    | false =>
      simp only [hphase, hcancelled] at h
      obtain ⟨w, hw, hsettings⟩ := Option.bind_eq_some_iff.mp h
      refine ⟨w, hw, ?_⟩
      have hrun := makes_startRun hj hw settings
      have hbegin : s.begin j = s.startRun j settings := by
        unfold begin
        rw [hw]
        dsimp only
        split at hsettings
        · cases hsettings
        · next hopen =>
          rw [if_neg hopen]
          split at hsettings
          · next hconfiguration => simp [hconfiguration, hsettings]
          · next hconfiguration =>
            rw [if_pos (by simpa using hconfiguration), Option.some.inj hsettings]
      rw [hbegin]
      exact hrun
  | answered a =>
    cases hcancelled : j.cancelled with
    | true => simp [hphase, hcancelled] at h
    | false =>
      cases a with
      | error e => simp [hphase, hcancelled] at h
      | settings v =>
        simp only [hphase, hcancelled] at h
        obtain ⟨w, hw, hsettings⟩ := Option.bind_eq_some_iff.mp h
        refine ⟨w, hw, ?_⟩
        obtain ⟨⟨t, cache⟩, hkept, rfl⟩ := Option.map_eq_some_iff.mp hsettings
        have hsettle : s.cache.settle j.uri v = .ok (t, cache) := by
          cases hresult : s.cache.settle j.uri v with
          | error e => simp [hresult, Except.toOption] at hkept
          | ok kept => simpa [hresult, Except.toOption] using hkept
        have hrun := makes_startRun (s := { s with cache }) hj hw t
        simp only [takeAnswer, hsettle]
        exact ⟨hrun.job, hrun.others, hrun.disk, hrun.trace, hrun.orphans, hrun.nextJob⟩
  | _ => simp [hphase] at h

/-- **Without settings a request whose run has not begun does nothing with files** in its turn. -/
theorem idles_advance (hj : s.job? j.number = some j) (hbegun : j.begun = false)
    (h : s.settingsFor j = none) : s.Idles j.number (s.advance j) := by
  unfold Job.begun at hbegun
  unfold settingsFor at h
  unfold advance
  cases hphase : j.phase with
  | starting run steps turns => simp [hphase] at hbegun
  | playing run steps => simp [hphase] at hbegun
  | pausing run steps => simp [hphase] at hbegun
  | ending run why turns => simp [hphase] at hbegun
  | closed run => simp [hphase] at hbegun
  | done r => simp [hphase] at hbegun
  | accepted =>
    cases hcancelled : j.cancelled with
    | true =>
      simp only [giveUp, hphase]
      exact idles_conclude hj _
    | false =>
      simp only [hphase, hcancelled] at h
      change s.Idles j.number (s.begin j)
      unfold begin
      split
      · exact idles_conclude hj _
      · next w hw =>
        rw [hw, Option.bind_some] at h
        split at h
        · next hopen =>
          rw [if_pos hopen]
          exact idles_settle hj _
        · next hopen =>
          rw [if_neg hopen]
          split at h
          · next hconfiguration =>
            rw [if_neg (by simp [hconfiguration]), h]
            exact idles_ask hj
          · cases h
  | asking =>
    cases j.cancelled with
    | true =>
      simp only [giveUp, hphase]
      exact idles_conclude hj _
    | false => exact ⟨j, [], by rw [Job.path?, hphase], makes_nothing hj⟩
  | answered a =>
    cases hcancelled : j.cancelled with
    | true =>
      simp only [giveUp, hphase]
      exact idles_conclude hj _
    | false =>
      cases a with
      | error e => exact idles_conclude hj _
      | settings v =>
        simp only [hphase, hcancelled] at h
        simp only [takeAnswer]
        split
        · next settings cache hsettle =>
          have hw : s.workspace = none := by
            rw [hsettle] at h
            cases hw : s.workspace with
            | none => rfl
            | some w => simp [hw, Except.toOption] at h
          obtain ⟨j', events, hpath, hrun⟩ := idles_startRun (s := { s with cache }) hj hw settings
          exact ⟨j', events, hpath, hrun.job, hrun.others, hrun.disk, hrun.trace, hrun.orphans,
            hrun.nextJob⟩
        · split
          · exact idles_settle hj _
          · exact idles_conclude hj _

/-- The client's answer touches no request whose run has begun. -/
theorem makes_takeReply (hj : s.job? j.number = some j) (r : ClientReply) :
    if j.begun then s.takeReply j r = s else s.Idles j.number (s.takeReply j r) := by
  unfold takeReply Job.begun
  cases hphase : j.phase with
  | asking =>
    have hpath : j.path? = none := by rw [Job.path?, hphase]
    simp only [Bool.false_eq_true, if_false]
    cases answer? r with
    | some a => exact ⟨_, _, rfl, makes_proceed hj (.answered a)⟩
    | none =>
      refine ⟨j, [.sent (.alert MessageFault.parameters.message)], hpath, ?_⟩
      have h := makes_nothing hj
      exact ⟨h.job, h.others, h.disk, rfl, h.orphans, h.nextJob⟩
  | accepted => exact ⟨j, [], by rw [Job.path?, hphase], makes_nothing hj⟩
  | answered a => exact ⟨j, [], by rw [Job.path?, hphase], makes_nothing hj⟩
  | _ => rfl

end Session

end FormatServer
