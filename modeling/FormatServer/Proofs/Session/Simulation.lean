import FormatServer.Proofs.Formatter.Output
import FormatServer.Proofs.Session.Work

/-!
Every move of a session is a step of its work. Main statements: what a move is observed to do is what its
step does (`work_act`), and what steps keep holds of every history (`History.keeps`).
-/

namespace FormatServer

/-! ## The work of a session -/

def Phase.standing : Phase → Standing
  | .accepted => .fresh
  | .asking | .answered _ => .waiting
  | .starting run _ _ | .playing run _ | .pausing run _ =>
    .running run.process.pid run.request.settings
  | .ending _ _ _ | .closed _ | .done _ => .finished

def Job.task (j : Job) : Task := ⟨j.number, j.uri, j.phase.standing⟩

def Job.awaits? (j : Job) : Option Run :=
  match j.phase with
  | .starting run _ _ | .playing run _ | .pausing run _ => some run
  | _ => none

theorem standing_of_awaits {j : Job} {run : Run} (h : j.awaits? = some run) :
    j.task.standing = .running run.process.pid run.request.settings := by
  unfold Job.awaits? at h
  split at h
  case h_4 => exact absurd h (by simp)
  all_goals
    next hphase =>
      obtain rfl := Option.some.inj h
      rw [Job.task, hphase]
      rfl

def signalsIn (trace : List SessionEvent) : List (Nat × Signal) :=
  trace.filterMap fun
    | .killed pid => some (pid, .killed)
    | .stopped pid => some (pid, .stopped)
    | .spared pid group => some (pid, .spared group)
    | _ => none

def commandsIn (trace : List SessionEvent) : List (List String) :=
  trace.filterMap fun
    | .spawned command _ => some command
    | _ => none

@[simp] theorem signalsIn_append (a b : List SessionEvent) :
    signalsIn (a ++ b) = signalsIn a ++ signalsIn b :=
  List.filterMap_append

@[simp] theorem commandsIn_append (a b : List SessionEvent) :
    commandsIn (a ++ b) = commandsIn a ++ commandsIn b :=
  List.filterMap_append

@[simp] theorem signalsIn_map_eventOf (events : List RunEvent) :
    signalsIn (events.map Session.eventOf) = signals events := by
  induction events with
  | nil => rfl
  | cons e rest ih =>
    cases e with
    | logged | spawned => exact ih
    | killed pid | stopped pid | spared pid group => exact congrArg ((pid, _) :: ·) ih

@[simp] theorem commandsIn_map_eventOf (events : List RunEvent) :
    commandsIn (events.map Session.eventOf) = (spawns events).map Prod.fst := by
  induction events with
  | nil => rfl
  | cons e rest ih => cases e <;> simpa [commandsIn, spawns, Session.eventOf] using ih

def Session.work (s : Session) : Work where
  tasks := s.jobs.map Job.task
  orphans := s.orphans.map (·.process.pid)
  signals := signalsIn s.trace
  commands := commandsIn s.trace
  settings := s.cache.documents
  nextTask := s.nextJob
  pids := s.pids
  launched := s.launched

/-! ## What parts of a move do -/

namespace Session

open Work

@[simp] theorem work_send (s : Session) (m : Outgoing) : (s.send m).work = s.work := by
  simp [work, send, emit, signalsIn, commandsIn]

@[simp] theorem work_log (s : Session) (level : LogLevel) (text : String) :
    (s.log level text).work = s.work := work_send s _

@[simp] theorem work_alert (s : Session) (kind text : String) :
    (s.alert kind text).work = s.work := work_send s _

@[simp] theorem work_respond (s : Session) (id : RequestId) (r : Response) :
    (s.respond id r).work = s.work := work_send s _

@[simp] theorem work_enqueue (s : Session) (t : Turn) : (s.enqueue t).work = s.work := rfl

@[simp] theorem work_schedule (s : Session) (delay : Nat) (t : Turn) :
    (s.schedule delay t).work = s.work := rfl

@[simp] theorem work_takeToken (s : Session) : s.takeToken.2.work = s.work := rfl

@[simp] theorem work_absorb (s : Session) (d : Disk) (events : List RunEvent) :
    (s.absorb d events).work = { s.work with
      signals := s.work.signals ++ signals events
      commands := s.work.commands ++ (spawns events).map Prod.fst } := by
  simp [work, absorb]

@[simp] theorem work_setJob (s : Session) (j : Job) : (s.setJob j).work = s.work.put j.task := by
  simp only [work, setJob, put, List.map_map, Work.mk.injEq, and_true]
  refine List.map_congr_left fun old _ => ?_
  by_cases h : old.number = j.number <;> simp [Job.task, h]

@[simp] theorem work_proceed (s : Session) (j : Job) (p : Phase) :
    (s.proceed j p).work = s.work.put ⟨j.number, j.uri, p.standing⟩ :=
  work_setJob s _

@[simp] theorem work_conclude (s : Session) (j : Job) (r : Response) :
    (s.conclude j r).work = s.work.put ⟨j.number, j.uri, .finished⟩ := work_proceed s j _

@[simp] theorem work_settle (s : Session) (j : Job) (o : Outcome) :
    (s.settle j o).work = s.work.put ⟨j.number, j.uri, .finished⟩ := by
  cases o <;> simp [settle]

@[simp] theorem work_ask (s : Session) (j : Job) :
    (s.ask j).work = s.work.put ⟨j.number, j.uri, .waiting⟩ := by
  have hask : ((s.takeToken.2.send (.configuration s.takeToken.1 j.uri)).setJob
      { j with phase := .asking }).work = s.work.put ⟨j.number, j.uri, .waiting⟩ := by
    rw [work_setJob, work_send, work_takeToken]
    rfl
  unfold ask
  dsimp only
  split
  · exact hask
  · rwa [work_enqueue]

/-! ## What the turns of a request do -/

variable {s : Session} {j : Job} {pid : Nat}

private theorem work_connect (s : Session) (j : Job) (run : Run) (steps : List ScriptStep)
    (turns : Nat) : (s.connect j run steps turns).work =
      s.work.put ⟨j.number, j.uri, .running run.process.pid run.request.settings⟩ := by
  cases turns with
  | zero =>
    rw [connect, launch]
    split
    · rw [work_enqueue, work_setJob]
      rfl
    · rw [work_proceed, work_schedule]
      rfl
  | succ turns => exact work_proceed s j _

private theorem launches_startRun (s : Session) (j : Job) (settings : Settings) :
    s.work.Launches j.number j.uri settings (s.startRun j settings).work := by
  unfold startRun
  split
  · have hfailed : s.work.Launches j.number j.uri settings _ := .failed (List.forall_mem_nil _)
    rw [work_conclude]
    rwa [List.append_nil] at hfailed
  · next w _ =>
    dsimp only
    split
    · next outcome hresult =>
      rw [work_settle, work_absorb, signals_start, List.append_nil]
      refine .failed fun words hwords => ?_
      obtain ⟨⟨_, content⟩, hmem, rfl⟩ := List.mem_map.mp hwords
      obtain ⟨p, -, hcommand⟩ := command_of_start (mem_spawns.mpr hmem)
      exact ⟨p, hcommand⟩
    · next run hrun =>
      obtain ⟨document, p, d', hstarted⟩ := exists_started hrun
      have hstart := start_started hstarted
      rw [hstart, Except.ok.injEq] at hrun
      subst hrun
      have hwork : ∀ t : Session, ({ t with launched := t.launched + 1 } : Session).work =
          { t.work with launched := t.work.launched + 1 } := fun _ => rfl
      rw [work_connect, hwork, work_absorb, signals_start, List.append_nil, hstart]
      exact .started p

/-- A request that awaits no process ends with a response. -/
private theorem step_conclude {standing : Standing} (h : ⟨j.number, j.uri, standing⟩ ∈ s.work.tasks)
    (hpid : ∀ pid settings, standing ≠ .running pid settings) (r : Response) :
    s.work.Step none (s.conclude j r).work := by
  rw [work_conclude]
  exact .quit h hpid

private theorem step_begin (h : ⟨j.number, j.uri, .fresh⟩ ∈ s.work.tasks) :
    s.work.Step (s.observeBegin j) (s.begin j).work := by
  unfold observeBegin begin
  cases hworkspace : s.workspace with
  | none => exact step_conclude h (by simp) _
  | some w =>
    cases hopen : w.store.contains j.uri with
    | false =>
      simp only [hopen, Bool.not_false, if_true, work_settle]
      exact .quit h (by simp)
    | true =>
      cases hconf : s.configuration with
      | false =>
        simp only [hopen, Bool.not_true, Bool.not_false, Bool.false_eq_true, if_true, if_false]
        exact .share h (launches_startRun ..)
      | true =>
        simp only [hopen, Bool.not_true, Bool.false_eq_true, if_false]
        cases hkept : s.cache.find? j.uri with
        | some settings => exact .use h hkept (launches_startRun ..)
        | none =>
          simp only [work_ask]
          exact .ask h hkept

/-- Going on with an answer. -/
private theorem step_takeAnswer (h : ⟨j.number, j.uri, .waiting⟩ ∈ s.work.tasks) (v : Value) :
    s.work.Step
      (match s.cache.settle j.uri v with
        | .ok (settings, _) => some (.kept j.number j.uri settings)
        | .error _ => none)
      (s.takeAnswer j (.settings v)).work := by
  unfold takeAnswer
  dsimp only
  cases hsettle : s.cache.settle j.uri v with
  | error e =>
    dsimp only
    split
    · rw [work_settle]
      exact .quit h (by simp)
    · exact step_conclude h (by simp) _
  | ok kept =>
    obtain ⟨settings, cache⟩ := kept
    have hcache : cache = s.cache.keep j.uri settings := by
      simp only [SettingsCache.settle, bind, Except.bind] at hsettle
      split at hsettle
      · exact absurd hsettle (by simp)
      · simp only [pure, Except.pure, Except.ok.injEq, Prod.mk.injEq] at hsettle
        rw [← hsettle.1, hsettle.2]
    have hkeep : ({ s with cache } : Session).work = s.work.keep j.uri settings := by
      rw [hcache]
      rfl
    exact .keep h (hkeep ▸ launches_startRun ..)

@[simp] theorem work_abandon (s : Session) (o : Orphan) :
    (s.abandon o).work = { s.work with orphans := s.work.orphans ++ [o.process.pid] } := by
  simp [work, abandon, enqueue]

/-- A process performs a step that takes no time. -/
private theorem step_perform (hw : s.work.Distinct) {run : Run} {steps : List ScriptStep}
    (h : ⟨j.number, j.uri, .running run.process.pid run.request.settings⟩ ∈ s.work.tasks) (done : Process.Performed)
    (hpid : done.process.pid = run.process.pid) :
    s.work.Step ((if done.overrun.isSome then some Ending.overran else none).map (.ended run.process.pid))
      (s.performed j run steps done).work := by
  have hs' : (s.absorb done.disk (outputEvents done.logs)).work = s.work := by
    simp
  unfold performed
  cases done.overrun with
  | none =>
    simp only [work_proceed, hs', Phase.standing, hpid]
    exact .of_put_self hw h
  | some cause =>
    have hpart := Step.part h .overran
    simp only [Ending.sent, Ending.signal?, Option.map_none, Option.toList_none, Ending.leaves, if_true,
      List.append_nil] at hpart
    simp only [work_abandon, work_settle, work_absorb, signals_overrun, spawns_overrun, List.map_nil,
      List.append_nil, hs', hpid]
    exact hpart

/-- A process plays its next step. -/
private theorem step_playStep (hw : s.work.Distinct) {run : Run} (steps : List ScriptStep)
    (h : ⟨j.number, j.uri, .running run.process.pid run.request.settings⟩ ∈ s.work.tasks) :
    s.work.Step ((endOfStep run.process steps).map (.ended run.process.pid))
      (s.playStep j run steps).work := by
  cases steps with
  | nil =>
    have hpart := Step.part h .exited
    simp only [Ending.sent, Ending.signal?, Option.map_none, Option.toList_none, Ending.leaves,
      Bool.false_eq_true, if_false, List.append_nil] at hpart
    rw [playStep, work_proceed, work_absorb, signals_close, spawns_close, List.map_nil, List.append_nil,
      List.append_nil]
    exact hpart
  | cons step rest =>
    cases step with
    | hang =>
      rw [playStep, work_setJob]
      exact .of_put_self hw h
    | sleep ticks =>
      rw [playStep, work_schedule, work_setJob]
      exact .of_put_self hw h
    | output stream bytes =>
      exact step_perform hw h (run.process.perform s.disk (.output stream bytes)) (pid_perform ..)
    | change c => exact step_perform hw h (run.process.perform s.disk (.change c)) rfl
    | exit code => exact step_perform hw h (run.process.perform s.disk (.exit code)) rfl

@[simp] private theorem work_part (s : Session) (j : Job) (run : Run) (why : Farewell) :
    (s.part j run why).work = s.work.put ⟨j.number, j.uri, .finished⟩ := by
  cases why <;> simp [part, resign]

@[simp] private theorem work_bury (s : Session) (j : Job) (run : Run) (why : Farewell) (turns : Nat) :
    (s.bury j run why turns).work = s.work.put ⟨j.number, j.uri, .finished⟩ := by
  cases turns with
  | zero => exact work_part s j run why
  | succ turns => exact work_proceed s j _

/-- A request parts with a process that is to be told to end. -/
private theorem step_kill {run : Run}
    (h : ⟨j.number, j.uri, .running run.process.pid run.request.settings⟩ ∈ s.work.tasks)
    (steps : List ScriptStep) (why : Farewell) :
    s.work.Step (some (.ended run.process.pid (run.process.ending why)))
      (s.kill j run steps why).work := by
  have hpart := Step.part h (run.process.ending why)
  unfold kill
  unfold Process.ending at hpart ⊢
  split
  · next hkillable =>
    simp only [hkillable, if_true, Ending.sent, Ending.signal?, Option.map_some, Option.toList_some,
      Ending.leaves, Bool.false_eq_true, if_false, List.append_nil] at hpart
    simp only [work_bury, work_absorb, signals_signal, spawns_signal, spawns_nil, List.map_nil,
      List.append_nil]
    exact hpart
  · next hkillable =>
    simp only [hkillable, Bool.false_eq_true, if_false, Ending.sent, Ending.signal?, Option.map_some,
      Option.toList_some, Ending.leaves, if_true] at hpart
    simp only [work_abandon, work_settle, work_absorb, signals_spare, spawns_spare, List.map_nil,
      List.append_nil]
    exact hpart

private theorem step_finish (h : ⟨j.number, j.uri, .finished⟩ ∈ s.work.tasks) (r : Response) :
    s.work.Step none (s.finish j r).work := by
  have hfinish : (s.finish j r).work =
      { s.work with tasks := s.work.tasks.filter (·.number ≠ j.number) } := by
    have hrespond := work_respond s j.id r
    simp only [work, Work.mk.injEq] at hrespond
    simp only [work, finish, hrespond, List.filter_map, Work.mk.injEq, and_true]
    rfl
  rw [hfinish]
  exact .leave h

/-- The next phase of a job. -/
private theorem step_advance (hw : s.work.Distinct) (hj : j.task ∈ s.work.tasks) :
    s.work.Step (s.observeAdvance j) (s.advance j).work := by
  rw [Job.task] at hj
  unfold observeAdvance advance
  cases hphase : j.phase with
  | done r =>
    rw [hphase] at hj
    exact step_finish hj r
  | closed run =>
    rw [hphase] at hj
    simp only [finishRun, work_settle, work_absorb, signals_conclude, spawns_conclude, List.map_nil,
      List.append_nil]
    exact .of_put_self hw hj
  | ending run why turns =>
    rw [hphase] at hj
    have hbury : s.work.Step none (s.bury j run why turns).work := by
      rw [work_bury]
      exact .of_put_self hw hj
    cases why with
    | withdrawn => exact hbury
    | unconnected => exact hbury
    | expired =>
      cases j.cancelled with
      | false => exact hbury
      | true =>
        simp only [giveUp, hphase, resign, work_conclude, work_absorb, signals_leave, spawns_leave,
          List.map_nil, List.append_nil]
        exact .of_put_self hw hj
  | starting run steps turns =>
    rw [hphase] at hj
    cases j.cancelled with
    | true =>
      simp only [giveUp, hphase]
      exact step_kill hj steps .unconnected
    | false =>
      simp only [work_connect]
      exact .of_put_self hw hj
  | accepted =>
    rw [hphase] at hj
    cases j.cancelled with
    | true =>
      simp only [giveUp, hphase]
      exact step_conclude hj (by simp [Phase.standing]) _
    | false => exact step_begin hj
  | asking =>
    rw [hphase] at hj
    cases j.cancelled with
    | true =>
      simp only [giveUp, hphase]
      exact step_conclude hj (by simp [Phase.standing]) _
    | false => exact .idle
  | answered a =>
    rw [hphase] at hj
    cases j.cancelled with
    | true =>
      simp only [giveUp, hphase]
      exact step_conclude hj (by simp [Phase.standing]) _
    | false =>
      cases a with
      | error e => exact step_conclude hj (by simp [Phase.standing]) _
      | settings v => exact step_takeAnswer hj v
  | playing run steps =>
    rw [hphase] at hj
    cases j.cancelled with
    | true =>
      simp only [giveUp, hphase]
      exact step_kill hj steps .withdrawn
    | false => exact step_playStep hw steps hj
  | pausing run steps =>
    rw [hphase] at hj
    cases j.cancelled with
    | true =>
      simp only [giveUp, hphase]
      exact step_kill hj steps .withdrawn
    | false => exact .idle

private theorem step_takeReply (hw : s.work.Distinct) (hj : j.task ∈ s.work.tasks)
    (r : ClientReply) : s.work.Step none (s.takeReply j r).work := by
  unfold takeReply
  split
  · next a hphase _ =>
    rw [Job.task, hphase] at hj
    rw [work_proceed]
    exact .of_put_self hw hj
  · rw [work_send]
    exact .idle
  · exact .idle

private theorem step_wake (hw : s.work.Distinct) (hj : j.task ∈ s.work.tasks) :
    s.work.Step (observeWake j) (s.wake j).work := by
  unfold observeWake wake
  cases hphase : j.phase with
  | pausing run steps =>
    rw [Job.task, hphase] at hj
    exact step_playStep hw steps hj
  | _ => exact .idle

private theorem step_expire (hj : j.task ∈ s.work.tasks) :
    s.work.Step (observeExpire j) (s.expire j).work := by
  unfold observeExpire expire
  rw [Job.task] at hj
  cases hphase : j.phase with
  | playing run steps | pausing run steps =>
    rw [hphase] at hj
    cases j.cancelled with
    | true => exact .idle
    | false => exact step_kill hj steps .expired
  | _ => exact .idle

/-- Processes without a request are put in another list, and others see no more than output. -/
private theorem step_orphans {s' : Session} {others : List Orphan} (hwork : s'.work = s.work)
    (h : ∀ o ∈ others, o.process.pid ∈ s.work.orphans) :
    s.work.Step none ({ s' with orphans := others } : Session).work := by
  have hothers : ({ s' with orphans := others } : Session).work =
      { s.work with orphans := others.map (·.process.pid) } := by
    rw [← hwork]
    rfl
  rw [hothers]
  refine .orphans fun pid hpid => ?_
  obtain ⟨o, ho, rfl⟩ := List.mem_map.mp hpid
  exact h o ho

private theorem step_playOrphan {o : Orphan} (ho : o ∈ s.orphans) :
    s.work.Step none (s.playOrphan o).work := by
  have hmem : ∀ o ∈ s.orphans, o.process.pid ∈ s.work.orphans :=
    fun o ho => List.mem_map_of_mem ho
  have hrest : ∀ x ∈ s.orphans.filter (·.process.pid ≠ o.process.pid),
      x.process.pid ∈ s.work.orphans :=
    fun x hx => hmem x (List.mem_of_mem_filter hx)
  have hput : ∀ o' : Orphan, o'.process.pid = o.process.pid →
      ∀ x ∈ s.orphans.filter (·.process.pid ≠ o.process.pid) ++ [o'],
        x.process.pid ∈ s.work.orphans := by
    intro o' ho' x hx
    rcases List.mem_append.mp hx with hx | hx
    · exact hrest x hx
    · rw [List.mem_singleton.mp hx, ho']
      exact hmem o ho
  have habsorb : ∀ (d : Disk) (logs : List String),
      (s.absorb d (outputEvents logs)).work = s.work := by
    intro d logs
    simp
  unfold playOrphan
  cases o.steps with
  | nil => exact step_orphans (habsorb ..) hrest
  | cons step steps =>
    cases step with
    | hang => exact step_orphans rfl hrest
    | sleep ticks =>
      simp only [work_schedule]
      exact step_orphans rfl (hput _ rfl)
    | output stream bytes =>
      simp only [work_enqueue]
      exact step_orphans (habsorb ..) (hput _ (pid_perform ..))
    | change c =>
      simp only [work_enqueue]
      exact step_orphans (habsorb ..) (hput _ rfl)
    | exit code =>
      simp only [work_enqueue]
      exact step_orphans (habsorb ..) (hput _ rfl)

/-- What a turn is observed to do is what it does. -/
private theorem step_take (hw : s.work.Distinct) (t : Turn) :
    s.work.Step (s.observeTurn t) (s.take t).work := by
  have hjob : ∀ {number : Nat} {j : Job}, s.job? number = some j → j.task ∈ s.work.tasks :=
    fun h => List.mem_map_of_mem (List.mem_of_find?_eq_some h)
  cases t with
  | advance number =>
    simp only [observeTurn, take, withJob]
    cases h : s.job? number with
    | none => exact .idle
    | some j => exact step_advance hw (hjob h)
  | reply number r =>
    simp only [observeTurn, take, withJob]
    cases h : s.job? number with
    | none => exact .idle
    | some j => exact step_takeReply hw (hjob h) r
  | wake number =>
    simp only [observeTurn, take, withJob]
    cases h : s.job? number with
    | none => exact .idle
    | some j => exact step_wake hw (hjob h)
  | expire number =>
    simp only [observeTurn, take, withJob]
    cases h : s.job? number with
    | none => exact .idle
    | some j => exact step_expire (hjob h)
  | orphan pid =>
    simp only [observeTurn, take]
    cases h : s.orphans.find? (·.process.pid = pid) with
    | none => exact .idle
    | some o => exact step_playOrphan (List.mem_of_find?_eq_some h)
  | opened uri =>
    rw [take, logOpened, work_log]
    exact .idle
  | closed uri =>
    have hclosed : (s.logClosed uri).work = s.work.forget uri := by
      have hlog := work_log s .log ("Document closed: " ++ uri)
      rw [← hlog]
      rfl
    rw [take, hclosed]
    exact .drop uri

/-! ## What messages do -/

private theorem work_withdraw (hw : s.work.Distinct) (number : Nat) :
    (s.withdraw number).work = s.work := by
  unfold withdraw
  cases h : s.job? number with
  | none => rfl
  | some j =>
    have hj : j.task ∈ s.work.tasks := List.mem_map_of_mem (List.mem_of_find?_eq_some h)
    have hset : (s.setJob { j with cancelled := true }).work = s.work :=
      (work_setJob s _).trans (put_self hw hj)
    dsimp only
    split
    · rwa [work_enqueue]
    · rwa [work_enqueue]
    · exact hset

private theorem work_cancelAll (hw : s.work.Distinct) : s.cancelAll.work = s.work := by
  unfold cancelAll
  generalize s.withdrawable = pairs
  induction pairs generalizing s with
  | nil => rfl
  | cons pair rest ih =>
    have hfirst := work_withdraw hw pair.2
    rw [List.foldl_cons, ih (hfirst ▸ hw), hfirst]

private theorem work_withStore (f : DocumentStore → Session → Session)
    (hf : ∀ store, (f store s).work = s.work) : (s.withStore f).work = s.work := by
  unfold withStore
  split
  · exact work_alert s _ _
  · exact hf _

/-- A change of the global settings is no change of the kept ones. -/
private theorem work_loadWorkspace {root : Path} {s' : Session}
    (h : s.loadWorkspace root = .ok s') : s'.work = s.work := by
  unfold loadWorkspace at h
  split at h
  · next settings found _ =>
    cases found with
    | true =>
      simp only [if_true, Except.ok.injEq] at h
      rw [← h, work_log]
      rfl
    | false =>
      simp only [Bool.false_eq_true, if_false, Except.ok.injEq] at h
      rw [← h]
      rfl
  · split at h
    · rw [← Except.ok.inj h, work_log]
    · exact absurd h (by simp)

private theorem work_handshake (s : Session) (id : RequestId) (c : ClientProfile) :
    (s.handshake id c).work = s.work := by
  have hmeet : (s.meet c).work = s.work := rfl
  unfold handshake
  dsimp only
  split
  · exact work_respond ..
  · split
    · rw [work_respond, hmeet]
    · split
      · rw [work_respond, hmeet]
      · split
        · rw [work_respond, hmeet]
        · rw [work_respond, hmeet]
        · split
          · next h => rw [work_respond, work_loadWorkspace h, hmeet]
          · rw [work_respond, hmeet]

private theorem work_updateGlobals {c c' : SettingsCache} {pushed : Value}
    (h : c.updateGlobals pushed = .ok c') : c'.documents = c.documents := by
  unfold SettingsCache.updateGlobals at h
  split at h
  · rw [Except.ok.inj h]
  · simp only [bind, Except.bind] at h
    split at h
    · exact absurd h (by simp)
    · rw [← Except.ok.inj h]

private theorem step_configured (s : Session) (pushed : Value) :
    s.work.Step (if s.configuration then some .cleared else none) (s.configured pushed).work := by
  unfold configured
  split
  · exact .clear
  · split
    · next cache h =>
      have hcache : ({ s with cache } : Session).work = s.work := by
        simp only [work, work_updateGlobals h]
      rw [hcache]
      exact .idle
    · split
      · rw [work_log]
        exact .idle
      · rw [work_alert]
        exact .idle

private theorem step_accept (s : Session) (id : RequestId) (uri : String)
    (range : Option TextRange) :
    s.work.Step (some (.arrived s.nextJob uri)) (s.accept id uri range).work := by
  have haccept : (s.accept id uri range).work = { s.work with
      tasks := s.work.tasks ++ [⟨s.work.nextTask, uri, .fresh⟩]
      nextTask := s.work.nextTask + 1 } := by
    simp only [accept, work, enqueue, List.map_append]
    rfl
  rw [haccept]
  exact .arrive uri

private theorem step_handleCall (hw : s.work.Distinct) (id : RequestId) (c : Call) :
    s.work.Step (s.observeMessage (.call id c)) (s.handleCall id c).work := by
  cases c with
  | format uri range => exact step_accept s id uri range
  | handshake client =>
    rw [handleCall, work_handshake]
    exact .idle
  | shutdown =>
    have hshut : (s.shutDown id).work = s.work :=
      (work_respond _ _ _).trans (work_cancelAll hw)
    rw [handleCall, hshut]
    exact .idle
  | command name =>
    rw [handleCall, work_respond]
    exact .idle
  | other method =>
    rw [handleCall, work_respond]
    exact .idle

private theorem work_clientReady (s : Session) : s.clientReady.work = s.work := by
  have hwatch : ∀ s : Session,
      (if s.folderEvents then { s with watchesFolders := true } else s).work = s.work := by
    intro s
    split <;> rfl
  unfold clientReady
  dsimp only
  rw [hwatch]
  split
  · exact work_send _ _
  · rfl

private theorem work_foldersChanged (s : Session) (changed : Bool) :
    (s.foldersChanged changed).work = s.work := by
  unfold foldersChanged
  split
  · exact work_alert ..
  · split
    · exact work_log ..
    · rfl

private theorem work_exit (s : Session) : s.exit.work = s.work := by
  simp [work, exit, emit, signalsIn, commandsIn]

private theorem work_cancel (hw : s.work.Distinct) (id : RequestId) :
    (s.cancel id).work = s.work := by
  unfold cancel
  split
  · rfl
  · exact work_withdraw (s := { s with withdrawable := s.withdrawableBut id }) hw _

private theorem work_documentOpened (s : Session) (d : Document) :
    (s.documentOpened d).work = s.work := by
  refine work_withStore _ fun store => ?_
  split
  · exact work_alert ..
  · rfl

private theorem work_documentChanged (s : Session) (uri : String) (version : Int)
    (texts : List String) : (s.documentChanged uri version texts).work = s.work := by
  refine work_withStore _ fun store => ?_
  split
  · exact work_alert ..
  · rfl

private theorem step_handleNotice (hw : s.work.Distinct) (n : Notice) :
    s.work.Step (s.observeMessage (.notice n)) (s.handleNotice n).work := by
  cases n with
  | configured settings => exact step_configured s settings
  | ready =>
    rw [handleNotice, work_clientReady]
    exact .idle
  | exit =>
    rw [handleNotice, work_exit]
    exact .idle
  | opened document =>
    rw [handleNotice, work_documentOpened]
    exact .idle
  | changed uri version texts =>
    rw [handleNotice, work_documentChanged]
    exact .idle
  | closed uri =>
    rw [handleNotice, documentClosed, work_withStore _ fun store => rfl]
    exact .idle
  | folders changed =>
    rw [handleNotice, work_foldersChanged]
    exact .idle
  | cancel id =>
    rw [handleNotice, work_cancel hw]
    exact .idle
  | other => exact .idle

private theorem step_receive (hw : s.work.Distinct) (m : Except MessageFault Incoming) :
    s.work.Step (s.observe (.receive m)) (s.receive m).work := by
  -- What is not handled is not observed either.
  have hstopped : ∀ {m' : Incoming}, s.status ≠ .running → s.observe (.receive (.ok m')) = none :=
    fun h => if_neg h
  have hhandles := handles_receive s m
  generalize s.receive m = s' at hhandles
  cases hhandles with
  | finished hended =>
    cases m with
    | error fault => exact .idle
    | ok m =>
      rw [hstopped (by simp [hended])]
      exact .idle
  | fault _ fault =>
    rw [work_send]
    exact .idle
  | call hrunning id c =>
    rw [observe, if_pos hrunning]
    exact step_handleCall hw id c
  | notice hrunning n =>
    rw [observe, if_pos hrunning]
    exact step_handleNotice hw n
  | ignored hrunning =>
    rw [observe, if_pos hrunning]
    exact .idle
  | exit _ hother =>
    rw [hstopped hother, work_exit]
    exact .idle
  | unhandled hother =>
    rw [hstopped hother]
    exact .idle

/-- **What a move is observed to do is what its step does.** -/
theorem work_act (hw : s.work.Distinct) (m : Move) :
    s.work.Step (s.observe m) (s.act m).work := by
  cases m with
  | receive m => exact step_receive hw m
  | turn t => exact step_take hw t
  | reorder ready timers now => exact .idle
  | surround script reply disk => exact .idle

end Session

/-! ## Histories -/

def Work.first (pids : Nat → Nat) : Work := ⟨[], [], [], [], [], 0, pids, 0⟩

theorem Session.work_start {overrides : Value} {directory : Path} {pids : Nat → Nat} {disk : Disk}
    {s : Session} (h : Session.start overrides directory pids disk = .ok s) : s.work = .first pids := by
  obtain ⟨globals, -, rfl⟩ := Session.eq_of_start h
  rfl

/-- **What steps keep holds of every history**, when it holds of the first work. -/
theorem History.keeps {P : List Mark → Work → Prop} (hstart : ∀ pids, P [] (.first pids))
    (hstep : ∀ marks w x w', w.Numbered → P marks w → w.Step x w' → P (marks ++ x.toList) w')
    {marks : List Mark} {s : Session} (h : History marks s) : s.work.Numbered ∧ P marks s.work := by
  induction h with
  | start h =>
    rw [Session.work_start h]
    exact ⟨⟨List.nodup_nil, by simp [Work.first]⟩, hstart _⟩
  | move h m ih =>
    obtain ⟨hnumbered, hP⟩ := ih
    have hact := Session.work_act hnumbered.distinct m
    exact ⟨hnumbered.step hact, hstep _ _ _ _ hnumbered hP hact⟩

theorem History.numbered {marks : List Mark} {s : Session} (h : History marks s) : s.work.Numbered :=
  (h.keeps (P := fun _ _ => True) (fun _ => trivial) fun _ _ _ _ _ _ _ => trivial).1

end FormatServer
