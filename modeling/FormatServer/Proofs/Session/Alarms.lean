import FormatServer.Proofs.Session.Loop
import FormatServer.Proofs.Session.Request

/-!
The timers of requests. A turn sets a timer in two ways, as a process is connected or as it pauses; the others set
none, and no turn and no message loses one (`alarms_take`, `alarms_receive`).
-/

namespace FormatServer

open Binary64

def Turn.alarms : Turn → Bool
  | .wake _ | .expire _ => true
  | _ => false

def Turn.request? : Turn → Option Nat
  | .advance number | .wake number | .expire number | .reply number _ => some number
  | _ => none

def Run.deadline (run : Run) (start : Nat) : Nat := roundTicks (start + timeLimit run.request.settings) 1

/-- A request had a process before, or has one, whose output is connected, or it has none any more. -/
def Phase.past : Phase → Bool
  | .playing _ _ | .pausing _ _ | .ending _ _ _ | .closed _ | .done _ => true
  | .accepted | .asking | .answered _ | .starting _ _ _ => false

/-- A request whose process is connected waits for this turn. One that is withdrawn waits for its time no more, but
for its next turn. -/
def Job.Heeds (j : Job) (t : Turn) : Prop :=
  match j.phase, j.cancelled with
  | .playing _ _, true => t = .advance j.number
  | .playing _ _, false => t = .advance j.number ∨ t = .expire j.number
  | .pausing _ _, true => t = .wake j.number ∨ t = .advance j.number
  | .pausing _ _, false => t = .wake j.number ∨ t = .expire j.number
  | _, _ => False

theorem Job.heeds_expire_iff (j : Job) :
    j.Heeds (.expire j.number) ↔ j.phase.connected?.isSome = true ∧ j.cancelled = false := by
  unfold Heeds
  cases j.phase <;> cases j.cancelled <;> simp [Phase.connected?]

theorem Job.heeds_advance_iff (j : Job) : j.Heeds (.advance j.number) ↔
    (∃ run steps, j.phase = .playing run steps) ∨
      (∃ run steps, j.phase = .pausing run steps) ∧ j.cancelled = true := by
  unfold Heeds
  cases j.phase <;> cases j.cancelled <;> simp

theorem Job.not_heeds_of_unconnected {j : Job} (h : j.phase.connected? = none) (t : Turn) : ¬ j.Heeds t := by
  unfold Heeds
  cases hphase : j.phase with
  | playing | pausing => simp [hphase, Phase.connected?] at h
  | _ => cases j.cancelled <;> exact fun h => h

inductive Job.Plays (j : Job) (run : Run) (steps : List ScriptStep) : Turn → Prop where
  | playing (hgoing : j.cancelled = false) (hphase : j.phase = .playing run steps) :
      Plays j run steps (.advance j.number)
  | pausing (hphase : j.phase = .pausing run steps) : Plays j run steps (.wake j.number)

theorem Job.Plays.phase {j : Job} {run : Run} {steps : List ScriptStep} {t : Turn} (h : j.Plays run steps t) :
    j.phase = .playing run steps ∨ j.phase = .pausing run steps := by
  cases h with
  | playing _ hphase => exact .inl hphase
  | pausing hphase => exact .inr hphase

/-- When steps that begin at a time come to an end, if they do: only pauses take time. -/
def endOfSteps (start : Nat) : List ScriptStep → Option Nat
  | [] => some start
  | .hang :: _ => none
  | .sleep ticks :: rest => endOfSteps (max start (roundTicks (start + ticks) 1)) rest
  | _ :: rest => endOfSteps start rest

namespace Session

/-! ## Alarms -/

/-- The clock stands still, and these alarms are added to those in the queue and to those that are set. -/
structure Sets (s : Session) (soon : List Turn) (later : List (Timer Turn)) (s' : Session) : Prop where
  now : s'.now = s.now
  ready : ∃ new, s'.ready = s.ready ++ new ∧ new.filter Turn.alarms = soon
  timers : ∀ x, x.event.alarms = true → (x ∈ s'.timers.entries ↔ x ∈ s.timers.entries ∨ x ∈ later)

abbrev SetsNone (s s' : Session) : Prop := s.Sets [] [] s'

variable {s s₁ s' : Session} {j : Job} {t : Turn} {n : Nat}

/-- Turns that are no alarms come to the queue. -/
theorem SetsNone.of_queue (new : List Turn) (hnow : s'.now = s.now) (hready : s'.ready = s.ready ++ new)
    (hnone : new.filter Turn.alarms = []) (htimers : s'.timers = s.timers) : s.SetsNone s' :=
  ⟨hnow, ⟨new, hready, hnone⟩, fun x _ => by simp [htimers]⟩

theorem SetsNone.of_same (hnow : s'.now = s.now) (hready : s'.ready = s.ready) (htimers : s'.timers = s.timers) :
    s.SetsNone s' :=
  .of_queue [] hnow (hready.trans (List.append_nil _).symm) rfl htimers

theorem SetsNone.trans {soon : List Turn} {later : List (Timer Turn)} (h : s.SetsNone s₁) (h' : s₁.Sets soon later s') :
    s.Sets soon later s' := by
  obtain ⟨new, hready, hnew⟩ := h.ready
  obtain ⟨more, hready', hmore⟩ := h'.ready
  refine ⟨h'.now.trans h.now, ⟨new ++ more, ?_, ?_⟩, fun x hx => ?_⟩
  · rw [hready', hready, List.append_assoc]
  · rw [List.filter_append, hnew, hmore, List.nil_append]
  · rw [h'.timers x hx, h.timers x hx]
    simp

/-! ## Turns of requests -/

/-- After a turn a request has no process that is connected, and no alarm is set. -/
structure Parts (s : Session) (j : Job) (s' : Session) : Prop where
  job : ∀ j', s'.job? j.number = some j' →
    j'.phase.connected? = none ∧ (j.phase.past = true → j'.phase.past = true)
  sets : s.SetsNone s'

inductive Paces (s : Session) (j : Job) (s' : Session) : Turn → Prop where
  /-- the request does not wait for the turn -/
  | idles {t : Turn} (hjob : s'.job? j.number = some j) (hset : s.SetsNone s') (hidle : ¬ j.Heeds t) : Paces s j s' t
  | parts {t : Turn} (h : s.Parts j s') : Paces s j s' t
  | connects {run : Run} {steps : List ScriptStep} (hgoing : j.cancelled = false) (hnew : j.phase.past = false)
      (hout : runsOut (timeLimit run.request.settings) 0 = false)
      (hjob : s'.job? j.number = some { j with phase := .playing run steps })
      (hset : s.Sets [] [⟨run.deadline s.now, .expire j.number⟩] s') (hnext : .advance j.number ∈ s'.ready) :
      Paces s j s' (.advance j.number)
  /-- the process is connected, and its time is up at once -/
  | runsOut {run : Run} {steps : List ScriptStep} (hgoing : j.cancelled = false) (hnew : j.phase.past = false)
      (hout : FormatServer.runsOut (timeLimit run.request.settings) 0 = true)
      (hjob : s'.job? j.number = some { j with phase := .pausing run steps })
      (hset : s.Sets [.expire j.number] [] s') : Paces s j s' (.advance j.number)
  /-- the process takes a step that takes no time -/
  | steps {t : Turn} {run next : Run} {step : ScriptStep} {rest : List ScriptStep}
      (hplays : j.Plays run (step :: rest) t) (hstep : ∀ start, endOfSteps start (step :: rest) = endOfSteps start rest)
      (hpid : next.process.pid = run.process.pid) (hrequest : next.request = run.request)
      (hjob : s'.job? j.number = some { j with phase := .playing next rest }) (hset : s.SetsNone s')
      (hnext : .advance j.number ∈ s'.ready) : Paces s j s' t
  | sleeps {t : Turn} {run : Run} {ticks : Nat} {rest : List ScriptStep} (hplays : j.Plays run (.sleep ticks :: rest) t)
      (hjob : s'.job? j.number = some { j with phase := .pausing run rest })
      (hset : s.Sets [] [⟨roundTicks (s.now + ticks) 1, .wake j.number⟩] s') : Paces s j s' t
  | hangs {t : Turn} {run : Run} {rest : List ScriptStep} (hplays : j.Plays run (.hang :: rest) t)
      (hjob : s'.job? j.number = some { j with phase := .pausing run rest }) (hset : s.SetsNone s') : Paces s j s' t

private theorem Parts.after (h : s.SetsNone s₁) (hparts : s₁.Parts j s') : s.Parts j s' :=
  ⟨hparts.job, h.trans hparts.sets⟩

/-- What has happened before sets no alarm. -/
private theorem Paces.after (h : s.SetsNone s₁) (hpaces : s₁.Paces j s' t) : s.Paces j s' t := by
  cases hpaces with
  | idles hjob hset hidle => exact .idles hjob (h.trans hset) hidle
  | parts hparts => exact .parts (hparts.after h)
  | connects hgoing hnew hout hjob hset hnext =>
    exact .connects hgoing hnew hout hjob (h.now ▸ h.trans hset) hnext
  | runsOut hgoing hnew hout hjob hset => exact .runsOut hgoing hnew hout hjob (h.trans hset)
  | steps hplays hstep hpid hrequest hjob hset hnext =>
    exact .steps hplays hstep hpid hrequest hjob (h.trans hset) hnext
  | sleeps hplays hjob hset => exact .sleeps hplays hjob (h.now ▸ h.trans hset)
  | hangs hplays hjob hset => exact .hangs hplays hjob (h.trans hset)

private theorem setsNone_absorb (s : Session) (d : Disk) (events : List RunEvent) : s.SetsNone (s.absorb d events) :=
  .of_same rfl rfl rfl

private theorem setsNone_log (s : Session) (level : LogLevel) (text : String) : s.SetsNone (s.log level text) :=
  .of_same rfl rfl rfl

private theorem setsNone_reply (s : Session) (number : Nat) (r : ClientReply) :
    s.SetsNone (s.enqueue (.reply number r)) :=
  .of_queue [.reply number r] rfl rfl rfl rfl

private theorem setsNone_takes (s : Session) (d : Disk) (events : List RunEvent) :
    s.SetsNone (s.takeToken.2.absorb d events) :=
  .of_same rfl rfl rfl

private theorem job?_proceed (s : Session) (j : Job) (p : Phase) :
    (s.proceed j p).job? j.number = (s.job? j.number).map fun _ => { j with phase := p } := by
  have hset := job?_setJob s { j with phase := p } j.number
  rwa [if_pos rfl] at hset

/-- A request goes on in a phase in which no process of its is connected. -/
private theorem parts_proceed (s : Session) {p : Phase} (hp : p.connected? = none)
    (hpast : j.phase.past = true → p.past = true) : s.Parts j (s.proceed j p) := by
  refine ⟨fun j' hj' => ?_, .of_queue [.advance j.number] rfl rfl rfl rfl⟩
  rw [job?_proceed] at hj'
  obtain ⟨_, _, rfl⟩ := Option.map_eq_some_iff.mp hj'
  exact ⟨hp, hpast⟩

private theorem parts_conclude (s : Session) (j : Job) (r : Response) : s.Parts j (s.conclude j r) :=
  parts_proceed s rfl fun _ => rfl

private theorem parts_settle (s : Session) (j : Job) (o : Outcome) : s.Parts j (s.settle j o) := by
  cases o with
  | edits edits => exact parts_conclude s j _
  | failed e => exact .after (setsNone_log s .error e.message) (parts_conclude _ j _)
  | crashed c => exact parts_conclude s j _

/-- A run that ends settles its request. -/
private theorem parts_ends (s : Session) (j : Job) (stage : Stage Outcome) :
    s.Parts j ((s.absorb stage.disk stage.events).settle j stage.result) :=
  .after (setsNone_absorb s _ _) (parts_settle _ j _)

private theorem parts_resign (s : Session) (j : Job) (stage : Stage Unit) : s.Parts j (s.resign j stage) :=
  .after (setsNone_absorb s _ _) (parts_conclude _ j _)

private theorem parts_bury (s : Session) (j : Job) (run : Run) (why : Farewell) (turns : Nat) :
    s.Parts j (s.bury j run why turns) := by
  cases turns with
  | zero =>
    cases why with
    | expired => exact parts_ends s j (run.timeOut s.disk)
    | withdrawn => exact parts_resign s j _
    | unconnected => exact parts_resign s j _
  | succ turns => exact parts_proceed s rfl fun _ => rfl

/-- A process that goes on without the request takes its next step in a turn of its own. -/
private theorem Parts.abandon (h : s.Parts j s') (o : Orphan) : s.Parts j (s'.abandon o) :=
  ⟨h.job, h.sets.trans (SetsNone.of_queue [.orphan o.process.pid] rfl rfl rfl rfl)⟩

private theorem parts_kill (s : Session) (j : Job) (run : Run) (steps : List ScriptStep) (why : Farewell) :
    s.Parts j (s.kill j run steps why) := by
  unfold kill
  split
  · exact .after (setsNone_absorb s _ _) (parts_bury _ j run why _)
  · exact (parts_ends s j _).abandon _

private theorem paces_connect (h : s₁.SetsNone s) (hj : (s.job? j.number).isSome = true)
    (hgoing : j.cancelled = false) (hnew : j.phase.past = false) (run : Run) (steps : List ScriptStep) (turns : Nat) :
    s₁.Paces j (s.connect j run steps turns) (.advance j.number) := by
  obtain ⟨_, hj⟩ := Option.isSome_iff_exists.mp hj
  refine .after h ?_
  cases turns with
  | zero =>
    rw [connect, launch]
    split
    · next hout =>
      have hset := job?_setJob s { j with phase := .pausing run steps } j.number
      rw [if_pos rfl, hj] at hset
      exact .runsOut hgoing hnew hout hset ⟨rfl, ⟨[.expire j.number], rfl, rfl⟩, by simp [enqueue, setJob]⟩
    · next hout =>
      have hset := job?_setJob s { j with phase := .playing run steps } j.number
      rw [if_pos rfl, hj] at hset
      refine .connects hgoing hnew (Bool.eq_false_iff.mpr hout) hset
        ⟨rfl, ⟨[.advance j.number], rfl, rfl⟩, fun x _ => ?_⟩
        (List.mem_append_right _ (List.mem_singleton.mpr rfl))
      rw [List.mem_singleton]
      exact TimerHeap.mem_push _ _ x
  | succ turns =>
    exact .parts (parts_proceed s rfl fun hpast => absurd hpast (by simp [hnew]))

private theorem paces_startRun (h : s₁.SetsNone s) (hj : (s.job? j.number).isSome = true)
    (hgoing : j.cancelled = false) (hnew : j.phase.past = false) (settings : Settings) :
    s₁.Paces j (s.startRun j settings) (.advance j.number) := by
  refine .after h ?_
  unfold startRun
  split
  · exact .parts (parts_conclude s j _)
  · dsimp only
    generalize FormatServer.start _ _ _ = stage
    split
    · exact .parts (.after (setsNone_takes s _ _) (parts_settle _ j _))
    · next run _ =>
      refine paces_connect ?_ ?_ hgoing hnew run _ _
      · exact .of_same rfl rfl rfl
      · exact hj

private theorem parts_ask (s : Session) (hnew : j.phase.past = false) : s.Parts j (s.ask j) := by
  have hasked : ∀ s' : Session, s'.jobs = (s.setJob { j with phase := .asking }).jobs → s.SetsNone s' →
      s.Parts j s' := by
    intro s' hjobs hnone
    refine ⟨fun j' hj' => ?_, hnone⟩
    have hset := job?_setJob s { j with phase := .asking } j.number
    rw [job?, ← hjobs, ← job?, hj', if_pos rfl] at hset
    obtain ⟨_, _, rfl⟩ := Option.map_eq_some_iff.mp hset.symm
    exact ⟨rfl, fun hpast => absurd hpast (by simp [hnew])⟩
  have hsent : s.SetsNone
      ((s.takeToken.2.send (.configuration (tokenOf s.nextToken) j.uri)).setJob { j with phase := .asking }) :=
    .of_same rfl rfl rfl
  unfold ask
  dsimp only
  split
  · exact hasked _ rfl hsent
  · exact hasked _ rfl (hsent.trans (setsNone_reply _ j.number _))

private theorem paces_begin (hj : (s.job? j.number).isSome = true) (hgoing : j.cancelled = false)
    (hnew : j.phase.past = false) : s.Paces j (s.begin j) (.advance j.number) := by
  unfold begin
  split
  · exact .parts (parts_conclude s j _)
  · split
    · exact .parts (parts_settle s j _)
    · split
      · exact paces_startRun (.of_same rfl rfl rfl) hj hgoing hnew _
      · split
        · exact paces_startRun (.of_same rfl rfl rfl) hj hgoing hnew _
        · exact .parts (parts_ask s hnew)

private theorem paces_takeAnswer (hj : (s.job? j.number).isSome = true) (hgoing : j.cancelled = false)
    (hnew : j.phase.past = false) (a : ClientAnswer) : s.Paces j (s.takeAnswer j a) (.advance j.number) := by
  unfold takeAnswer
  split
  · exact .parts (parts_conclude s j _)
  · split
    · refine paces_startRun ?_ ?_ hgoing hnew _
      · exact .of_same rfl rfl rfl
      · exact hj
    · split
      · exact .parts (parts_settle s j _)
      · exact .parts (parts_conclude s j _)

private theorem endOfSteps_instant {step : ScriptStep} (hsleep : ∀ ticks, step ≠ .sleep ticks) (hhang : step ≠ .hang)
    (rest : List ScriptStep) (start : Nat) : endOfSteps start (step :: rest) = endOfSteps start rest := by
  cases step with
  | sleep ticks => exact absurd rfl (hsleep ticks)
  | hang => exact absurd rfl hhang
  | _ => rfl

private theorem job?_setJob_self (hj : s.job? j.number = some j) (p : Phase) :
    (s.setJob { j with phase := p }).job? j.number = some { j with phase := p } := by
  have hset := job?_setJob s { j with phase := p } j.number
  rwa [if_pos rfl, hj] at hset

/-- A process has performed a step that takes no time. -/
private theorem paces_performed (hj : s.job? j.number = some j) {run : Run} {step : ScriptStep}
    {rest : List ScriptStep} (hplays : j.Plays run (step :: rest) t) (hsleep : ∀ ticks, step ≠ .sleep ticks)
    (hhang : step ≠ .hang) (done : Process.Performed) (hpid : done.process.pid = run.process.pid) :
    s.Paces j (s.performed j run rest done) t := by
  unfold performed
  cases done.overrun with
  | none =>
    have hset := job?_setJob_self (s := s.absorb done.disk (outputEvents done.logs)) hj
      (.playing { run with process := done.process } rest)
    refine .steps hplays (endOfSteps_instant hsleep hhang rest) ?_ ?_ hset
      (.of_queue [.advance j.number] rfl rfl rfl rfl) (List.mem_append_right _ (List.mem_singleton.mpr rfl))
    · exact hpid
    · rfl
  | some cause => exact .parts (.after (setsNone_absorb s _ _) ((parts_ends _ j _).abandon _))

/-- The process of a request takes its next step. -/
private theorem paces_playStep (hj : s.job? j.number = some j) {run : Run} {steps : List ScriptStep}
    (hplays : j.Plays run steps t) : s.Paces j (s.playStep j run steps) t := by
  cases steps with
  | nil => exact .parts (.after (setsNone_absorb s _ _) (parts_proceed _ rfl fun _ => rfl))
  | cons step rest =>
    have hperform := paces_performed hj hplays
    cases step with
    | hang => exact .hangs hplays (job?_setJob_self hj _) (.of_same rfl rfl rfl)
    | sleep ticks =>
      refine .sleeps hplays (job?_setJob_self hj _) ⟨rfl, ⟨[], (List.append_nil _).symm, rfl⟩, fun x _ => ?_⟩
      rw [List.mem_singleton]
      exact TimerHeap.mem_push _ _ x
    | output stream bytes =>
      exact hperform (by simp) (by simp) (run.process.perform s.disk (.output stream bytes)) (pid_perform ..)
    | change c => exact hperform (by simp) (by simp) (run.process.perform s.disk (.change c)) rfl
    | exit code => exact hperform (by simp) (by simp) (run.process.perform s.disk (.exit code)) rfl

/-- **The next turn of a request.** -/
theorem paces_advance (hj : s.job? n = some j) : s.Paces j (s.take (.advance n)) (.advance n) := by
  obtain rfl := number_of_job? hj
  have hsome : (s.job? j.number).isSome = true := by rw [hj]; rfl
  have hidle : j.phase.connected? = none → s.Paces j s (.advance j.number) := fun hnone =>
    .idles hj (.of_same rfl rfl rfl) (Job.not_heeds_of_unconnected hnone _)
  rw [take_advance hj]
  unfold advance
  cases hphase : j.phase with
  | done r =>
    refine .parts ⟨fun j' hj' => ?_, .of_same rfl rfl rfl⟩
    have hgone : (s.finish j r).job? j.number = none :=
      (find?_filter_ne Job.number s.jobs j.number j.number).trans (if_pos rfl)
    rw [hgone] at hj'
    cases hj'
  | closed run => exact .parts (parts_ends s j _)
  | ending run why turns =>
    cases why with
    | withdrawn => exact .parts (parts_bury s j run _ turns)
    | unconnected => exact .parts (parts_bury s j run _ turns)
    | expired =>
      cases j.cancelled with
      | true =>
        simp only [giveUp, hphase]
        exact .parts (parts_resign s j _)
      | false => exact .parts (parts_bury s j run _ turns)
  | starting run steps turns =>
    cases hcancelled : j.cancelled with
    | true =>
      simp only [giveUp, hphase]
      exact .parts (parts_kill s j run steps _)
    | false =>
      exact paces_connect (.of_same rfl rfl rfl) hsome hcancelled (by rw [hphase]; rfl) run steps turns
  | playing run steps =>
    cases hcancelled : j.cancelled with
    | true =>
      simp only [giveUp, hphase]
      exact .parts (parts_kill s j run steps _)
    | false => exact paces_playStep hj (.playing hcancelled hphase)
  | pausing run steps =>
    cases hcancelled : j.cancelled with
    | true =>
      simp only [giveUp, hphase]
      exact .parts (parts_kill s j run steps _)
    | false => exact .idles hj (.of_same rfl rfl rfl) (by simp [Job.Heeds, hphase, hcancelled])
  | accepted =>
    cases hcancelled : j.cancelled with
    | true =>
      simp only [giveUp, hphase]
      exact .parts (parts_conclude s j _)
    | false => exact paces_begin hsome hcancelled (by rw [hphase]; rfl)
  | asking =>
    cases j.cancelled with
    | true =>
      simp only [giveUp, hphase]
      exact .parts (parts_conclude s j _)
    | false => exact hidle (by rw [hphase]; rfl)
  | answered a =>
    cases hcancelled : j.cancelled with
    | true =>
      simp only [giveUp, hphase]
      exact .parts (parts_conclude s j _)
    | false => exact paces_takeAnswer hsome hcancelled (by rw [hphase]; rfl) a

/-- **The end of a pause.** -/
theorem paces_wake (hj : s.job? n = some j) : s.Paces j (s.take (.wake n)) (.wake n) := by
  obtain rfl := number_of_job? hj
  rw [take, withJob, hj]
  dsimp only
  unfold wake
  cases hphase : j.phase with
  | pausing run steps => exact paces_playStep hj (.pausing hphase)
  | playing run steps =>
    refine .idles hj (.of_same rfl rfl rfl) ?_
    cases hcancelled : j.cancelled <;> simp [Job.Heeds, hphase, hcancelled]
  | _ => exact .idles hj (.of_same rfl rfl rfl) (Job.not_heeds_of_unconnected (by rw [hphase]; rfl) _)

/-- **The end of a request's time.** -/
theorem paces_expire (hj : s.job? n = some j) : s.Paces j (s.take (.expire n)) (.expire n) := by
  obtain rfl := number_of_job? hj
  rw [take, withJob, hj]
  dsimp only
  unfold expire
  split
  · exact .parts (parts_kill s j _ _ _)
  · exact .parts (parts_kill s j _ _ _)
  · next hplaying hpausing =>
    refine .idles hj (.of_same rfl rfl rfl) fun hheeds => ?_
    obtain ⟨hconnected, hgoing⟩ := j.heeds_expire_iff.mp hheeds
    cases hphase : j.phase with
    | playing run steps => exact hplaying run steps hphase hgoing
    | pausing run steps => exact hpausing run steps hphase hgoing
    | _ => simp [hphase, Phase.connected?] at hconnected

/-- **The client's answer.** -/
theorem paces_reply (hj : s.job? n = some j) (r : ClientReply) : s.Paces j (s.take (.reply n r)) (.reply n r) := by
  obtain rfl := number_of_job? hj
  have hidle : ¬ j.Heeds (.reply j.number r) := by
    unfold Job.Heeds
    split <;> simp
  rw [take, withJob, hj]
  dsimp only
  unfold takeReply
  split
  · next hphase _ => exact .parts (parts_proceed s rfl fun hpast => absurd hpast (by rw [hphase]; simp [Phase.past]))
  · exact .idles hj (.of_same rfl rfl rfl) hidle
  · exact .idles hj (.of_same rfl rfl rfl) hidle

/-! ## All turns -/

private theorem setsNone_playOrphan (s : Session) (o : Orphan) : s.SetsNone (s.playOrphan o) := by
  have hturn : ∀ {s' : Session}, s'.now = s.now → s'.ready = s.ready ++ [.orphan o.process.pid] →
      s'.timers = s.timers → s.SetsNone s' := fun hnow hready htimers => .of_queue _ hnow hready rfl htimers
  unfold playOrphan
  cases o.steps with
  | nil => exact .of_same rfl rfl rfl
  | cons step steps =>
    cases step with
    | hang => exact .of_same rfl rfl rfl
    | sleep ticks =>
      refine ⟨rfl, ⟨[], (List.append_nil _).symm, rfl⟩, fun x hx => ?_⟩
      refine (TimerHeap.mem_push _ _ x).trans (or_congr_right (iff_of_false ?_ List.not_mem_nil))
      rintro rfl
      cases hx
    | output stream bytes => exact hturn rfl rfl rfl
    | change c => exact hturn rfl rfl rfl
    | exit code => exact hturn rfl rfl rfl

/-- **What a turn does with alarms** is a matter of the request whose turn it is, if there is one. -/
theorem alarms_take (s : Session) (t : Turn) :
    (s.SetsNone (s.take t) ∧ (s.take t).jobs = s.jobs ∧ ∀ n j, s.job? n = some j → t.request? ≠ some n) ∨
      ∃ j, s.job? j.number = some j ∧ t.request? = some j.number ∧ s.Paces j (s.take t) t ∧
        ∀ n, n ≠ j.number → (s.take t).job? n = s.job? n := by
  have hgone : ∀ {n : Nat} {f : Session → Job → Session}, s.job? n = none → t.request? = some n →
      s.take t = s.withJob n f →
      (s.SetsNone (s.take t) ∧ (s.take t).jobs = s.jobs ∧ ∀ n j, s.job? n = some j → t.request? ≠ some n) := by
    intro n f hj ht htake
    rw [htake, withJob, hj]
    refine ⟨.of_same rfl rfl rfl, rfl, fun k j hk hrequest => ?_⟩
    rw [ht] at hrequest
    obtain rfl := Option.some.inj hrequest
    rw [hj] at hk
    cases hk
  cases t with
  | advance n =>
    cases hj : s.job? n with
    | none => exact .inl (hgone hj rfl rfl)
    | some j =>
      obtain rfl := number_of_job? hj
      exact .inr ⟨j, hj, rfl, paces_advance hj, fun k hk => job?_take_of_ne rfl hk⟩
  | wake n =>
    cases hj : s.job? n with
    | none => exact .inl (hgone hj rfl rfl)
    | some j =>
      obtain rfl := number_of_job? hj
      exact .inr ⟨j, hj, rfl, paces_wake hj, fun k hk => job?_take_of_ne rfl hk⟩
  | expire n =>
    cases hj : s.job? n with
    | none => exact .inl (hgone hj rfl rfl)
    | some j =>
      obtain rfl := number_of_job? hj
      exact .inr ⟨j, hj, rfl, paces_expire hj, fun k hk => job?_take_of_ne rfl hk⟩
  | reply n r =>
    cases hj : s.job? n with
    | none => exact .inl (hgone (f := fun s j => s.takeReply j r) hj rfl rfl)
    | some j =>
      obtain rfl := number_of_job? hj
      exact .inr ⟨j, hj, rfl, paces_reply hj r, fun k hk => job?_reply_of_ne hk⟩
  | orphan pid =>
    rw [take]
    split
    · exact .inl ⟨.of_same rfl rfl rfl, rfl, by simp [Turn.request?]⟩
    · exact .inl ⟨setsNone_playOrphan s _, (plays_playOrphan s _).jobs, by simp [Turn.request?]⟩
  | opened uri => exact .inl ⟨.of_same rfl rfl rfl, rfl, by simp [Turn.request?]⟩
  | closed uri => exact .inl ⟨.of_same rfl rfl rfl, rfl, by simp [Turn.request?]⟩

/-! ## Messages -/

private theorem setsNone_withdraw (s : Session) (number : Nat) : s.SetsNone (s.withdraw number) := by
  unfold withdraw
  split
  · exact .of_same rfl rfl rfl
  · dsimp only
    split
    · exact .of_queue [.advance number] rfl rfl rfl rfl
    · exact .of_queue [.advance number] rfl rfl rfl rfl
    · exact .of_same rfl rfl rfl

private theorem setsNone_cancelAll (s : Session) : s.SetsNone s.cancelAll := by
  unfold cancelAll
  generalize s.withdrawable = pairs
  induction pairs generalizing s with
  | nil => exact .of_same rfl rfl rfl
  | cons pair rest ih => exact (setsNone_withdraw s pair.2).trans (ih _)

private theorem setsNone_handshake (s : Session) (id : RequestId) (c : ClientProfile) :
    s.SetsNone (s.handshake id c) := by
  have hload : ∀ {root : Path} {s₁ s₂ : Session}, s₁.loadWorkspace root = .ok s₂ →
      s₂.now = s₁.now ∧ s₂.ready = s₁.ready ∧ s₂.timers = s₁.timers := by
    intro root s₁ s₂ h
    unfold loadWorkspace at h
    split at h
    · next settings found _ =>
      obtain rfl := Except.ok.inj h
      cases found <;> exact ⟨rfl, rfl, rfl⟩
    · split at h
      · obtain rfl := Except.ok.inj h
        exact ⟨rfl, rfl, rfl⟩
      · cases h
  unfold handshake
  dsimp only
  split
  · exact .of_same rfl rfl rfl
  · split
    · exact .of_same rfl rfl rfl
    · split
      · exact .of_same rfl rfl rfl
      · split
        · exact .of_same rfl rfl rfl
        · exact .of_same rfl rfl rfl
        · split
          · next h =>
            obtain ⟨hnow, hready, htimers⟩ := hload h
            exact .of_same hnow hready htimers
          · exact .of_same rfl rfl rfl

private theorem setsNone_handleCall (s : Session) (id : RequestId) (c : Call) : s.SetsNone (s.handleCall id c) := by
  cases c with
  | handshake client => exact setsNone_handshake s id client
  | shutdown =>
    have h := setsNone_cancelAll s
    exact ⟨h.now, h.ready, h.timers⟩
  | format uri range => exact .of_queue [.advance s.nextJob] rfl rfl rfl rfl
  | command name => exact .of_same rfl rfl rfl
  | other method => exact .of_same rfl rfl rfl

private theorem setsNone_withStore (s : Session) (f : DocumentStore → Session → Session)
    (hf : ∀ store, s.SetsNone (f store s)) : s.SetsNone (s.withStore f) := by
  unfold withStore
  split
  · exact .of_same rfl rfl rfl
  · exact hf _

private theorem setsNone_documentOpened (s : Session) (d : Document) : s.SetsNone (s.documentOpened d) := by
  refine setsNone_withStore s _ fun store => ?_
  split
  · exact .of_same rfl rfl rfl
  · exact .of_queue [.opened d.uri] rfl rfl rfl rfl

private theorem setsNone_documentChanged (s : Session) (uri : String) (version : Int) (texts : List String) :
    s.SetsNone (s.documentChanged uri version texts) := by
  refine setsNone_withStore s _ fun store => ?_
  split <;> exact .of_same rfl rfl rfl

private theorem setsNone_documentClosed (s : Session) (uri : String) : s.SetsNone (s.documentClosed uri) := by
  refine setsNone_withStore s _ fun store => ?_
  exact .of_queue [.closed uri] rfl rfl rfl rfl

private theorem setsNone_cancel (s : Session) (id : RequestId) : s.SetsNone (s.cancel id) := by
  unfold cancel
  split
  · exact .of_same rfl rfl rfl
  · next number _ =>
    have h := setsNone_withdraw { s with withdrawable := s.withdrawableBut id } number
    exact ⟨h.now, h.ready, h.timers⟩

private theorem setsNone_configured (s : Session) (pushed : Value) : s.SetsNone (s.configured pushed) := by
  unfold configured
  split
  · exact .of_same rfl rfl rfl
  · split
    · exact .of_same rfl rfl rfl
    · split <;> exact .of_same rfl rfl rfl

private theorem setsNone_clientReady (s : Session) : s.SetsNone s.clientReady := by
  unfold clientReady
  dsimp only
  split
  · split <;> exact .of_same rfl rfl rfl
  · split <;> exact .of_same rfl rfl rfl

private theorem setsNone_foldersChanged (s : Session) (changed : Bool) : s.SetsNone (s.foldersChanged changed) := by
  unfold foldersChanged
  split
  · exact .of_same rfl rfl rfl
  · split <;> exact .of_same rfl rfl rfl

private theorem setsNone_handleNotice (s : Session) {notice : Notice} (hexit : notice ≠ .exit) :
    s.SetsNone (s.handleNotice notice) := by
  cases notice with
  | exit => exact absurd rfl hexit
  | cancel id => exact setsNone_cancel s id
  | opened d => exact setsNone_documentOpened s d
  | changed uri version texts => exact setsNone_documentChanged s uri version texts
  | closed uri => exact setsNone_documentClosed s uri
  | configured settings => exact setsNone_configured s settings
  | ready => exact setsNone_clientReady s
  | folders changed => exact setsNone_foldersChanged s changed
  | other => exact .of_same rfl rfl rfl

private theorem advance_of_withdraw (hj : s.job? n = some j) {run : Run} {steps : List ScriptStep}
    (hphase : j.phase = .pausing run steps) : .advance n ∈ (s.withdraw n).ready := by
  unfold withdraw
  rw [hj]
  dsimp only
  rw [hphase]
  exact List.mem_append_right _ (List.mem_singleton.mpr rfl)

private theorem advance_of_cancelAll (hj : s.job? n = some j) {run : Run} {steps : List ScriptStep}
    (hphase : j.phase = .pausing run steps) (hmem : n ∈ s.withdrawable.map Prod.snd) :
    .advance n ∈ s.cancelAll.ready := by
  have hgets : n ∈ s.withdrawable.map Prod.snd ∨ .advance n ∈ s.ready := .inl hmem
  unfold cancelAll
  generalize s.withdrawable = pairs at hgets
  clear hmem
  induction pairs generalizing s j with
  | nil => exact hgets.resolve_left List.not_mem_nil
  | cons pair rest ih =>
    refine ih ((hears_withdraw s pair.2).jobs n j hj) hphase ?_
    obtain ⟨new, hready, -⟩ := (setsNone_withdraw s pair.2).ready
    rcases hgets with hgets | hgets
    · rcases List.mem_cons.mp hgets with rfl | hgets
      · exact .inr (advance_of_withdraw hj hphase)
      · exact .inl hgets
    · exact .inr (hready ▸ List.mem_append_left _ hgets)

/-- **A request that is withdrawn in a pause gets a turn.** -/
theorem advance_of_withdrawn (hj : s.job? n = some j) {run : Run} {steps : List ScriptStep}
    (hphase : j.phase = .pausing run steps) {m : Except MessageFault Incoming} (hmem : n ∈ s.withdrawn m) :
    .advance n ∈ (s.receive m).ready := by
  unfold withdrawn at hmem
  split at hmem
  · next id =>
    split at hmem
    · next hrunning =>
      rw [receive_notice hrunning]
      change .advance n ∈ (s.cancel id).ready
      rw [cancel, Option.mem_toList.mp hmem]
      exact advance_of_withdraw (s := { s with withdrawable := s.withdrawableBut id }) hj hphase
    · cases hmem
  · next id =>
    split at hmem
    · next hrunning =>
      rw [receive_call hrunning]
      exact advance_of_cancelAll hj hphase hmem
    · cases hmem
  · cases hmem

structure Ends (s s' : Session) : Prop where
  status : s'.status = .ended
  now : s'.now = s.now
  ready : s'.ready = []
  timers : s'.timers = {}

/-- **Messages set no alarm and lose none**, but for the one with which the session ends. -/
theorem alarms_receive (s : Session) (m : Except MessageFault Incoming) :
    s.SetsNone (s.receive m) ∨ s.Ends (s.receive m) := by
  have hexit : s.Ends s.exit := ⟨rfl, rfl, rfl, rfl⟩
  have hhandles := handles_receive s m
  generalize s.receive m = s' at hhandles
  cases hhandles with
  | finished => exact .inl (.of_same rfl rfl rfl)
  | fault => exact .inl (.of_same rfl rfl rfl)
  | call _ id c => exact .inl (setsNone_handleCall s id c)
  | notice _ notice =>
    by_cases hlast : notice = .exit
    · subst hlast
      exact .inr hexit
    · exact .inl (setsNone_handleNotice s hlast)
  | ignored => exact .inl (.of_same rfl rfl rfl)
  | exit => exact .inr hexit
  | unhandled => exact .inl (.of_same rfl rfl rfl)

end Session

end FormatServer
