import FormatServer.Proofs.Session.DocumentSettings

/-!
The way of one request through a session. In a move of a session a request is left alone or withdrawn, it asks
for settings or gets them, its run starts or goes on, it ends, or it is answered (`treats_act`). There are few
ways to end (`Concludes`), and what is said of an end and answered depends on it alone.
-/

namespace FormatServer

open Session

/-! ## Events of runs -/

def Errorless (events : List RunEvent) : Prop := ∀ text, .logged .error text ∉ events

@[simp] theorem errorless_nil : Errorless [] := fun _ => List.not_mem_nil

@[simp] theorem errorless_append (a b : List RunEvent) : Errorless (a ++ b) ↔ Errorless a ∧ Errorless b := by
  simp only [Errorless, List.mem_append, not_or, forall_and]

@[simp] theorem errorless_cons (x : RunEvent) (rest : List RunEvent) :
    Errorless (x :: rest) ↔ (∀ text, .logged .error text ≠ x) ∧ Errorless rest := by
  simp only [Errorless, List.mem_cons, not_or, forall_and]

@[simp] theorem errorless_outputEvents (logs : List String) : Errorless (outputEvents logs) := by
  simp [Errorless, outputEvents]

@[simp] theorem errorless_cleanUp (d : Disk) (p : Path) : Errorless (cleanUp d p).2 := by
  rw [cleanUp]
  split <;> simp

@[simp] theorem errorless_timeOut (run : Run) (d : Disk) : Errorless (run.timeOut d).events := by
  simp [Run.timeOut, Run.killNotice]

@[simp] theorem errorless_abandon (run : Run) (d : Disk) : Errorless (run.abandon d).events := by
  simp [Run.abandon, Run.killNotice]

@[simp] theorem errorless_leave (run : Run) (d : Disk) : Errorless (run.leave d).events := by
  simp [Run.leave]

@[simp] theorem errorless_signal (run : Run) (why : Farewell) : Errorless [run.signal why] := by
  cases why <;> simp [Run.signal]

@[simp] theorem errorless_spare (run : Run) (d : Disk) (why : Farewell) :
    Errorless (run.spare d why).events := by
  cases why <;> simp [Run.spare]

theorem errorless_start (c : RunContext) (r : FormatRequest) (d : Disk) : Errorless (start c r d).events := by
  have hspawn : ∀ {range : TextRange} {p : Path} {d : Disk} {events : List RunEvent}, Errorless events →
      Errorless (spawn c r range p d events).events := by
    intro range p d events h
    unfold spawn
    split
    · simpa using h
    · dsimp only
      split
      · simpa using h
      · cases c.script.refusal with
        | none => simpa using h
        | some number => simpa using h
  unfold start
  split
  · exact errorless_nil
  · split
    · exact errorless_nil
    · next p _ =>
      dsimp only
      split
      · simp
      · cases d.write p _ with
        | error e => simp
        | ok d => exact hspawn (by simp)

/-! ## Ends of requests -/

inductive Conclusion where
  | returned (edits : List TextEdit)
  | withdrawn
  | failed (e : FormatError)
  /-- an error that is no formatting error, which is passed on -/
  | passed (e : ResponseError)

namespace Conclusion

def response (id : RequestId) : Conclusion → Response
  | returned edits => .edits edits
  | withdrawn => .error (.cancelled id)
  | failed e => .error (.formatting e)
  | passed e => .error e

/-- What is said of an end: a formatting error is logged. -/
def report : Conclusion → List SessionEvent
  | failed e => [.sent (.log .error e.message)]
  | _ => []

def ofOutcome : Outcome → Conclusion
  | .edits edits => returned edits
  | .failed e => failed e
  | .crashed c => passed (.unforeseen c.kind c.message)

def ofFarewell (run : Run) : Farewell → Conclusion
  | .expired => failed (.timeout run.request.settings.timeout)
  | .withdrawn | .unconnected => withdrawn

theorem response_ofOutcome (id : RequestId) (o : Outcome) : (ofOutcome o).response id = o.answer := by
  cases o <;> rfl

theorem report_ofOutcome (o : Outcome) : (ofOutcome o).report = o.entries := by
  cases o <;> rfl

end Conclusion

/-- The run that a request is in, as long as its process is not told to end. -/
def Phase.going? : Phase → Option Run
  | .starting run _ _ | .playing run _ | .pausing run _ | .closed run => some run
  | _ => none

def Phase.run? : Phase → Option Run
  | .ending run _ _ => some run
  | p => p.going?

theorem run?_of_going? {p : Phase} {run : Run} (h : p.going? = some run) : p.run? = some run := by
  cases p with
  | ending => cases h
  | _ => exact h

theorem going?_firstPhase (run : Run) (steps : List ScriptStep) (turns : Nat) :
    (Job.firstPhase run steps turns).going? = some run := by
  cases turns with
  | zero =>
    rw [Job.firstPhase]
    split <;> rfl
  | succ turns => rfl

theorem Job.Dismisses.going? {j : Job} {run : Run} {why : Farewell} (h : j.Dismisses run why) :
    j.phase.going? = some run := by
  cases h with
  | expired _ hphase | withdrawn _ hphase => rcases hphase with hphase | hphase <;> rw [hphase] <;> rfl
  | unconnected _ hphase => rw [hphase]; rfl

theorem not_done_of_going? {j : Job} {run : Run} (h : j.phase.going? = some run) (r : Response) :
    j.phase ≠ .done r := by
  intro hdone
  rw [hdone] at h
  cases h

namespace Session

inductive Concludes (s : Session) (j : Job) : Turn → Conclusion → Prop where
  /-- the client has withdrawn it before its run has begun -/
  | withdrawn (hcancelled : j.cancelled = true) (hbegun : j.begun = false) :
      Concludes s j (.advance j.number) .withdrawn
  | noWorkspace (hgoing : j.cancelled = false) (hbegun : j.begun = false) (hnone : s.workspace = none) :
      Concludes s j (.advance j.number) (.passed (.unforeseen noWorkspace.1 noWorkspace.2))
  | notOpen {w : Workspace} (hgoing : j.cancelled = false) (hphase : j.phase = .accepted)
      (hw : s.workspace = some w) (hopen : w.store.contains j.uri = false) :
      Concludes s j (.advance j.number) (.failed (.documentNotFound j.uri))
  /-- the client answers with an error -/
  | byClient {e : ResponseError} (hgoing : j.cancelled = false) (hphase : j.phase = .answered (.error e)) :
      Concludes s j (.advance j.number) (.passed e)
  | invalid {v : Value} {e : Settings.Error} (hgoing : j.cancelled = false)
      (hphase : j.phase = .answered (.settings v)) (hsettle : s.cache.settle j.uri v = .error e)
      (hrefusal : e.isRefusal = true) :
      Concludes s j (.advance j.number) (.failed (.invalidSettings j.uri e.message))
  /-- the client's settings cannot even be examined -/
  | unexamined {v : Value} {e : Settings.Error} (hgoing : j.cancelled = false)
      (hphase : j.phase = .answered (.settings v)) (hsettle : s.cache.settle j.uri v = .error e)
      (hforeign : e.isRefusal = false) :
      Concludes s j (.advance j.number) (.passed (.unforeseen e.kind e.message))
  /-- no process is under way after its start -/
  | unstarted {w : Workspace} {t : Settings} {o : Outcome} (hw : s.workspace = some w)
      (hsettings : s.settingsFor j = some t)
      (hstart : (FormatServer.start (s.context w) { uri := j.uri, range := j.range, settings := t }
        s.disk).result = .error o) :
      Concludes s j (.advance j.number) (.ofOutcome o)
  /-- the process has ended -/
  | exited {run : Run} (hphase : j.phase = .closed run) :
      Concludes s j (.advance j.number) (.ofOutcome (run.conclude s.disk).result)
  /-- the process is told to end, and has at once -/
  | told {run : Run} {why : Farewell} (h : j.Dismisses run why) (hkillable : run.process.killable = true)
      (hturns : run.process.killing.turns = 0) : Concludes s j (why.turn j.number) (.ofFarewell run why)
  /-- the process was told to end, and has -/
  | buried {run : Run} {why : Farewell} (hphase : j.phase = .ending run why 0)
      (hcancelled : why = .expired → j.cancelled = false) :
      Concludes s j (.advance j.number) (.ofFarewell run why)
  /-- the process was told to end as the time was up, and the client has withdrawn the request since -/
  | deserted {run : Run} {turns : Nat} (hphase : j.phase = .ending run .expired turns)
      (hcancelled : j.cancelled = true) : Concludes s j (.advance j.number) .withdrawn
  /-- the process may not be told to end, and goes on without the request -/
  | spared {run : Run} {why : Farewell} (h : j.Dismisses run why) (hkillable : run.process.killable = false) :
      Concludes s j (why.turn j.number) (.ofOutcome (run.spare s.disk why).result)
  /-- a line is too long -/
  | overran {t : Turn} {run : Run} {step : ScriptStep} {rest : List ScriptStep} {cause : Overrun}
      (hphase : t = .advance j.number ∧ j.cancelled = false ∧ j.phase = .playing run (step :: rest) ∨
        t = .wake j.number ∧ j.phase = .pausing run (step :: rest))
      (hcause : (run.process.perform s.disk step).overrun = some cause) :
      Concludes s j t (.ofOutcome (.crashed (.line cause)))

/-! ## Moves -/

/-- What a move makes of a request, and what is heard of it. -/
inductive Treats (s : Session) (j : Job) : Move → Option Job → List SessionEvent → Prop where
  /-- nothing, or the request is withdrawn -/
  | spares (x : Move) (cancelled : Bool) (h : j.cancelled = true → cancelled = true) :
      Treats s j x (some { j with cancelled }) []
  /-- the client is asked -/
  | asks (token : String) {w : Workspace} (hw : s.workspace = some w) (hphase : j.phase = .accepted)
      (hconfiguration : s.configuration = true) :
      Treats s j (.turn (.advance j.number)) (some { j with phase := .asking })
        [.sent (.configuration token j.uri)]
  /-- the client answers -/
  | hears {r : ClientReply} {a : ClientAnswer} (hphase : j.phase = .asking) (ha : answer? r = some a) :
      Treats s j (.turn (.reply j.number r)) (some { j with phase := .answered a }) []
  | starts {w : Workspace} {t : Settings} {run : Run} (steps : List ScriptStep) (turns : Nat)
      (hbegun : j.begun = false) (hw : s.workspace = some w) (hsettings : s.settingsFor j = some t)
      (hrun : run.request.settings = t) :
      Treats s j (.turn (.advance j.number)) (some { j with phase := Job.firstPhase run steps turns })
        ((FormatServer.start (s.context w) { uri := j.uri, range := j.range, settings := t }
          s.disk).events.map eventOf)
  /-- the process goes on -/
  | plays {x : Move} {run next : Run} {p : Phase} {logs : List String} (hrun : j.phase.going? = some run)
      (hp : p.going? = some next) (hsame : next.request = run.request) :
      Treats s j x (some { j with phase := p }) ((outputEvents logs).map eventOf)
  /-- the process is told to end -/
  | dismisses {run : Run} {why : Farewell} (turns : Nat) (h : j.Dismisses run why) :
      Treats s j (.turn (why.turn j.number)) (some { j with phase := .ending run why turns })
        ([run.signal why].map eventOf)
  /-- the process is coming to its end -/
  | buries {run : Run} {why : Farewell} {turns : Nat} (hphase : j.phase = .ending run why (turns + 1)) :
      Treats s j (.turn (.advance j.number)) (some { j with phase := .ending run why turns }) []
  | ends {t : Turn} {c : Conclusion} {events : List RunEvent} (h : s.Concludes j t c)
      (hdone : ∀ r, j.phase ≠ .done r) (herrorless : Errorless events)
      (hspawns : ∀ command content, .spawned command content ∈ events →
        ∃ w settings, t = .advance j.number ∧ s.workspace = some w ∧
          s.settingsFor j = some settings ∧ .spawned command content ∈
            (FormatServer.start (s.context w) { uri := j.uri, range := j.range, settings }
              s.disk).events) :
      Treats s j (.turn t) (some { j with phase := .done (c.response j.id) })
        (events.map eventOf ++ c.report)
  | leaves {r : Response} (hphase : j.phase = .done r) :
      Treats s j (.turn (.advance j.number)) none [.sent (.response j.id r)]

variable {s : Session} {j : Job} {n : Nat} {x : Move} {t : Turn}

/-- A request stays as it is. -/
theorem Treats.stays (s : Session) (j : Job) (x : Move) : s.Treats j x (some j) [] :=
  .spares x j.cancelled id

/-! ### Turns of a request whose run has begun -/

/-- A request ends as its run does, which neither alarms nor starts anything, after some events. -/
private theorem treats_ends {stage : Stage Outcome} {before : List RunEvent}
    (hdone : ∀ r, j.phase ≠ .done r) (h : s.Concludes j t (.ofOutcome stage.result))
    (hbefore : Errorless before) (hfirst : spawns before = []) (herrorless : Errorless stage.events)
    (hspawns : spawns stage.events = []) :
    let m := (j.ends stage).after before
    s.Treats j (.turn t) m.job m.events := by
  have hsilent : Errorless (before ++ stage.events) := by simp [hbefore, herrorless]
  have hends := Treats.ends h hdone hsilent fun command content hmem => by
    rw [mem_spawns, spawns_append, hfirst, hspawns] at hmem
    cases hmem
  rwa [Conclusion.report_ofOutcome, Conclusion.response_ofOutcome, List.map_append,
    List.append_assoc] at hends

/-- A request that was withdrawn ends with its run, after some events. -/
private theorem treats_resigns {stage : Stage Unit} {before : List RunEvent}
    (hdone : ∀ r, j.phase ≠ .done r) (h : s.Concludes j t .withdrawn) (hbefore : Errorless before)
    (hfirst : spawns before = []) (herrorless : Errorless stage.events)
    (hspawns : spawns stage.events = []) :
    let m := (j.resigns stage).after before
    s.Treats j (.turn t) m.job m.events := by
  have hsilent : Errorless (before ++ stage.events) := by simp [hbefore, herrorless]
  have hends := Treats.ends h hdone hsilent fun command content hmem => by
    rw [mem_spawns, spawns_append, hfirst, hspawns] at hmem
    cases hmem
  rwa [show Conclusion.report .withdrawn = [] from rfl, List.append_nil, List.map_append] at hends

private theorem treats_plays {run : Run} {steps : List ScriptStep}
    (hphase : t = .advance j.number ∧ j.cancelled = false ∧ j.phase = .playing run steps ∨
      t = .wake j.number ∧ j.phase = .pausing run steps) :
    s.Treats j (.turn t) (j.plays run s.disk steps).job (j.plays run s.disk steps).events := by
  have hrun : j.phase.going? = some run := by
    rcases hphase with ⟨-, -, hphase⟩ | ⟨-, hphase⟩ <;> rw [hphase] <;> rfl
  have hdone := not_done_of_going? hrun
  have hperform : ∀ (step : ScriptStep) (rest : List ScriptStep), steps = step :: rest →
      j.plays run s.disk (step :: rest) = j.performed run rest (run.process.perform s.disk step) →
      s.Treats j (.turn t) (j.plays run s.disk (step :: rest)).job
        (j.plays run s.disk (step :: rest)).events := by
    rintro step rest rfl hplays
    rw [hplays]
    unfold Job.performed
    cases hcause : (run.process.perform s.disk step).overrun with
    | none => exact .plays hrun rfl rfl
    | some cause =>
      exact treats_ends hdone (.overran hphase hcause) (errorless_outputEvents _)
        (spawns_outputEvents _) (by simp [Run.overrun]) (spawns_overrun _ _ _)
  cases steps with
  | nil => exact .plays hrun rfl rfl
  | cons step rest =>
    cases step with
    | hang =>
      change s.Treats j (.turn t) _ ((outputEvents []).map eventOf)
      exact .plays hrun rfl rfl
    | sleep ticks =>
      change s.Treats j (.turn t) _ ((outputEvents []).map eventOf)
      exact .plays hrun rfl rfl
    | output stream bytes => exact hperform (.output stream bytes) rest rfl rfl
    | change c => exact hperform (.change c) rest rfl rfl
    | exit code => exact hperform (.exit code) rest rfl rfl

/-- A request ends as its process has, which was told to after these events. -/
private theorem treats_parts {run : Run} {why : Farewell} {before : List RunEvent}
    (hdone : ∀ r, j.phase ≠ .done r) (h : s.Concludes j t (.ofFarewell run why))
    (herrorless : Errorless before) (hspawns : spawns before = []) :
    let m := (j.parts run s.disk why).after before
    s.Treats j (.turn t) m.job m.events := by
  cases why with
  | expired => exact treats_ends hdone h herrorless hspawns (by simp) (by simp)
  | withdrawn => exact treats_resigns hdone h herrorless hspawns (by simp) (by simp)
  | unconnected => exact treats_resigns hdone h herrorless hspawns (by simp) (by simp)

/-- A request tells its process to end. -/
private theorem treats_kills {run : Run} {why : Farewell} (h : j.Dismisses run why)
    (steps : List ScriptStep) :
    let m := j.kills run steps why s.disk
    s.Treats j (.turn (why.turn j.number)) m.job m.events := by
  have hdone := not_done_of_going? h.going?
  unfold Job.kills
  cases hkillable : run.process.killable with
  | false =>
    exact treats_ends hdone (.spared h hkillable) errorless_nil rfl (errorless_spare _ _ _)
      (spawns_spare _ _ _)
  | true =>
    rw [if_pos rfl]
    cases hturns : run.process.killing.turns with
    | zero =>
      exact treats_parts hdone (.told h hkillable hturns) (errorless_signal run why)
        (spawns_signal run why [])
    | succ turns => exact .dismisses turns h

/-- The process of a request is coming to its end. -/
private theorem treats_buries {run : Run} {why : Farewell} {turns : Nat}
    (hphase : j.phase = .ending run why turns) (hcancelled : why = .expired → j.cancelled = false) :
    let m := j.buries run why s.disk turns
    s.Treats j (.turn (.advance j.number)) m.job m.events := by
  cases turns with
  | zero =>
    exact treats_parts (by simp [hphase]) (.buried hphase hcancelled) errorless_nil rfl
  | succ turns => exact .buries hphase

private theorem treats_advances (hbegun : j.begun = true) :
    s.Treats j (.turn (.advance j.number)) (j.advances s.disk).job (j.advances s.disk).events := by
  unfold Job.begun at hbegun
  unfold Job.advances
  cases hphase : j.phase with
  | accepted => simp [hphase] at hbegun
  | asking => simp [hphase] at hbegun
  | answered a => simp [hphase] at hbegun
  | done r => exact .leaves hphase
  | closed run =>
    exact treats_ends (by simp [hphase]) (.exited hphase) errorless_nil rfl
      (by simp [Run.conclude]) (spawns_conclude _ _)
  | ending run why turns =>
    cases why with
    | withdrawn => exact treats_buries hphase (by simp)
    | unconnected => exact treats_buries hphase (by simp)
    | expired =>
      cases hcancelled : j.cancelled with
      | false => exact treats_buries hphase fun _ => hcancelled
      | true =>
        exact treats_resigns (by simp [hphase]) (.deserted hphase hcancelled) errorless_nil rfl
          (errorless_leave _ _) (spawns_leave _ _)
  | starting run steps turns =>
    cases hcancelled : j.cancelled with
    | false =>
      have hplays : s.Treats j (.turn (.advance j.number)) _ ((outputEvents []).map eventOf) :=
        .plays (by rw [hphase]; rfl) (going?_firstPhase run steps turns) rfl
      exact hplays
    | true => exact treats_kills (.unconnected hcancelled hphase) steps
  | playing run steps =>
    cases hcancelled : j.cancelled with
    | false => exact treats_plays (.inl ⟨rfl, hcancelled, hphase⟩)
    | true => exact treats_kills (.withdrawn hcancelled (.inl hphase)) steps
  | pausing run steps =>
    cases hcancelled : j.cancelled with
    | false => exact .stays s j _
    | true => exact treats_kills (.withdrawn hcancelled (.inr hphase)) steps

/-- A turn of a request whose run has begun. -/
private theorem treats_moved (hj : s.job? n = some j) (hbegun : j.begun = true) {o : OwnMove}
    (ht : t.own? = some (n, o)) :
    s.Treats j (.turn t) ((s.act (.turn t)).job? n) (s.heardOf n (.turn t)) := by
  have hmakes := makes_moved hj hbegun o
  rw [← take_of_own? ht] at hmakes
  rw [heardOf_of_makes ht hmakes, show (s.act (.turn t)).job? n = _ from hmakes.job]
  obtain rfl := number_of_job? hj
  cases t with
  | advance number =>
    obtain ⟨rfl, rfl⟩ := Prod.mk.inj (Option.some.inj ht)
    exact treats_advances hbegun
  | wake number =>
    obtain ⟨rfl, rfl⟩ := Prod.mk.inj (Option.some.inj ht)
    unfold Job.moved
    cases hphase : j.phase with
    | pausing run steps => exact treats_plays (.inr ⟨rfl, hphase⟩)
    | _ => exact .stays s j _
  | expire number =>
    obtain ⟨rfl, rfl⟩ := Prod.mk.inj (Option.some.inj ht)
    unfold Job.moved
    dsimp only
    split
    · next run steps hphase hgoing => exact treats_kills (.expired hgoing (.inl hphase)) steps
    · next run steps hphase hgoing => exact treats_kills (.expired hgoing (.inr hphase)) steps
    · exact .stays s j _
  | _ => cases ht

/-! ### Turns of a request whose run has not begun -/

/-- Whatever a session makes of a request in its next turn is heard of it then. -/
private theorem treats_of_makes {m : Moved} (hj : s.job? j.number = some j)
    (hmakes : s.Makes j.number m (s.advance j))
    (h : s.Treats j (.turn (.advance j.number)) m.job m.events) :
    s.Treats j (.turn (.advance j.number)) ((s.act (.turn (.advance j.number))).job? j.number)
      (s.heardOf j.number (.turn (.advance j.number))) := by
  rw [← take_advance hj] at hmakes
  rw [heardOf_of_makes rfl hmakes, show (s.act (.turn (.advance j.number))).job? j.number = _ from hmakes.job]
  exact h

/-- Nothing but a report is heard of a request that ends at once. -/
private theorem treats_concludes (hdone : ∀ r, j.phase ≠ .done r) {c : Conclusion}
    (h : s.Concludes j t c) :
    s.Treats j (.turn t) (some { j with phase := .done (c.response j.id) }) c.report := by
  have hends := Treats.ends h hdone errorless_nil fun _ _ hmem => absurd hmem List.not_mem_nil
  exact hends

/-- A request ends before its run has begun. -/
private theorem treats_unstarted (hj : s.job? j.number = some j) (hdone : ∀ r, j.phase ≠ .done r)
    {c : Conclusion} (h : s.Concludes j (.advance j.number) c)
    (hends : s.EndsUnstarted j c.report (c.response j.id) (s.advance j)) :
    s.Treats j (.turn (.advance j.number)) ((s.act (.turn (.advance j.number))).job? j.number)
      (s.heardOf j.number (.turn (.advance j.number))) :=
  treats_of_makes hj hends.makes (treats_concludes hdone h)

/-- A request for which there are settings starts its run. -/
private theorem treats_starts (hj : s.job? j.number = some j) (hbegun : j.begun = false)
    {settings : Settings} (hsettings : s.settingsFor j = some settings) :
    s.Treats j (.turn (.advance j.number)) ((s.act (.turn (.advance j.number))).job? j.number)
      (s.heardOf j.number (.turn (.advance j.number))) := by
  have hdone : ∀ r, j.phase ≠ .done r := by
    unfold Job.begun at hbegun
    cases hphase : j.phase <;> simp_all
  obtain ⟨w, hw, hmakes⟩ := makes_starts hj hsettings
  rw [take_advance hj] at hmakes
  refine treats_of_makes hj hmakes ?_
  cases hresult : (FormatServer.start (s.context w) { uri := j.uri, range := j.range, settings }
      s.disk).result with
  | error o =>
    rw [Job.starts_error hresult]
    unfold Job.ends
    rw [← Conclusion.report_ofOutcome, ← Conclusion.response_ofOutcome j.id]
    refine .ends (.unstarted hw hsettings hresult) hdone (errorless_start _ _ _) fun command content h => ?_
    exact ⟨w, settings, rfl, hw, hsettings, h⟩
  | ok run =>
    rw [(Job.starts_ok hresult).1]
    exact .starts _ _ hbegun hw hsettings (by rw [request_of_start hresult])

/-- A request that the client has withdrawn before its run has begun. -/
private theorem treats_withdrawn (hj : s.job? j.number = some j) (hbegun : j.begun = false)
    (hcancelled : j.cancelled = true) :
    s.Treats j (.turn (.advance j.number)) ((s.act (.turn (.advance j.number))).job? j.number)
      (s.heardOf j.number (.turn (.advance j.number))) := by
  have hgives : s.advance j = s.conclude j (.error (.cancelled j.id)) := by
    unfold Job.begun at hbegun
    unfold advance giveUp
    cases hphase : j.phase <;> simp_all
  have hdone : ∀ r, j.phase ≠ .done r := by
    unfold Job.begun at hbegun
    cases hphase : j.phase <;> simp_all
  refine treats_unstarted hj hdone (.withdrawn hcancelled hbegun) ?_
  rw [hgives]
  exact endsUnstarted_conclude hj _

/-- A request that begins without settings: its document is not open, or the client is asked. -/
private theorem treats_begins (hj : s.job? j.number = some j) (hphase : j.phase = .accepted)
    (hgoing : j.cancelled = false) (hsettings : s.settingsFor j = none) :
    s.Treats j (.turn (.advance j.number)) ((s.act (.turn (.advance j.number))).job? j.number)
      (s.heardOf j.number (.turn (.advance j.number))) := by
  have hdone : ∀ r, j.phase ≠ .done r := by simp [hphase]
  have hadvance : s.advance j = s.begin j := by simp only [advance, hphase, hgoing]
  cases hw : s.workspace with
  | none =>
    refine treats_unstarted hj hdone (.noWorkspace hgoing (by rw [Job.begun, hphase]) hw) ?_
    rw [hadvance, begin, hw]
    exact endsUnstarted_conclude hj _
  | some w =>
    cases hopen : w.store.contains j.uri with
    | false =>
      refine treats_unstarted hj hdone (.notOpen hgoing hphase hw hopen) ?_
      rw [hadvance, begin, hw]
      simp only [hopen, Bool.not_false, if_true]
      exact endsUnstarted_settle hj _
    | true =>
      simp only [settingsFor, hphase, hgoing, hw, Option.bind_some, hopen, Bool.not_true,
        Bool.false_eq_true, if_false] at hsettings
      split at hsettings
      · next hconfiguration =>
        have hask : s.advance j = s.ask j := by
          simp [hadvance, begin, hw, hopen, hconfiguration, hsettings]
        refine treats_of_makes hj (hask ▸ makes_ask hj) ?_
        exact .asks _ hw hphase hconfiguration
      · cases hsettings

/-- A request whose client has answered, but not with settings to start with. -/
private theorem treats_takeAnswer (hj : s.job? j.number = some j) {a : ClientAnswer}
    (hphase : j.phase = .answered a) (hgoing : j.cancelled = false) (hsettings : s.settingsFor j = none) :
    s.Treats j (.turn (.advance j.number)) ((s.act (.turn (.advance j.number))).job? j.number)
      (s.heardOf j.number (.turn (.advance j.number))) := by
  have hdone : ∀ r, j.phase ≠ .done r := by simp [hphase]
  have hadvance : s.advance j = s.takeAnswer j a := by simp only [advance, hphase, hgoing]
  cases a with
  | error e =>
    refine treats_unstarted hj hdone (.byClient hgoing hphase) ?_
    rw [hadvance]
    exact endsUnstarted_conclude hj _
  | settings v =>
    cases hsettle : s.cache.settle j.uri v with
    | error e =>
      cases hrefusal : e.isRefusal with
      | true =>
        refine treats_unstarted hj hdone (.invalid hgoing hphase hsettle hrefusal) ?_
        simp only [hadvance, takeAnswer, hsettle, hrefusal, if_true]
        exact endsUnstarted_settle hj _
      | false =>
        refine treats_unstarted hj hdone (.unexamined hgoing hphase hsettle hrefusal) ?_
        simp only [hadvance, takeAnswer, hsettle, hrefusal, Bool.false_eq_true, if_false]
        exact endsUnstarted_conclude hj _
    | ok kept =>
      cases hw : s.workspace with
      | some w => simp [settingsFor, hphase, hgoing, hw, hsettle, Except.toOption] at hsettings
      | none =>
        have hmakes : s.Makes j.number
            (j.enters (.done (.error (.unforeseen noWorkspace.1 noWorkspace.2))) s.disk [])
            (s.advance j) := by
          have hproceed := makes_proceed (s := { s with cache := kept.2 }) hj
            (.done (.error (.unforeseen noWorkspace.1 noWorkspace.2)))
          rw [hadvance, takeAnswer, hsettle]
          dsimp only
          rw [startRun, show ({ s with cache := kept.2 } : Session).workspace = none from hw]
          exact ⟨hproceed.job, hproceed.others, hproceed.disk, hproceed.trace, hproceed.orphans,
            hproceed.nextJob⟩
        refine treats_of_makes hj hmakes ?_
        exact treats_concludes hdone (.noWorkspace hgoing (by rw [Job.begun, hphase]) hw)

/-- **What a session makes of a request in its next turn.** -/
private theorem treats_advance (hj : s.job? j.number = some j) :
    s.Treats j (.turn (.advance j.number)) ((s.act (.turn (.advance j.number))).job? j.number)
      (s.heardOf j.number (.turn (.advance j.number))) := by
  cases hbegun : j.begun with
  | true => exact treats_moved hj hbegun rfl
  | false =>
    cases hsettings : s.settingsFor j with
    | some settings => exact treats_starts hj hbegun hsettings
    | none =>
      cases hgoing : j.cancelled with
      | true => exact treats_withdrawn hj hbegun hgoing
      | false =>
        cases hphase : j.phase with
        | accepted => exact treats_begins hj hphase hgoing hsettings
        | answered a => exact treats_takeAnswer hj hphase hgoing hsettings
        | asking =>
          have hstays : s.act (.turn (.advance j.number)) = s := by
            simp only [act, take_advance hj, advance, hphase, hgoing]
          rw [heardOf, hstays, hj, since, List.drop_length, ite_self]
          exact .stays s j _
        | _ => simp [Job.begun, hphase] at hbegun

/-- The client's answer, which a request that does not wait for it passes over. -/
private theorem treats_reply (hj : s.job? n = some j) (r : ClientReply) :
    s.Treats j (.turn (.reply n r)) ((s.act (.turn (.reply n r))).job? n)
      (s.heardOf n (.turn (.reply n r))) := by
  have hheard : s.heardOf n (.turn (.reply n r)) = [] := if_neg (by simp [Move.job?, Turn.own?])
  have hact : s.act (.turn (.reply n r)) = s.takeReply j r := by
    simp only [act, take, withJob, hj]
  rw [hheard]
  by_cases hasks : j.phase = .asking ∧ ∃ a, answer? r = some a
  · obtain ⟨hphase, a, ha⟩ := hasks
    have hmakes := makes_answered hj hphase ha
    rw [show (s.act (.turn (.reply n r))).job? n = _ from hmakes.job]
    obtain rfl := number_of_job? hj
    exact .hears hphase ha
  · have hjobs : (s.takeReply j r).jobs = s.jobs := by
      unfold takeReply
      split
      · next a hphase ha => exact absurd ⟨hphase, a, ha⟩ hasks
      · rfl
      · rfl
    rw [hact, job?, hjobs]
    change s.Treats j _ (s.job? n) []
    rw [hj]
    exact .stays s j _

/-! ### All moves -/

/-- A turn of a request that is not there does nothing. -/
theorem take_of_own?_none {o : OwnMove} (ht : t.own? = some (n, o)) (hj : s.job? n = none) :
    s.take t = s := by
  cases t with
  | advance number | wake number | expire number =>
    obtain ⟨rfl, rfl⟩ := Prod.mk.inj (Option.some.inj ht)
    rw [take, withJob, hj]
  | _ => cases ht

/-- The end of a pause, or of a request's time, is nothing before its run has begun. -/
private theorem take_of_unbegun (hj : s.job? n = some j) (hbegun : j.begun = false) :
    s.take (.wake n) = s ∧ s.take (.expire n) = s := by
  unfold Job.begun at hbegun
  simp only [take, withJob, hj, wake, expire]
  cases hphase : j.phase <;> simp_all

private theorem treats_unbegun (hj : s.job? n = some j) (hbegun : j.begun = false) {o : OwnMove}
    (ht : t.own? = some (n, o)) (ho : t ≠ .advance n) :
    s.Treats j (.turn t) ((s.act (.turn t)).job? n) (s.heardOf n (.turn t)) := by
  have hstays : s.act (.turn t) = s := by
    cases t with
    | advance number =>
      obtain ⟨rfl, -⟩ := Prod.mk.inj (Option.some.inj ht)
      exact absurd rfl ho
    | wake number | expire number =>
      obtain ⟨rfl, -⟩ := Prod.mk.inj (Option.some.inj ht)
      simp only [act, take_of_unbegun hj hbegun]
    | _ => cases ht
  rw [heardOf, hstays, hj, since, List.drop_length, ite_self]
  exact .stays s j _

/-- A turn of a request is a move of that one. -/
theorem exists_makes {o : OwnMove} (hj : s.job? n = some j) (ht : t.own? = some (n, o)) :
    ∃ m, s.Makes n m (s.take t) := by
  cases hbegun : j.begun with
  | true =>
    rw [take_of_own? ht]
    exact ⟨_, makes_moved hj hbegun o⟩
  | false =>
    cases t with
    | advance number =>
      obtain ⟨rfl, rfl⟩ := Prod.mk.inj (Option.some.inj ht)
      obtain rfl := number_of_job? hj
      cases hsettings : s.settingsFor j with
      | some settings =>
        obtain ⟨w, -, hmakes⟩ := makes_starts hj hsettings
        exact ⟨_, hmakes⟩
      | none =>
        obtain ⟨_, _, _, hmakes⟩ := idles_advance hj hbegun hsettings
        exact ⟨_, (take_advance hj).symm ▸ hmakes⟩
    | wake number | expire number =>
      obtain ⟨rfl, rfl⟩ := Prod.mk.inj (Option.some.inj ht)
      simp only [take_of_unbegun hj hbegun]
      exact ⟨_, makes_nothing hj⟩
    | _ => cases ht

/-- A turn of another request touches no request. -/
theorem job?_take_of_ne {k : Nat} {o : OwnMove} (ht : t.own? = some (k, o)) (hk : n ≠ k) :
    (s.take t).job? n = s.job? n := by
  cases hj : s.job? k with
  | none => rw [take_of_own?_none ht hj]
  | some j =>
    obtain ⟨m, hmakes⟩ := exists_makes hj ht
    exact hmakes.others n hk

theorem job?_reply_of_ne {k : Nat} {r : ClientReply} (hk : n ≠ k) :
    (s.take (.reply k r)).job? n = s.job? n := by
  cases hj : s.job? k with
  | none => rw [take, withJob, hj]
  | some j =>
    obtain rfl := number_of_job? hj
    have htaken := makes_takeReply hj r
    rw [take, withJob, hj]
    split at htaken
    · exact congrArg (job? · n) htaken
    · obtain ⟨_, _, _, hmakes⟩ := htaken
      exact hmakes.others n hk

/-- **What a move of a session makes of a request.** -/
theorem treats_act (hj : s.job? n = some j) (x : Move) :
    s.Treats j x ((s.act x).job? n) (s.heardOf n x) := by
  have hothers : ∀ {x : Move}, x.job? ≠ some n → (s.act x).job? n = s.job? n →
      s.Treats j x ((s.act x).job? n) (s.heardOf n x) := by
    intro x hx hjob
    rw [hjob, hj, heardOf, if_neg hx]
    exact .stays s j x
  have howned : ∀ {t : Turn} {k : Nat} {o : OwnMove}, t.own? = some (k, o) → n ≠ k →
      s.Treats j (.turn t) ((s.act (.turn t)).job? n) (s.heardOf n (.turn t)) := by
    intro t k o ht hk
    refine hothers ?_ (job?_take_of_ne ht hk)
    rw [Move.job?, ht, Option.map_some]
    exact fun he => hk (Option.some.inj he).symm
  cases x with
  | receive m =>
    rw [show (s.act (.receive m)).job? n = _ from (hears_receive s m).jobs n j hj, heardOf,
      if_neg (by simp [Move.job?])]
    exact .spares _ _ (by simp +contextual)
  | reorder ready timers now => exact hothers (by simp [Move.job?]) rfl
  | surround script reply disk => exact hothers (by simp [Move.job?]) rfl
  | turn t =>
    cases t with
    | advance k =>
      by_cases hk : n = k
      · subst hk
        obtain rfl := number_of_job? hj
        exact treats_advance hj
      · exact howned rfl hk
    | wake k | expire k =>
      by_cases hk : n = k
      · subst hk
        cases hbegun : j.begun with
        | true => exact treats_moved hj hbegun rfl
        | false => exact treats_unbegun hj hbegun rfl (by simp)
      · exact howned rfl hk
    | reply k r =>
      by_cases hk : n = k
      · subst hk
        exact treats_reply hj r
      · exact hothers (by simp [Move.job?, Turn.own?]) (job?_reply_of_ne hk)
    | orphan pid =>
      refine hothers (by simp [Move.job?, Turn.own?]) ?_
      change (s.take (.orphan pid)).job? n = s.job? n
      rw [take]
      split
      · rfl
      · next o _ => rw [job?, (plays_playOrphan s o).jobs, job?]
    | opened uri => exact hothers (by simp [Move.job?, Turn.own?]) rfl
    | closed uri => exact hothers (by simp [Move.job?, Turn.own?]) rfl

end Session

end FormatServer
