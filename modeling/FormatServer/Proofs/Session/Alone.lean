import FormatServer.Proofs.Session.Call

/-!
The file of a request whose run has begun, and the request left to itself. Its moves work on the entry in the
place of its file and on no other, and when the request ends the file has been removed, or there is one warning
(`fate_moved`). What its moves do depends on this entry alone (`sameAt_moved`). When they come as the clock has
them the request ends as a run with nothing else going on (`run_schedule`).
-/

namespace FormatServer

open Session ScriptStep

/-! ## Steps of a process -/

namespace Process

variable {p : Process} {d d' : Disk} {l : Location}

@[simp] theorem path_perform (p : Process) (d : Disk) (step : ScriptStep) :
    (p.perform d step).process.path = p.path := by
  cases step with
  | output stream bytes => exact path_hear p stream bytes
  | _ => rfl

theorem touched_perform (p : Process) (d : Disk) (step : ScriptStep) :
    Disk.Touched p.path d (p.perform d step).disk := by
  cases step with
  | change c => exact Disk.touched_change d p.path c
  | _ => exact .refl p.path d

theorem find?_perform (h : d.Leads p.path l) (step : ScriptStep) :
    (p.perform d step).disk.find? l = entryFrom (d.find? l) step := by
  cases step with
  | change c => exact Disk.find?_change h c
  | _ => rfl

/-- What a process says and becomes does not depend on the disk. -/
theorem perform_disk (p : Process) (d d' : Disk) (step : ScriptStep) :
    (p.perform d' step).process = (p.perform d step).process ∧
      (p.perform d' step).logs = (p.perform d step).logs ∧
      (p.perform d' step).overrun = (p.perform d step).overrun := by
  cases step <;> exact ⟨rfl, rfl, rfl⟩

end Process

def Farewell.move : Farewell → OwnMove
  | expired => .expire
  | withdrawn | unconnected => .advance

namespace Job

variable {j : Job} {d d' : Disk} {p : Path} {l : Location}

/-! ## What becomes of the file -/

/-- How a request is answered whose process was told to end, and has. -/
def farewell (j : Job) (run : Run) : Farewell → Response
  | .expired => .error (.formatting (.timeout run.request.settings.timeout))
  | .withdrawn | .unconnected => .error (.cancelled j.id)

/-- The ways in which a request ends, and how it is answered. None depends on whether its file can be removed. -/
inductive EndsBy (j : Job) (d : Disk) : OwnMove → Response → Prop where
  /-- the process has ended by itself -/
  | exited {run : Run} (hphase : j.phase = .closed run) :
      EndsBy j d .advance
        (if run.process.exitCode ≠ 0 then
          .error (.formatting (.failed run.process.exitCode (String.ofList run.process.diagnostics)))
        else (run.readBack d).answer)
  /-- the process is told to end, and has at once -/
  | told {run : Run} {why : Farewell} (h : j.Dismisses run why) (hkillable : run.process.killable = true)
      (hturns : run.process.killing.turns = 0) : EndsBy j d why.move (j.farewell run why)
  /-- the process was told to end, and has -/
  | buried {run : Run} {why : Farewell} (hphase : j.phase = .ending run why 0)
      (hcancelled : why = .expired → j.cancelled = false) : EndsBy j d .advance (j.farewell run why)
  /-- the process was told to end as its time was up, and the client has withdrawn the request since -/
  | deserted {run : Run} {turns : Nat} (hphase : j.phase = .ending run .expired turns)
      (hcancelled : j.cancelled = true) : EndsBy j d .advance (.error (.cancelled j.id))
  /-- the process may not be told to end, and goes on without the request -/
  | spared {run : Run} {why : Farewell} (h : j.Dismisses run why) (hkillable : run.process.killable = false) :
      EndsBy j d why.move (run.spare d why).result.answer
  /-- a line is too long, and the process goes on without the request -/
  | overran {run : Run} {step : ScriptStep} {rest : List ScriptStep} {cause : Overrun} {o : OwnMove}
      (hphase : o = .advance ∧ j.phase = .playing run (step :: rest) ∨
        o = .wake ∧ j.phase = .pausing run (step :: rest))
      (hcause : (run.process.perform d step).overrun = some cause) :
      EndsBy j d o (.error (.unforeseen "ValueError" cause.message))

inductive Fate (j : Job) (d : Disk) (p : Path) (o : OwnMove) (m : Moved) : Prop where
  /-- it goes on with its file -/
  | goesOn {j' : Job} (hjob : m.job = some j') (hpath : j'.path? = some p) (hleft : m.left = none)
      (htouched : Disk.Touched p d m.disk) (hsilent : Silent m.events)
  /-- it ends, and its file has been removed, or there is one warning -/
  | ended {r : Response} (hjob : m.job = some { j with phase := .done r }) (hr : j.EndsBy d o r)
      (hleft : ∀ x, m.left = some x → x.process.path = p) (htouched : Disk.Touched p d m.disk)
      (hvacated : Vacated p m.disk m.events)

theorem Fate.touched {o : OwnMove} {m : Moved} (h : Fate j d p o m) : Disk.Touched p d m.disk := by
  cases h with
  | goesOn hjob hpath hleft htouched hsilent => exact htouched
  | ended hjob hr hleft htouched hvacated => exact htouched

private theorem fate_ends {d₁ : Disk} {o : OwnMove} (outcome : Outcome) {events : List RunEvent}
    {said : List SessionEvent} (hd : Disk.Touched p d d₁) (hevents : Silent (events.map eventOf))
    (hsaid : Silent said) (hr : j.EndsBy d o outcome.answer) {left : Option Orphan}
    (hleft : ∀ x, left = some x → x.process.path = p) :
    Fate j d p o
      { j.ends (endWith outcome d₁ p events) with
        events := said ++ (j.ends (endWith outcome d₁ p events)).events, left } := by
  refine .ended rfl hr hleft (hd.trans (touched_cleanUp d₁ p)) ?_
  have hvacated := ((vacated_cleanUp d₁ p).prepend hevents).append outcome.silent_entries
  simpa only [ends, result_endWith, disk_endWith, events_endWith, List.map_append] using
    hvacated.prepend hsaid

private theorem fate_performed {run : Run} {step : ScriptStep} {rest : List ScriptStep} {o : OwnMove}
    (hphase : o = .advance ∧ j.phase = .playing run (step :: rest) ∨
      o = .wake ∧ j.phase = .pausing run (step :: rest)) :
    Fate j d run.process.path o (j.performed run rest (run.process.perform d step)) := by
  have htouched := run.process.touched_perform d step
  have hpath : (run.process.perform d step).process.path = run.process.path := Process.path_perform ..
  have hsilent := silent_outputEvents (run.process.perform d step).logs
  unfold performed
  dsimp only
  cases hcause : (run.process.perform d step).overrun with
  | none =>
    refine .goesOn rfl ?_ rfl htouched hsilent
    exact congrArg some hpath
  | some cause =>
    rw [← hpath] at htouched ⊢
    have hnothing : Silent (([] : List RunEvent).map eventOf) := silent_nil
    refine fate_ends (.crashed (.line cause)) htouched hnothing hsilent (.overran hphase hcause) ?_
    rintro _ ⟨⟩
    rfl

private theorem fate_plays {run : Run} {steps : List ScriptStep} {o : OwnMove}
    (hphase : o = .advance ∧ j.phase = .playing run steps ∨
      o = .wake ∧ j.phase = .pausing run steps) :
    Fate j d run.process.path o (j.plays run d steps) := by
  cases steps with
  | nil => exact .goesOn rfl rfl rfl (.refl _ d) (silent_outputEvents _)
  | cons step rest =>
    cases step with
    | hang => exact .goesOn rfl rfl rfl (.refl _ d) silent_nil
    | sleep ticks => exact .goesOn rfl rfl rfl (.refl _ d) silent_nil
    | output stream bytes => exact fate_performed hphase
    | change c => exact fate_performed hphase
    | exit code => exact fate_performed hphase

private theorem fate_stays (hj : j.path? = some p) (o : OwnMove) :
    Fate j d p o { job := some j, disk := d } :=
  .goesOn rfl hj rfl (.refl p d) silent_nil

private theorem fate_endWith {o : OwnMove} {outcome : Outcome} {events : List RunEvent}
    (hevents : Silent (events.map eventOf)) (hr : j.EndsBy d o outcome.answer) :
    Fate j d p o (j.ends (endWith outcome d p events)) :=
  fate_ends outcome (.refl p d) hevents silent_nil hr nofun

/-- A request that was withdrawn ends with its run. -/
private theorem fate_resigns {o : OwnMove} {events : List RunEvent}
    (hevents : Silent (events.map eventOf)) (hr : j.EndsBy d o (.error (.cancelled j.id))) :
    Fate j d p o (j.resigns (endWith () d p events)) := by
  refine .ended rfl hr nofun (touched_cleanUp d p) ?_
  have hvacated := (vacated_cleanUp d p).prepend hevents
  simpa only [resigns, enters, disk_endWith, events_endWith, List.map_append] using hvacated

private theorem fate_parts {run : Run} {why : Farewell} {o : OwnMove}
    (hr : j.EndsBy d o (j.farewell run why)) : Fate j d run.process.path o (j.parts run d why) := by
  cases why with
  | expired => exact fate_endWith (silent_killNotice run) hr
  | withdrawn => exact fate_resigns (silent_killNotice run) hr
  | unconnected => exact fate_resigns silent_nil hr

private theorem fate_buries {run : Run} {why : Farewell} {o : OwnMove} (turns : Nat)
    (hr : turns = 0 → j.EndsBy d o (j.farewell run why)) :
    Fate j d run.process.path o (j.buries run why d turns) := by
  cases turns with
  | zero => exact fate_parts (hr rfl)
  | succ turns => exact .goesOn rfl rfl rfl (.refl _ d) silent_nil

/-- What is silent comes before the rest. -/
private theorem Fate.after {o : OwnMove} {m : Moved} (h : Fate j d p o m) {events : List RunEvent}
    (hevents : Silent (events.map eventOf)) : Fate j d p o (m.after events) := by
  cases h with
  | goesOn hjob hpath hleft htouched hsilent =>
    exact .goesOn hjob hpath hleft htouched ((silent_append _ _).mpr ⟨hevents, hsilent⟩)
  | ended hjob hr hleft htouched hvacated =>
    exact .ended hjob hr hleft htouched (hvacated.prepend hevents)

private theorem fate_kills {run : Run} {why : Farewell} (h : j.Dismisses run why)
    (steps : List ScriptStep) :
    Fate j d run.process.path why.move (j.kills run steps why d) := by
  unfold kills
  split
  · next hkillable =>
    exact (fate_buries _ fun hturns => .told h hkillable hturns).after (silent_signal run why)
  · next hkillable =>
    have hspared : j.EndsBy d why.move (run.spare d why).result.answer :=
      .spared h (by simpa using hkillable)
    have hleft : ∀ x, some { process := run.process, steps, heard := false : Orphan } = some x →
        x.process.path = run.process.path := by
      rintro _ ⟨⟩
      rfl
    have hsilent : ∀ group, Silent ([RunEvent.spared run.process.pid group].map eventOf) :=
      silent_spared run.process.pid
    cases why with
    | expired | withdrawn =>
      exact fate_ends (.crashed .forbidden) (.refl _ d) (hsilent true) silent_nil hspared hleft
    | unconnected => exact fate_ends _ (.refl _ d) (hsilent false) silent_nil hspared hleft

private theorem fate_conclude {run : Run} (hphase : j.phase = .closed run) :
    Fate j d run.process.path .advance (j.ends (run.conclude d)) := by
  have hexited := EndsBy.exited (d := d) hphase
  refine fate_endWith (by simp [unremoved, eventOf]) ?_
  by_cases hcode : run.process.exitCode = 0
  · rw [if_neg (by simpa using hcode)] at hexited
    rwa [if_neg (by simpa using hcode)]
  · rw [if_pos hcode] at hexited
    rwa [if_pos hcode]

/-- **A move lets a request go on with its file, or ends it and removes the file.** -/
theorem fate_moved (hj : j.path? = some p) (d : Disk) (o : OwnMove) :
    Fate j d p o (j.moved d o) := by
  cases o with
  | withdraw => exact .goesOn rfl hj rfl (.refl p d) silent_nil
  | wake =>
    unfold moved
    dsimp only
    split
    · next run steps hphase =>
      obtain rfl : run.process.path = p := by simpa [path?, hphase] using hj
      exact fate_plays (.inr ⟨rfl, hphase⟩)
    · exact fate_stays hj _
  | expire =>
    unfold moved
    dsimp only
    split
    · next run steps hphase hgoing =>
      obtain rfl : run.process.path = p := by simpa [path?, hphase] using hj
      exact fate_kills (.expired hgoing (.inl hphase)) steps
    · next run steps hphase hgoing =>
      obtain rfl : run.process.path = p := by simpa [path?, hphase] using hj
      exact fate_kills (.expired hgoing (.inr hphase)) steps
    · exact fate_stays hj _
  | advance =>
    unfold moved advances
    dsimp only
    split
    · next r hphase => simp [path?, hphase] at hj
    · next run hphase =>
      obtain rfl : run.process.path = p := by simpa [path?, hphase] using hj
      exact fate_conclude hphase
    · next run turns hphase =>
      obtain rfl : run.process.path = p := by simpa [path?, hphase] using hj
      exact fate_buries turns fun hturns => .buried (hturns ▸ hphase) (by simp)
    · next run turns hphase =>
      obtain rfl : run.process.path = p := by simpa [path?, hphase] using hj
      exact fate_buries turns fun hturns => .buried (hturns ▸ hphase) (by simp)
    · next run turns hphase hcancelled =>
      obtain rfl : run.process.path = p := by simpa [path?, hphase] using hj
      exact fate_resigns silent_nil (.deserted hphase hcancelled)
    · next run turns hphase hcancelled =>
      obtain rfl : run.process.path = p := by simpa [path?, hphase] using hj
      exact fate_buries turns fun hturns => .buried (hturns ▸ hphase) fun _ => hcancelled
    · next run steps turns hphase hcancelled =>
      obtain rfl : run.process.path = p := by simpa [path?, hphase] using hj
      exact fate_kills (.unconnected hcancelled hphase) steps
    · next run steps turns hphase _ =>
      obtain rfl : run.process.path = p := by simpa [path?, hphase] using hj
      exact .goesOn rfl (path?_firstPhase j run steps turns) rfl (.refl _ d) silent_nil
    · next run steps hphase hcancelled =>
      obtain rfl : run.process.path = p := by simpa [path?, hphase] using hj
      exact fate_kills (.withdrawn hcancelled (.inl hphase)) steps
    · next run steps hphase hcancelled =>
      obtain rfl : run.process.path = p := by simpa [path?, hphase] using hj
      exact fate_kills (.withdrawn hcancelled (.inr hphase)) steps
    · next run steps hphase _ =>
      obtain rfl : run.process.path = p := by simpa [path?, hphase] using hj
      exact fate_plays (.inl ⟨rfl, hphase⟩)
    · exact fate_stays hj _

/-! ## What a request depends on -/

/-- Two moves come to the same, as far as a request and the entry in the place of its file are concerned. -/
structure SameAt (l : Location) (m m' : Moved) : Prop where
  job : m'.job = m.job
  events : m'.events = m.events
  left : m'.left = m.left
  entry : m'.disk.find? l = m.disk.find? l

private theorem sameAt_ends (o : Outcome) {d₁ d₂ : Disk} {events : List RunEvent}
    (h : d₁.Leads p l) (h' : d₂.Leads p l) (hentry : d₂.find? l = d₁.find? l) :
    SameAt l (j.ends (endWith o d₁ p events)) (j.ends (endWith o d₂ p events)) where
  job := rfl
  events := by simp only [ends, result_endWith, events_endWith, cleanUp_of_leads h,
    cleanUp_of_leads h', hentry]
  left := rfl
  entry := by simp only [ends, disk_endWith, find?_cleanUp h, find?_cleanUp h', hentry]

private theorem sameAt_performed {run : Run} (h : d.Leads run.process.path l)
    (h' : d'.Leads run.process.path l) (hentry : d'.find? l = d.find? l) (step : ScriptStep)
    (rest : List ScriptStep) :
    SameAt l (j.performed run rest (run.process.perform d step))
      (j.performed run rest (run.process.perform d' step)) := by
  obtain ⟨hprocess, hlogs, hoverrun⟩ := run.process.perform_disk d d' step
  have hdone : (run.process.perform d' step).disk.find? l =
      (run.process.perform d step).disk.find? l := by
    rw [Process.find?_perform h, Process.find?_perform h', hentry]
  have hleads : ∀ {d₁ : Disk}, d₁.Leads run.process.path l →
      (run.process.perform d₁ step).disk.Leads (run.process.perform d step).process.path l := by
    intro d₁ h₁
    rw [Process.path_perform]
    exact h₁.of_directoriesStay (Process.touched_perform _ d₁ step).stay
  simp only [performed, hprocess, hlogs, hoverrun]
  cases (run.process.perform d step).overrun with
  | none => exact ⟨rfl, rfl, rfl, hdone⟩
  | some cause =>
    have hends : SameAt l (j.ends (endWith _ _ _ [])) (j.ends (endWith _ _ _ [])) :=
      sameAt_ends (.crashed (.line cause)) (hleads h) (hleads h') hdone
    exact ⟨hends.job, congrArg (_ ++ ·) hends.events, rfl, hends.entry⟩

private theorem sameAt_plays {run : Run} (h : d.Leads run.process.path l)
    (h' : d'.Leads run.process.path l) (hentry : d'.find? l = d.find? l) (steps : List ScriptStep) :
    SameAt l (j.plays run d steps) (j.plays run d' steps) := by
  cases steps with
  | nil => exact ⟨rfl, rfl, rfl, hentry⟩
  | cons step rest =>
    cases step with
    | hang => exact ⟨rfl, rfl, rfl, hentry⟩
    | sleep ticks => exact ⟨rfl, rfl, rfl, hentry⟩
    | output stream bytes => exact sameAt_performed h h' hentry (.output stream bytes) rest
    | change c => exact sameAt_performed h h' hentry (.change c) rest
    | exit code => exact sameAt_performed h h' hentry (.exit code) rest

private theorem sameAt_resigns {events : List RunEvent} (h : d.Leads p l) (h' : d'.Leads p l)
    (hentry : d'.find? l = d.find? l) :
    SameAt l (j.resigns (endWith () d p events)) (j.resigns (endWith () d' p events)) where
  job := rfl
  events := by simp only [resigns, enters, events_endWith, cleanUp_of_leads h, cleanUp_of_leads h',
    hentry]
  left := rfl
  entry := by simp only [resigns, enters, disk_endWith, find?_cleanUp h, find?_cleanUp h', hentry]

private theorem sameAt_buries {run : Run} (why : Farewell) (h : d.Leads run.process.path l)
    (h' : d'.Leads run.process.path l) (hentry : d'.find? l = d.find? l) (turns : Nat) :
    SameAt l (j.buries run why d turns) (j.buries run why d' turns) := by
  cases turns with
  | succ turns => exact ⟨rfl, rfl, rfl, hentry⟩
  | zero =>
    cases why with
    | expired => exact sameAt_ends _ h h' hentry
    | withdrawn => exact sameAt_resigns h h' hentry
    | unconnected => exact sameAt_resigns h h' hentry

private theorem sameAt_kills {run : Run} (steps : List ScriptStep) (why : Farewell)
    (h : d.Leads run.process.path l) (h' : d'.Leads run.process.path l)
    (hentry : d'.find? l = d.find? l) :
    SameAt l (j.kills run steps why d) (j.kills run steps why d') := by
  unfold kills
  split
  · have hburies := sameAt_buries (j := j) why h h' hentry run.process.killing.turns
    exact ⟨hburies.job, congrArg (_ ++ ·) hburies.events, hburies.left, hburies.entry⟩
  · have hends : SameAt l (j.ends (run.spare d why)) (j.ends (run.spare d' why)) := by
      cases why <;> exact sameAt_ends _ h h' hentry
    exact ⟨hends.job, hends.events, rfl, hends.entry⟩

private theorem sameAt_conclude {run : Run} (h : d.Leads run.process.path l)
    (h' : d'.Leads run.process.path l) (hentry : d'.find? l = d.find? l) :
    SameAt l (j.ends (run.conclude d)) (j.ends (run.conclude d')) := by
  have hread : run.readBack d' = run.readBack d := by
    rw [Run.readBack, Run.readBack, Disk.read_of_leads h, Disk.read_of_leads h', hentry]
  rw [Run.conclude, Run.conclude, hread]
  exact sameAt_ends _ h h' hentry

/-- **What a move makes of a request depends on the entry in the place of its file alone.** -/
theorem sameAt_moved (hj : j.path? = some p) (h : d.Leads p l) (h' : d'.Leads p l)
    (hentry : d'.find? l = d.find? l) (o : OwnMove) : SameAt l (j.moved d o) (j.moved d' o) := by
  have hstays : ∀ j' : Job, SameAt l { job := some j', disk := d } { job := some j', disk := d' } :=
    fun _ => ⟨rfl, rfl, rfl, hentry⟩
  cases o with
  | withdraw => exact hstays _
  | wake =>
    unfold moved
    dsimp only
    split
    · next run steps hphase =>
      obtain rfl : run.process.path = p := by simpa [path?, hphase] using hj
      exact sameAt_plays h h' hentry steps
    · exact hstays _
  | expire =>
    unfold moved
    dsimp only
    split
    · next run steps hphase _ =>
      obtain rfl : run.process.path = p := by simpa [path?, hphase] using hj
      exact sameAt_kills steps .expired h h' hentry
    · next run steps hphase _ =>
      obtain rfl : run.process.path = p := by simpa [path?, hphase] using hj
      exact sameAt_kills steps .expired h h' hentry
    · exact hstays _
  | advance =>
    unfold moved advances
    dsimp only
    split
    · next r hphase => simp [path?, hphase] at hj
    · next run hphase =>
      obtain rfl : run.process.path = p := by simpa [path?, hphase] using hj
      exact sameAt_conclude h h' hentry
    · next run turns hphase =>
      obtain rfl : run.process.path = p := by simpa [path?, hphase] using hj
      exact sameAt_buries .withdrawn h h' hentry turns
    · next run turns hphase =>
      obtain rfl : run.process.path = p := by simpa [path?, hphase] using hj
      exact sameAt_buries .unconnected h h' hentry turns
    · next run turns hphase _ =>
      obtain rfl : run.process.path = p := by simpa [path?, hphase] using hj
      exact sameAt_resigns h h' hentry
    · next run turns hphase _ =>
      obtain rfl : run.process.path = p := by simpa [path?, hphase] using hj
      exact sameAt_buries .expired h h' hentry turns
    · next run steps turns hphase _ =>
      obtain rfl : run.process.path = p := by simpa [path?, hphase] using hj
      exact sameAt_kills steps .unconnected h h' hentry
    · next run steps turns hphase _ => exact ⟨rfl, rfl, rfl, hentry⟩
    · next run steps hphase _ =>
      obtain rfl : run.process.path = p := by simpa [path?, hphase] using hj
      exact sameAt_kills steps .withdrawn h h' hentry
    · next run steps hphase _ =>
      obtain rfl : run.process.path = p := by simpa [path?, hphase] using hj
      exact sameAt_kills steps .withdrawn h h' hentry
    · next run steps hphase _ =>
      obtain rfl : run.process.path = p := by simpa [path?, hphase] using hj
      exact sameAt_plays h h' hentry steps
    · exact hstays _

/-- A request that works on no file does nothing on the disk, and nothing there matters to it. -/
theorem moved_without_file (hj : j.path? = none) (hbegun : j.begun = true) (o : OwnMove) :
    ∃ job events, (∀ j', job = some j' → j'.path? = none ∧ j'.begun = true) ∧ Silent events ∧
      ∀ d, j.moved d o = { job, disk := d, events } := by
  unfold begun at hbegun
  unfold path? at hj
  have hstays : ∀ {j' : Job}, j'.phase = j.phase →
      ∀ j'', some j' = some j'' → j''.path? = none ∧ j''.begun = true := by
    rintro j' hphase _ ⟨⟩
    unfold path? begun
    rw [hphase]
    exact ⟨hj, hbegun⟩
  cases hphase : j.phase with
  | done r =>
    cases o with
    | advance =>
      refine ⟨none, [.sent (.response j.id r)], by simp, by simp [unremoved, eventOf], fun d => ?_⟩
      simp [moved, advances, leaves, hphase]
    | wake => exact ⟨some j, [], hstays rfl, silent_nil, fun d => by simp [moved, hphase]⟩
    | expire => exact ⟨some j, [], hstays rfl, silent_nil, fun d => by simp [moved, hphase]⟩
    | withdraw =>
      exact ⟨some { j with cancelled := true }, [], hstays rfl, silent_nil, fun d => rfl⟩
  | accepted => simp [hphase] at hbegun
  | asking => simp [hphase] at hbegun
  | answered a => simp [hphase] at hbegun
  | starting run steps turns => simp [hphase] at hj
  | playing run steps => simp [hphase] at hj
  | pausing run steps => simp [hphase] at hj
  | ending run why turns => simp [hphase] at hj
  | closed run => simp [hphase] at hj

end Job

/-! ## A request left to itself -/

/-- A request by itself, the disk it works on, and what it has done. -/
structure Solo where
  job : Option Job
  disk : Disk
  events : List SessionEvent := []

namespace Solo

def act (c : Solo) (o : OwnMove) : Solo :=
  match c.job with
  | none => c
  | some j =>
    let m := j.moved c.disk o
    { job := m.job, disk := m.disk, events := c.events ++ m.events }

theorem act_of_none {c : Solo} (h : c.job = none) (o : OwnMove) : c.act o = c := by
  rw [act, h]

theorem act_of_some {c : Solo} {j : Job} (h : c.job = some j) (o : OwnMove) :
    c.act o = ⟨(j.moved c.disk o).job, (j.moved c.disk o).disk,
      c.events ++ (j.moved c.disk o).events⟩ := by
  rw [act, h]

def run (c : Solo) (moves : List OwnMove) : Solo := moves.foldl act c

def begin (j : Job) (c : RunContext) (settings : Settings) (d : Disk) : Solo :=
  let m := j.starts c settings d
  { job := m.job, disk := m.disk, events := m.events }

end Solo

def expiring (p : Process) : List OwnMove :=
  .expire :: if p.killable then List.replicate p.killing.turns .advance else []

/-- The moves of a process with so many ticks left, as the clock has them, the first of which lets it go on. -/
def clocked (go : OwnMove) (p : Process) (left : Nat) : List ScriptStep → List OwnMove
  | [] => [go, .advance]
  | .hang :: _ => go :: expiring p
  | .sleep ticks :: rest =>
    if runsOut left ticks then go :: expiring p else go :: clocked .wake p (left - ticks) rest
  | step :: rest =>
    -- What is said and whether it is too long does not depend on the disk.
    let done := p.perform {} step
    go :: if done.overrun.isSome then [] else clocked .advance done.process left rest

def clockedFrom (run : Run) (steps : List ScriptStep) : List OwnMove :=
  let limit := timeLimit run.request.settings
  if runsOut limit 0 then expiring run.process else clocked .advance run.process limit steps

/-- The moves of a request whose run has just started, as the clock has them. -/
def Job.schedule (j : Job) : List OwnMove :=
  match j.phase with
  | .starting run steps turns => List.replicate (turns + 1) .advance ++ clockedFrom run steps
  | .playing run steps | .pausing run steps => clockedFrom run steps
  | _ => []

def Outcome.leaves : Outcome → Bool
  | crashed (.line _) | crashed .forbidden => true
  | _ => false

/-- A request has come to the end of a run, and this is all it has done since its events so far. What a process says
and does that goes on without it is no part of it. -/
inductive Solo.Completes (j : Job) (events : List SessionEvent) (stage : Stage Outcome) : Solo → Prop where
  | intro (own later : List RunEvent) (disk : Disk) (hevents : stage.events = own ++ later)
      (halone : stage.result.leaves = false → later = [] ∧ disk = stage.disk) :
      Completes j events stage
        { job := some { j with phase := .done stage.result.answer }, disk
          events := events ++ own.map eventOf ++ stage.result.entries }

theorem Solo.Completes.job {j : Job} {events : List SessionEvent} {stage : Stage Outcome} {c : Solo}
    (h : Completes j events stage c) : c.job = some { j with phase := .done stage.result.answer } := by
  cases h
  rfl

section

variable {j : Job} {r : Run} {steps : List ScriptStep} {d : Disk} {events : List SessionEvent}
  {go : OwnMove}

private def Ready (go : OwnMove) (j : Job) (r : Run) (steps : List ScriptStep) : Prop :=
  go = .advance ∧ j.phase = .playing r steps ∧ j.cancelled = false ∨
    go = .wake ∧ j.phase = .pausing r steps ∧ j.cancelled = false

private theorem act_ready (h : Ready go j r steps) (d : Disk) (events : List SessionEvent) :
    Solo.act ⟨some j, d, events⟩ go =
      ⟨(j.plays r d steps).job, (j.plays r d steps).disk, events ++ (j.plays r d steps).events⟩ := by
  rcases h with ⟨rfl, hphase, hcancelled⟩ | ⟨rfl, hphase, -⟩
  · simp only [Solo.act, Job.moved, Job.advances, hphase, hcancelled]
  · simp only [Solo.act, Job.moved, hphase]

private theorem Ready.cancelled (h : Ready go j r steps) : j.cancelled = false := by
  rcases h with ⟨-, -, h⟩ | ⟨-, -, h⟩ <;> exact h

/-- What was done before comes first. -/
private theorem Solo.Completes.after {stage : Stage Outcome} (first : List RunEvent) {c : Solo}
    (h : Completes j (events ++ first.map eventOf) stage c) :
    Completes j events { stage with events := first ++ stage.events } c := by
  obtain ⟨own, later, disk, hevents, halone⟩ := h
  have hintro : Completes j events { stage with events := first ++ stage.events } _ :=
    .intro (first ++ own) later disk (by simp [hevents]) halone
  simpa using hintro

private theorem completes_ends (stage : Stage Outcome) :
    Solo.Completes j events stage
      ⟨(j.ends stage).job, stage.disk, events ++ (j.ends stage).events⟩ := by
  have h : Solo.Completes j events stage _ :=
    .intro stage.events [] stage.disk (by simp) fun _ => ⟨rfl, rfl⟩
  simpa [Job.ends] using h

/-- The phase of the request before the end does not matter. -/
private theorem Solo.Completes.of_phase {stage : Stage Outcome} {p : Phase} {c : Solo}
    (h : Completes { j with phase := p } events stage c) : Completes j events stage c := by
  obtain ⟨own, later, disk, hevents, halone⟩ := h
  exact .intro own later disk hevents halone

/-- After a line that was too long the process may say more, and change its file. -/
private theorem completes_overrun (r' : Run) (d : Disk) (cause : Overrun) (first more : List RunEvent)
    (d' : Disk) :
    let stage := r'.overrun d cause
    Solo.Completes j events ⟨stage.result, d', first ++ stage.events ++ more⟩
      ⟨(j.ends stage).job, (j.ends stage).disk, events ++ (first.map eventOf ++ (j.ends stage).events)⟩ := by
  intro stage
  have h : Solo.Completes j events ⟨stage.result, d', first ++ stage.events ++ more⟩ _ :=
    .intro (first ++ stage.events) more stage.disk rfl nofun
  simpa [Job.ends] using h

section

/-! A step that is no pause is performed, and a line may be too long. -/

variable {step : ScriptStep} (hhang : step ≠ .hang) (hsleep : ∀ ticks, step ≠ .sleep ticks)

include hhang hsleep

private theorem play_of_performs (r : Run) (d : Disk) (left : Nat) (rest : List ScriptStep) :
    let done := r.process.perform d step
    let r' := { r with process := done.process }
    play r d left (step :: rest) = match done.overrun with
      | some cause =>
        let s := r'.overrun done.disk cause
        let (d', more) := afterRun r'.process s.disk rest
        ⟨s.result, d', outputEvents done.logs ++ s.events ++ more⟩
      | none =>
        let s := play r' done.disk left rest
        { s with events := outputEvents done.logs ++ s.events } := by
  cases step with
  | hang => exact absurd rfl hhang
  | sleep ticks => exact absurd rfl (hsleep ticks)
  | _ => rfl

private theorem plays_of_performs (j : Job) (r : Run) (d : Disk) (rest : List ScriptStep) :
    j.plays r d (step :: rest) = j.performed r rest (r.process.perform d step) := by
  cases step with
  | hang => exact absurd rfl hhang
  | sleep ticks => exact absurd rfl (hsleep ticks)
  | _ => rfl

private theorem clocked_of_performs (go : OwnMove) (p : Process) (left : Nat) (rest : List ScriptStep) :
    let done := p.perform {} step
    clocked go p left (step :: rest) =
      go :: if done.overrun.isSome then [] else clocked .advance done.process left rest := by
  cases step with
  | hang => exact absurd rfl hhang
  | sleep ticks => exact absurd rfl (hsleep ticks)
  | _ => rfl

end

/-- A request whose time was up waits for the end of its process. -/
private theorem run_buries (turns : Nat) (hcancelled : j.cancelled = false) :
    let m := j.buries r .expired d turns
    Solo.Completes j events (r.timeOut d)
      (Solo.run ⟨m.job, m.disk, events ++ m.events⟩ (List.replicate turns .advance)) := by
  induction turns generalizing j events with
  | zero => exact completes_ends (r.timeOut d)
  | succ n ih =>
    have hact : Solo.act ⟨some { j with phase := .ending r .expired n }, d, events⟩ .advance =
        let m := ({ j with phase := .ending r .expired n } : Job).buries r .expired d n
        ⟨m.job, m.disk, events ++ m.events⟩ := by
      simp only [Solo.act, Job.moved, Job.advances, hcancelled]
    simp only [Job.buries, Job.enters, List.map_nil, List.append_nil, List.replicate_succ, Solo.run,
      List.foldl_cons, hact]
    exact (ih (j := { j with phase := .ending r .expired n }) hcancelled).of_phase

/-- **A request whose time is up ends as its process does.** -/
private theorem run_expiring {rest : List ScriptStep}
    (hphase : j.phase = .playing r rest ∨ j.phase = .pausing r rest) (hcancelled : j.cancelled = false) :
    Solo.Completes j events (r.expire d) (Solo.run ⟨some j, d, events⟩ (expiring r.process)) := by
  have hact : Solo.act ⟨some j, d, events⟩ .expire =
      let m := j.kills r rest .expired d
      ⟨m.job, m.disk, events ++ m.events⟩ := by
    rcases hphase with hphase | hphase <;> simp only [Solo.act, Job.moved, hphase, hcancelled]
  rw [expiring, Solo.run, List.foldl_cons, hact]
  cases hkillable : r.process.killable with
  | true =>
    simp only [Job.kills, Run.expire, hkillable, if_true, Moved.after, ← List.append_assoc]
    exact (run_buries (d := d) r.process.killing.turns hcancelled).after [r.signal .expired]
  | false =>
    simp only [Job.kills, Run.expire, hkillable, Bool.false_eq_true, if_false, List.foldl_nil]
    exact completes_ends (r.spare d .expired)

/-- **A process that is left to itself plays** as long as there is time. -/
theorem run_clocked (steps : List ScriptStep) (left : Nat) (h : Ready go j r steps) :
    Solo.Completes j events (play r d left steps)
      (Solo.run ⟨some j, d, events⟩ (clocked go r.process left steps)) := by
  induction steps generalizing j r d left go events with
  | nil =>
    have hplay : play r d left [] = { r.close.1.conclude d with
        events := r.close.2 ++ (r.close.1.conclude d).events } := rfl
    rw [hplay, clocked, Solo.run, List.foldl_cons, act_ready h]
    have hends : Solo.Completes j (events ++ r.close.2.map eventOf) (r.close.1.conclude d) _ :=
      completes_ends _
    exact hends.after _
  | cons step rest ih =>
    have hpauses : ∀ {ticks}, step = .hang ∨ step = .sleep ticks →
        Solo.act ⟨some j, d, events⟩ go = ⟨some { j with phase := .pausing r rest }, d, events⟩ := by
      rintro ticks (rfl | rfl)
      · rw [act_ready h]
        simp [Job.plays, Job.enters]
      · rw [act_ready h]
        simp [Job.plays, Job.enters]
    have hexpires : ∀ ticks, step = .hang ∨ step = .sleep ticks →
        Solo.Completes j events (r.expire d)
          (Solo.run ⟨some j, d, events⟩ (go :: expiring r.process)) := by
      intro ticks hstep
      rw [Solo.run, List.foldl_cons, hpauses hstep]
      exact (run_expiring (j := { j with phase := .pausing r rest }) (.inr rfl) h.cancelled).of_phase
    by_cases hhang : step = .hang
    · rw [hhang] at hexpires ⊢
      exact hexpires 0 (.inl rfl)
    by_cases hsleep : ∃ ticks, step = .sleep ticks
    · obtain ⟨ticks, rfl⟩ := hsleep
      rw [play, clocked]
      split
      · exact hexpires ticks (.inr rfl)
      · rw [Solo.run, List.foldl_cons, hpauses (.inr rfl)]
        exact (ih (j := { j with phase := .pausing r rest }) (left - ticks)
          (.inr ⟨rfl, rfl, h.cancelled⟩)).of_phase
    -- All other steps are performed alike.
    have hsleep : ∀ ticks, step ≠ .sleep ticks := not_exists.mp hsleep
    obtain ⟨hprocess, -, hoverrun⟩ := r.process.perform_disk d {} step
    rw [play_of_performs hhang hsleep, clocked_of_performs hhang hsleep, Solo.run, List.foldl_cons,
      act_ready h, plays_of_performs hhang hsleep, Job.performed]
    simp only [hprocess, hoverrun]
    cases hcause : (r.process.perform d step).overrun with
    | none =>
      simp only [Option.isSome_none, Bool.false_eq_true, if_false]
      exact (ih left (j := { j with phase := _ }) (.inl ⟨rfl, rfl, h.cancelled⟩)).of_phase.after _
    | some cause =>
      simp only [Option.isSome_some, if_true, List.foldl_nil]
      exact completes_overrun _ _ _ _ _ _

private def playFrom (r : Run) (d : Disk) (steps : List ScriptStep) : Stage Outcome :=
  if runsOut (timeLimit r.request.settings) 0 then r.expireBefore d steps
  else play r d (timeLimit r.request.settings) steps

private theorem format_of_start {c : RunContext} {q : FormatRequest}
    {stage : Stage (Except Outcome Run)} (hstage : FormatServer.start c q d = stage)
    (hresult : stage.result = .ok r) (hrequest : r.request = q) :
    format c q d =
      let s := playFrom r stage.disk c.script.steps
      { s with events := stage.events ++ s.events } := by
  simp only [format, hstage, hresult, playFrom, hrequest, timeLimit]

private theorem schedule_firstPhase (j : Job) (r : Run) (steps : List ScriptStep) (turns : Nat) :
    ({ j with phase := Job.firstPhase r steps turns } : Job).schedule =
      List.replicate turns .advance ++ clockedFrom r steps := by
  cases turns with
  | zero =>
    rw [List.replicate_zero, List.nil_append]
    cases hout : runsOut (timeLimit r.request.settings) 0 <;>
      simp [Job.schedule, Job.firstPhase, hout]
  | succ turns => simp only [Job.schedule, Job.firstPhase]

/-- A process that may not be told to end takes its steps all the same. -/
private theorem Solo.Completes.expireBefore {c : Solo} (h : Completes j events (r.expire d) c)
    (steps : List ScriptStep) : Completes j events (r.expireBefore d steps) c := by
  cases hkillable : r.process.killable with
  | true => simpa only [Run.expireBefore, hkillable, if_true] using h
  | false =>
    have hresult : (r.expire d).result.leaves = true := by
      simp only [Run.expire, hkillable, Bool.false_eq_true, if_false, Run.spare, result_endWith]
      rfl
    simp only [Run.expireBefore, hkillable, Bool.false_eq_true, if_false]
    obtain ⟨own, later, disk, hevents, -⟩ := h
    exact .intro own later disk hevents fun hno => absurd (hresult.symm.trans hno) (by simp)

/-- **A request whose process has been started ends as its process does**, when its output is connected after some
turns. -/
private theorem run_firstPhase (turns : Nat) (steps : List ScriptStep) (hcancelled : j.cancelled = false) :
    Solo.Completes j events (playFrom r d steps)
      (Solo.run ⟨some { j with phase := Job.firstPhase r steps turns }, d, events⟩
        (List.replicate turns .advance ++ clockedFrom r steps)) := by
  induction turns with
  | zero =>
    rw [List.replicate_zero, List.nil_append]
    unfold playFrom clockedFrom Job.firstPhase
    dsimp only
    split
    · exact ((run_expiring (j := { j with phase := .pausing r steps }) (.inr rfl) hcancelled).expireBefore
        steps).of_phase
    · exact (run_clocked (j := { j with phase := .playing r steps }) steps _
        (.inl ⟨rfl, rfl, hcancelled⟩)).of_phase
  | succ n ih =>
    have hact : Solo.act ⟨some { j with phase := Job.firstPhase r steps (n + 1) }, d, events⟩ .advance =
        ⟨some { j with phase := Job.firstPhase r steps n }, d, events⟩ := by
      simp only [Solo.act, Job.moved, Job.advances, Job.firstPhase, hcancelled, Job.enters,
        List.map_nil, List.append_nil]
    rw [List.replicate_succ, List.cons_append, Solo.run, List.foldl_cons, hact]
    exact ih

/-- **A request whose moves come as the clock has them ends as a run with nothing else going on.** -/
theorem run_schedule (j : Job) (c : RunContext) (settings : Settings) (d : Disk)
    (hcancelled : j.cancelled = false) :
    ∃ j₁, (Solo.begin j c settings d).job = some j₁ ∧
      Solo.Completes j [] (format c { uri := j.uri, range := j.range, settings } d)
        ((Solo.begin j c settings d).run j₁.schedule) := by
  cases hresult : (FormatServer.start c { uri := j.uri, range := j.range, settings } d).result with
  | error o =>
    have hformat : format c { uri := j.uri, range := j.range, settings } d =
        let stage := FormatServer.start c { uri := j.uri, range := j.range, settings } d
        ⟨o, stage.disk, stage.events⟩ := by
      simp only [format, hresult]
    rw [hformat, Solo.begin, Job.starts_error hresult]
    exact ⟨_, rfl, completes_ends _⟩
  | ok run =>
    obtain ⟨hstarts, -⟩ := Job.starts_ok hresult
    rw [Solo.begin, hstarts, format_of_start rfl hresult (request_of_start hresult)]
    refine ⟨_, rfl, ?_⟩
    rw [schedule_firstPhase]
    exact (run_firstPhase c.script.startup c.script.steps hcancelled).after _

end

end FormatServer
