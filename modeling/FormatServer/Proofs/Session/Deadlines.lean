import FormatServer.Proofs.Number.Integer
import FormatServer.Proofs.Session.Alarms

/-!
The time of processes. A process is told to end for its time only when its time is up (`Attended`). In a loop that is
never late, a process that is still awaited has not passed its deadline, and one that comes to its end by itself before
is not told to end for its time (`InTime`).
-/

namespace FormatServer

open Binary64 Session

/-! ## Connections -/

/-- The output of a process was connected, with these steps before it. -/
structure Connection where
  time : Nat
  job : Nat
  run : Run
  steps : List ScriptStep

def connections (log : List (Nat × Noted)) : List Connection :=
  log.filterMap fun
    | (time, .connected job run steps) => some { time, job, run, steps }
    | _ => none

@[simp] theorem connections_append (a b : List (Nat × Noted)) :
    connections (a ++ b) = connections a ++ connections b :=
  List.filterMap_append

namespace Connection

def pid (c : Connection) : Nat := c.run.process.pid

def deadline (c : Connection) : Nat := c.run.deadline c.time

def finish? (c : Connection) : Option Nat := endOfSteps c.time c.steps

/-- The time of the process is up, as far as the clock can tell. -/
def isOver (c : Connection) (time : Nat) : Bool :=
  runsOut (timeLimit c.run.request.settings) 0 || isDue time c.deadline

theorem isOver_of_isDue {c : Connection} {time : Nat} (h : isDue time c.deadline = true) : c.isOver time = true := by
  rw [isOver, h, Bool.or_true]

theorem isOver_mono {c : Connection} {time later : Nat} (hle : time ≤ later) (h : c.isOver time = true) :
    c.isOver later = true := by
  simp only [isOver, isDue, Bool.or_eq_true, decide_eq_true_eq] at h ⊢
  exact h.imp_right fun hdue => by omega

theorem runsOut_of_not_over {c : Connection} {time : Nat} (h : c.isOver time = false) :
    runsOut (timeLimit c.run.request.settings) 0 = false :=
  (Bool.or_eq_false_iff.mp h).1

end Connection

def EndsBy (start : Nat) (steps : List ScriptStep) (finish : Nat) : Prop :=
  ∃ last, endOfSteps start steps = some last ∧ last ≤ finish

theorem endOfSteps_mono {start earlier last : Nat} {steps : List ScriptStep} (hle : earlier ≤ start)
    (h : endOfSteps start steps = some last) : ∃ sooner, endOfSteps earlier steps = some sooner ∧ sooner ≤ last := by
  induction steps generalizing start earlier with
  | nil => exact ⟨earlier, rfl, hle.trans (Nat.le_of_eq (Option.some.inj h))⟩
  | cons step rest ih =>
    cases step with
    | hang => cases h
    | sleep ticks => exact ih (max_le_max hle (roundTicks_mono (Nat.add_le_add_right hle ticks))) h
    | output stream bytes => exact ih hle h
    | change c => exact ih hle h
    | exit code => exact ih hle h

theorem le_endOfSteps {start last : Nat} {steps : List ScriptStep} (h : endOfSteps start steps = some last) :
    start ≤ last := by
  induction steps generalizing start with
  | nil => exact Nat.le_of_eq (Option.some.inj h)
  | cons step rest ih =>
    cases step with
    | hang => cases h
    | sleep ticks => exact (le_max_left _ _).trans (ih h)
    | output stream bytes => exact ih h
    | change c => exact ih h
    | exit code => exact ih h

theorem EndsBy.mono {start earlier finish : Nat} {steps : List ScriptStep} (h : EndsBy start steps finish)
    (hle : earlier ≤ start) : EndsBy earlier steps finish := by
  obtain ⟨last, hlast, hfinish⟩ := h
  obtain ⟨sooner, hsooner, hle⟩ := endOfSteps_mono hle hlast
  exact ⟨sooner, hsooner, hle.trans hfinish⟩

theorem EndsBy.le {start finish : Nat} {steps : List ScriptStep} (h : EndsBy start steps finish) : start ≤ finish := by
  obtain ⟨last, hlast, hfinish⟩ := h
  exact (le_endOfSteps hlast).trans hfinish

/-! ## Never early -/

/-- A process stays the one that it is, and one that was connected before is none that is connected later. -/
structure Phase.Tracks (p p' : Phase) : Prop where
  past : p.past = true → p'.past = true
  connected : ∀ run' steps', p'.connected? = some (run', steps') → ∃ run steps,
    p.connected? = some (run, steps) ∧ run.process.pid = run'.process.pid ∧ run.request = run'.request

theorem Phase.Tracks.refl (p : Phase) : p.Tracks p := ⟨id, fun run steps h => ⟨run, steps, h, rfl, rfl⟩⟩

namespace Session

/-- No process is connected, and no end of a request's time is added. -/
structure Spares (s s' : Session) : Prop where
  now : s.now ≤ s'.now
  nextJob : s.nextJob ≤ s'.nextJob
  jobs : ∀ n j', s'.job? n = some j' →
    (∃ j, s.job? n = some j ∧ j.phase.Tracks j'.phase) ∨ s.nextJob ≤ n ∧ j'.phase = .accepted
  timers : ∀ due n, ⟨due, .expire n⟩ ∈ s'.timers.entries → ⟨due, .expire n⟩ ∈ s.timers.entries

/-- Every process that is connected was at some time, and the end of a request's time comes when it is due. -/
structure Attended (cs : List Connection) (pending : List Turn) (s : Session) : Prop where
  past : ∀ c ∈ cs, c.time ≤ s.now ∧ c.job < s.nextJob ∧ ∀ j, s.job? c.job = some j → j.phase.past = true
  once : ∀ c ∈ cs, ∀ c' ∈ cs, c.job = c'.job → c = c'
  running : ∀ n j run steps, s.job? n = some j → j.phase.connected? = some (run, steps) →
    ∃ c ∈ cs, c.job = n ∧ c.pid = run.process.pid ∧ c.run.request = run.request
  timers : ∀ due n, ⟨due, .expire n⟩ ∈ s.timers.entries → ∃ c ∈ cs, c.job = n ∧ due = c.deadline
  turns : ∀ n, .expire n ∈ pending → ∃ c ∈ cs, c.job = n ∧ c.isOver s.now = true

variable {s s' : Session} {cs : List Connection} {pending pending' : List Turn} {j : Job} {n : Nat} {t : Turn}

theorem Attended.spare (h : s.Attended cs pending) (hspares : s.Spares s')
    (hpending : ∀ n, .expire n ∈ pending' → .expire n ∈ pending) : s'.Attended cs pending' where
  past c hc := by
    obtain ⟨htime, hjob, hpast⟩ := h.past c hc
    refine ⟨htime.trans hspares.now, hjob.trans_le hspares.nextJob, fun j' hj' => ?_⟩
    rcases hspares.jobs c.job j' hj' with ⟨j, hj, htracks⟩ | ⟨hnew, -⟩
    · exact htracks.past (hpast j hj)
    · omega
  once := h.once
  running n j' run' steps' hj' hconnected := by
    rcases hspares.jobs n j' hj' with ⟨j, hj, htracks⟩ | ⟨-, hphase⟩
    · obtain ⟨run, steps, hbefore, hpid, hrequest⟩ := htracks.connected run' steps' hconnected
      obtain ⟨c, hc, hjob, hcpid, hcrequest⟩ := h.running n j run steps hj hbefore
      exact ⟨c, hc, hjob, hcpid.trans hpid, hcrequest.trans hrequest⟩
    · rw [hphase] at hconnected
      cases hconnected
  timers due n hmem := h.timers due n (hspares.timers due n hmem)
  turns n hmem := by
    obtain ⟨c, hc, hjob, hover⟩ := h.turns n (hpending n hmem)
    exact ⟨c, hc, hjob, Connection.isOver_mono hspares.now hover⟩

/-- A process is connected. -/
private theorem Attended.connect (h : s.Attended cs pending) (hj : s.job? n = some j)
    (hnew : j.phase.past = false) (hlt : n < s.nextJob) {p : Phase} {run : Run} {steps : List ScriptStep}
    (hp : p.connected? = some (run, steps)) (hpast : p.past = true) (hnow : s'.now = s.now)
    (hnext : s.nextJob ≤ s'.nextJob) (hjob : s'.job? n = some { j with phase := p })
    (hothers : ∀ k, k ≠ n → s'.job? k = s.job? k)
    (htimers : ∀ due k, ⟨due, .expire k⟩ ∈ s'.timers.entries →
      ⟨due, .expire k⟩ ∈ s.timers.entries ∨ k = n ∧ due = run.deadline s.now)
    (hturns : ∀ k, .expire k ∈ pending' →
      .expire k ∈ pending ∨ k = n ∧ FormatServer.runsOut (timeLimit run.request.settings) 0 = true) :
    s'.Attended (cs ++ [⟨s.now, n, run, steps⟩]) pending' := by
  have hother : ∀ c ∈ cs, c.job ≠ n := by
    rintro c hc rfl
    exact absurd ((h.past c hc).2.2 j hj) (by simp [hnew])
  have hself : (⟨s.now, n, run, steps⟩ : Connection) ∈ cs ++ [⟨s.now, n, run, steps⟩] :=
    List.mem_append_right _ List.mem_cons_self
  refine ⟨fun c hc => ?_, fun c hc c' hc' hsame => ?_, fun k j' run' steps' hj' hconnected => ?_,
    fun due k hmem => ?_, fun k hmem => ?_⟩
  · rcases List.mem_append.mp hc with hc | hc
    · obtain ⟨htime, hbelow, hphase⟩ := h.past c hc
      refine ⟨hnow ▸ htime, hbelow.trans_le hnext, fun j' hj' => ?_⟩
      rw [hothers _ (hother c hc)] at hj'
      exact hphase j' hj'
    · obtain rfl := List.mem_singleton.mp hc
      refine ⟨Nat.le_of_eq hnow.symm, hlt.trans_le hnext, fun j' hj' => ?_⟩
      obtain rfl := Option.some.inj (hjob.symm.trans hj')
      exact hpast
  · rcases List.mem_append.mp hc with hc | hc <;> rcases List.mem_append.mp hc' with hc' | hc'
    · exact h.once c hc c' hc' hsame
    · obtain rfl := List.mem_singleton.mp hc'
      exact absurd hsame (hother c hc)
    · obtain rfl := List.mem_singleton.mp hc
      exact absurd hsame.symm (hother c' hc')
    · rw [List.mem_singleton.mp hc, List.mem_singleton.mp hc']
  · by_cases hk : k = n
    · subst hk
      obtain rfl := Option.some.inj (hjob.symm.trans hj')
      obtain ⟨rfl, rfl⟩ := Prod.mk.inj (Option.some.inj (hp.symm.trans hconnected))
      exact ⟨_, hself, rfl, rfl, rfl⟩
    · rw [hothers k hk] at hj'
      obtain ⟨c, hc, hrest⟩ := h.running k j' run' steps' hj' hconnected
      exact ⟨c, List.mem_append_left _ hc, hrest⟩
  · rcases htimers due k hmem with hold | ⟨rfl, rfl⟩
    · obtain ⟨c, hc, hrest⟩ := h.timers due k hold
      exact ⟨c, List.mem_append_left _ hc, hrest⟩
    · exact ⟨_, hself, rfl, rfl⟩
  · rcases hturns k hmem with hold | ⟨rfl, hout⟩
    · obtain ⟨c, hc, hrest⟩ := h.turns k hold
      exact ⟨c, List.mem_append_left _ hc, hnow.symm ▸ hrest⟩
    · exact ⟨_, hself, rfl, by simp [Connection.isOver, hout]⟩

def connection? (s : Session) (t : Turn) : List Connection := connections ((s.connects t).toList.map (s.now, ·))

private theorem connected?_of_job (hj : s.job? n = some j) : s.connected? n = j.phase.connected? := by
  rw [connected?, hj, Option.bind_some]

private theorem connection?_of_none
    (h : ∀ n, t = .advance n → (s.connected? n).isSome = true ∨ (s.take t).connected? n = none) :
    s.connection? t = [] := by
  unfold connection? connects
  cases t with
  | advance n =>
    dsimp only
    rcases h n rfl with hbefore | hafter
    · rw [if_pos hbefore]
      rfl
    · rw [hafter, Option.map_none, ite_self]
      rfl
  | _ => rfl

private theorem connection?_advance {p : Phase} {run : Run} {steps : List ScriptStep} (hj : s.job? n = some j)
    (hnew : j.phase.connected? = none) (hjob : (s.take (.advance n)).job? n = some { j with phase := p })
    (hp : p.connected? = some (run, steps)) : s.connection? (.advance n) = [⟨s.now, n, run, steps⟩] := by
  have hbefore : s.connected? n = none := (connected?_of_job hj).trans hnew
  have hafter : (s.take (.advance n)).connected? n = some (run, steps) := (connected?_of_job hjob).trans hp
  simp only [connection?, connects, hbefore, hafter, Option.isSome_none, Bool.false_eq_true, if_false,
    Option.map_some, Option.toList_some, List.map_cons, List.map_nil]
  rfl

theorem connected?_of_not_past {p : Phase} (h : p.past = false) : p.connected? = none := by
  cases p with
  | playing | pausing => cases h
  | _ => rfl

theorem past_of_connected {p : Phase} {x : Run × List ScriptStep} (h : p.connected? = some x) : p.past = true := by
  cases p with
  | playing | pausing => rfl
  | _ => cases h

/-- Of the alarms in the queue, those that were not set were there before. -/
theorem Sets.mem_ready {soon : List Turn} {later : List (Timer Turn)} (h : s.Sets soon later s') {x : Turn}
    (hx : x.alarms = true) (hmem : x ∈ s'.ready) : x ∈ s.ready ∨ x ∈ soon := by
  obtain ⟨new, hready, rfl⟩ := h.ready
  rw [hready] at hmem
  exact (List.mem_append.mp hmem).imp_right fun hmem => List.mem_filter.mpr ⟨hmem, hx⟩

/-- The same of those that are at hand after a turn. -/
theorem Sets.mem_or_mem {soon : List Turn} {later : List (Timer Turn)} {rest : List Turn} (h : s.Sets soon later s')
    {x : Turn} (hx : x.alarms = true) (hmem : x ∈ rest ++ s'.ready) : x ∈ t :: rest ++ s.ready ∨ x ∈ soon := by
  rcases List.mem_append.mp hmem with hmem | hmem
  · exact .inl (List.mem_append_left _ (List.mem_cons_of_mem _ hmem))
  · exact (h.mem_ready hx hmem).imp_left (List.mem_append_right _)

/-- A turn in which no process is connected. -/
private theorem spares_paces {later : List (Timer Turn)} (hj : s.job? j.number = some j)
    (hset : s.Sets [] later s') (hlater : ∀ x ∈ later, ∀ k, x.event ≠ .expire k) (hnext : s.nextJob ≤ s'.nextJob)
    (htracks : ∀ j', s'.job? j.number = some j' → j.phase.Tracks j'.phase)
    (hothers : ∀ k, k ≠ j.number → s'.job? k = s.job? k) : s.Spares s' := by
  refine ⟨Nat.le_of_eq hset.now.symm, hnext, fun k j' hj' => .inl ?_, fun due k hmem => ?_⟩
  · by_cases hk : k = j.number
    · subst hk
      exact ⟨j, hj, htracks j' hj'⟩
    · rw [hothers k hk] at hj'
      exact ⟨j', hj', .refl _⟩
  · exact ((hset.timers _ rfl).mp hmem).resolve_right fun hlate => hlater _ hlate k rfl

/-- **A turn that is taken.** -/
theorem attended_take {rest : List Turn} {marks : List Mark} (hhistory : History marks s)
    (h : s.Attended cs (t :: rest ++ s.ready)) :
    (s.take t).Attended (cs ++ s.connection? t) (rest ++ (s.take t).ready) := by
  have hnext : s.nextJob ≤ (s.take t).nextJob := nextJob_le s (.turn t)
  have hspare : ∀ {later : List (Timer Turn)}, s.Sets [] later (s.take t) → s.Spares (s.take t) →
      s.connection? t = [] → (s.take t).Attended (cs ++ s.connection? t) (rest ++ (s.take t).ready) := by
    intro later hset hspares hnone
    rw [hnone, List.append_nil]
    exact h.spare hspares fun n hmem => (hset.mem_or_mem rfl hmem).resolve_right List.not_mem_nil
  rcases alarms_take s t with ⟨hset, hjobs, hother⟩ | ⟨j, hj, hrequest, hpaces, hothers⟩
  · have hjob : ∀ k, (s.take t).job? k = s.job? k := fun k => by rw [job?, job?, hjobs]
    refine hspare hset ⟨Nat.le_of_eq hset.now.symm, hnext, fun k j' hj' => ?_, fun due k hmem => ?_⟩
      (connection?_of_none ?_)
    · exact .inl ⟨j', hjob k ▸ hj', .refl _⟩
    · exact ((hset.timers _ rfl).mp hmem).resolve_right List.not_mem_nil
    · rintro n rfl
      cases hj : s.job? n with
      | none => exact .inr (by rw [connected?, hjob, hj, Option.bind_none])
      | some j => exact absurd rfl (hother n j hj)
  · have hnumber : ∀ n, t = .advance n → n = j.number := by
      rintro n rfl
      exact Option.some.inj hrequest
    have hbelow := lt_nextJob hhistory hj
    -- The process of the request is connected before the turn.
    have hplayed : ∀ {run next : Run} {steps rest : List ScriptStep} {p : Phase}, j.Plays run steps t →
        p.connected? = some (next, rest) → next.process.pid = run.process.pid → next.request = run.request →
        (s.take t).job? j.number = some { j with phase := p } →
        (∀ j', (s.take t).job? j.number = some j' → j.phase.Tracks j'.phase) ∧ s.connection? t = [] := by
      intro run next steps rest p hplays hp hpid hsame hjob
      have hconnected : j.phase.connected? = some (run, steps) := by
        rcases hplays.phase with hphase | hphase <;> rw [hphase] <;> rfl
      refine ⟨fun j' hj' => ?_, connection?_of_none ?_⟩
      · obtain rfl := Option.some.inj (hjob.symm.trans hj')
        refine ⟨fun _ => past_of_connected hp, fun run' steps' h' => ?_⟩
        obtain ⟨rfl, rfl⟩ := Prod.mk.inj (Option.some.inj (hp.symm.trans h'))
        exact ⟨run, steps, hconnected, hpid.symm, hsame.symm⟩
      · intro n hn
        rw [hnumber n hn, connected?_of_job hj, hconnected]
        exact .inl rfl
    cases hpaces with
    | idles hjob hset hidle =>
      refine hspare hset (spares_paces hj hset (by simp) hnext ?_ hothers) (connection?_of_none ?_)
      · intro j' hj'
        obtain rfl := Option.some.inj (hjob.symm.trans hj')
        exact .refl _
      · intro n hn
        rw [hnumber n hn, connected?_of_job hj, connected?_of_job hjob]
        cases j.phase.connected? with
        | none => exact .inr rfl
        | some x => exact .inl rfl
    | parts hparts =>
      refine hspare hparts.sets (spares_paces hj hparts.sets (by simp) hnext ?_ hothers) (connection?_of_none ?_)
      · intro j' hj'
        obtain ⟨hnone, hpast⟩ := hparts.job j' hj'
        exact ⟨hpast, fun run' steps' hconnected => absurd hconnected (by simp [hnone])⟩
      · intro n hn
        right
        rw [hnumber n hn, connected?]
        cases hjob : (s.take t).job? j.number with
        | none => rfl
        | some j' => exact (hparts.job j' hjob).1
    | steps hplays hstep hpid hsame hjob hset =>
      obtain ⟨htracks, hnone⟩ := hplayed hplays rfl hpid hsame hjob
      exact hspare hset (spares_paces hj hset (by simp) hnext htracks hothers) hnone
    | sleeps hplays hjob hset =>
      obtain ⟨htracks, hnone⟩ := hplayed hplays rfl rfl rfl hjob
      exact hspare hset (spares_paces hj hset (by simp) hnext htracks hothers) hnone
    | hangs hplays hjob hset =>
      obtain ⟨htracks, hnone⟩ := hplayed hplays rfl rfl rfl hjob
      exact hspare hset (spares_paces hj hset (by simp) hnext htracks hothers) hnone
    | connects _ hnew hout hjob hset =>
      rw [connection?_advance hj (connected?_of_not_past hnew) hjob rfl]
      refine h.connect hj hnew hbelow rfl rfl hset.now hnext hjob hothers (fun due k hmem => ?_) fun k hmem => ?_
      · refine ((hset.timers _ rfl).mp hmem).imp_right fun hnewest => ?_
        obtain ⟨rfl, hturn⟩ := Timer.mk.inj (List.mem_singleton.mp hnewest)
        exact ⟨Turn.expire.inj hturn, rfl⟩
      · exact .inl ((hset.mem_or_mem rfl hmem).resolve_right List.not_mem_nil)
    | runsOut _ hnew hout hjob hset =>
      rw [connection?_advance hj (connected?_of_not_past hnew) hjob rfl]
      refine h.connect hj hnew hbelow rfl rfl hset.now hnext hjob hothers (fun due k hmem => ?_) fun k hmem => ?_
      · exact .inl (((hset.timers _ rfl).mp hmem).resolve_right List.not_mem_nil)
      · refine (hset.mem_or_mem rfl hmem).imp_right fun hnewest => ?_
        exact ⟨Turn.expire.inj (List.mem_singleton.mp hnewest), hout⟩

/-! ## Never late -/

/-- The process of a request comes to its end by itself in time. When it pauses, the end of the pause is at hand, or
it is set. -/
def KeepsTime (s : Session) (pending : List Turn) (finish : Nat) (j : Job) : Prop :=
  match j.phase with
  | .playing _ steps => EndsBy s.now steps finish
  | .pausing _ steps =>
    (∃ due, ⟨due, .wake j.number⟩ ∈ s.timers.entries ∧ EndsBy (max s.now due) steps finish) ∨
      .wake j.number ∈ pending ∧ EndsBy s.now steps finish
  | _ => True

/-- A request with a connected process is in time. -/
structure InTime (s : Session) (pending : List Turn) (c : Connection) (j : Job) : Prop where
  limit : j.phase.connected?.isSome = true → s.now ≤ max c.time c.deadline
  turn : j.Heeds (.advance j.number) → .advance j.number ∈ pending
  alarm : j.Heeds (.expire j.number) →
    ⟨c.deadline, .expire j.number⟩ ∈ s.timers.entries ∨ .expire j.number ∈ pending
  steps : ∀ finish, c.finish? = some finish →
    FormatServer.runsOut (timeLimit c.run.request.settings) 0 = false → s.KeepsTime pending finish j

def Prompt (s : Session) (cs : List Connection) (pending : List Turn) : Prop :=
  ∀ c ∈ cs, ∀ j, s.job? c.job = some j → s.InTime pending c j

variable {c : Connection} {j' : Job} {finish : Nat} {run : Run} {steps : List ScriptStep}

theorem KeepsTime.endsBy (h : s.KeepsTime pending finish j)
    (hphase : j.phase = .playing run steps ∨ j.phase = .pausing run steps) : EndsBy s.now steps finish := by
  unfold KeepsTime at h
  rcases hphase with hphase | hphase
  · rw [hphase] at h
    exact h
  · rw [hphase] at h
    rcases h with ⟨due, -, hends⟩ | ⟨-, hends⟩
    · exact hends.mono (le_max_left _ _)
    · exact hends

theorem KeepsTime.le (h : s.KeepsTime pending finish j) (hconnected : j.phase.connected?.isSome = true) :
    s.now ≤ finish := by
  cases hphase : j.phase with
  | playing run steps => exact (h.endsBy (.inl hphase)).le
  | pausing run steps => exact (h.endsBy (.inr hphase)).le
  | _ => simp [hphase, Phase.connected?] at hconnected

/-- **A request stays in time** while it stays as it is, as long as what it waits for is set or at hand. -/
theorem InTime.frame (h : s.InTime pending c j) (hnow : s'.now = s.now)
    (htimers : ∀ x : Timer Turn, x.event.alarms = true → j.Heeds x.event → x ∈ s.timers.entries →
      x ∈ s'.timers.entries ∨ x.event ∈ pending')
    (hpending : ∀ x, j.Heeds x → x ∈ pending → x ∈ pending') : s'.InTime pending' c j := by
  refine ⟨hnow ▸ h.limit, fun hheeds => hpending _ hheeds (h.turn hheeds), fun hheeds => ?_,
    fun finish hfinish hout => ?_⟩
  · exact (h.alarm hheeds).elim (htimers _ rfl hheeds) fun hmem => .inr (hpending _ hheeds hmem)
  · have hkeeps := h.steps finish hfinish hout
    unfold KeepsTime at hkeeps ⊢
    rw [hnow]
    cases hp : j.phase with
    | playing run steps => rwa [hp] at hkeeps
    | pausing run steps =>
      have hheeds : j.Heeds (.wake j.number) := by
        rw [Job.Heeds, hp]
        cases j.cancelled <;> exact .inl rfl
      rw [hp] at hkeeps
      rcases hkeeps with ⟨due, hmem, hends⟩ | ⟨hmem, hends⟩
      · rcases htimers _ rfl hheeds hmem with hmem | hmem
        · exact .inl ⟨due, hmem, hends⟩
        · exact .inr ⟨hmem, hends.mono (le_max_left _ _)⟩
      · exact .inr ⟨hpending _ hheeds hmem, hends⟩
    | _ => trivial

/-- A request that is withdrawn in a pause stays in time if it gets a turn. -/
theorem InTime.withdraw (h : s.InTime pending c j)
    (hturn : ∀ run steps, j.phase = .pausing run steps → .advance j.number ∈ pending) :
    s.InTime pending c { j with cancelled := true } := by
  refine ⟨h.limit, fun hheeds => ?_, fun hheeds => ?_, h.steps⟩
  · rcases (Job.heeds_advance_iff _).mp hheeds with hplaying | ⟨⟨run, steps, hphase⟩, -⟩
    · exact h.turn (j.heeds_advance_iff.mpr (.inl hplaying))
    · exact hturn run steps hphase
  · cases ((Job.heeds_expire_iff _).mp hheeds).2

/-- A request waits for turns of its own. -/
theorem request?_of_heeds (h : j.Heeds t) : t.request? = some j.number := by
  unfold Job.Heeds at h
  split at h
  · rw [h]; rfl
  · rcases h with rfl | rfl <;> rfl
  · rcases h with rfl | rfl <;> rfl
  · rcases h with rfl | rfl <;> rfl
  · exact h.elim

/-- What was at hand before a turn is at hand after it, but for the turn. -/
theorem Sets.mem_of_ne {soon : List Turn} {later : List (Timer Turn)} {rest : List Turn} (h : s.Sets soon later s')
    {x : Turn} (hne : x ≠ t) (hmem : x ∈ t :: rest ++ s.ready) : x ∈ rest ++ s'.ready := by
  obtain ⟨new, hready, -⟩ := h.ready
  rw [hready]
  simp only [List.cons_append, List.mem_cons, List.mem_append] at hmem ⊢
  tauto

/-- A process has taken a step, in the turn for which its request waited. -/
private theorem inTime_plays {rest : List Turn} {later : List (Timer Turn)} {p : Phase}
    (h : s.InTime (t :: rest ++ s.ready) c j) (hplays : j.Plays run steps t) (hset : s.Sets [] later s')
    (hafter : s'.job? j.number = some { j with phase := p }) (hjob : s'.job? j.number = some j')
    (hturn : (∃ run steps, p = .playing run steps) → .advance j.number ∈ s'.ready)
    (hkeeps : ∀ finish, c.finish? = some finish → EndsBy s.now steps finish →
      s'.KeepsTime (rest ++ s'.ready) finish { j with phase := p }) : s'.InTime (rest ++ s'.ready) c j' := by
  obtain rfl := Option.some.inj (hafter.symm.trans hjob)
  have hconnected : j.phase.connected?.isSome = true := by
    rcases hplays.phase with hphase | hphase <;> rw [hphase] <;> rfl
  refine ⟨fun _ => hset.now ▸ h.limit hconnected, fun hheeds => ?_, fun hheeds => ?_, fun finish hfinish hout => ?_⟩
  · rcases (Job.heeds_advance_iff _).mp hheeds with hplaying | ⟨-, hcancelled⟩
    · exact List.mem_append_right _ (hturn hplaying)
    · -- A request that is withdrawn has another turn, as this one was the end of a pause.
      cases hplays with
      | playing hgoing => exact absurd hcancelled (by simp [hgoing])
      | pausing hphase =>
        exact hset.mem_of_ne (by simp) (h.turn (j.heeds_advance_iff.mpr (.inr ⟨⟨_, _, hphase⟩, hcancelled⟩)))
  · have hexpire := h.alarm (j.heeds_expire_iff.mpr ⟨hconnected, ((Job.heeds_expire_iff _).mp hheeds).2⟩)
    refine hexpire.imp (fun hmem => (hset.timers _ rfl).mpr (.inl hmem)) (hset.mem_of_ne ?_)
    cases hplays <;> simp
  · exact hkeeps finish hfinish ((h.steps finish hfinish hout).endsBy hplays.phase)

/-- A request in its own turn. -/
private theorem inTime_paces {rest : List Turn} (hpast : j.phase.past = true)
    (h : s.InTime (t :: rest ++ s.ready) c j) (hpaces : s.Paces j s' t)
    (hjob : s'.job? j.number = some j') : s'.InTime (rest ++ s'.ready) c j' := by
  cases hpaces with
  | idles hafter hset hidle =>
    obtain rfl := Option.some.inj (hafter.symm.trans hjob)
    refine h.frame hset.now (fun x hx _ hmem => .inl ((hset.timers x hx).mpr (.inl hmem))) fun x hx => ?_
    exact hset.mem_of_ne fun he => hidle (he ▸ hx)
  | parts hparts =>
    obtain ⟨hnone, -⟩ := hparts.job j' hjob
    refine ⟨fun hconnected => absurd hconnected (by simp [hnone]),
      fun hheeds => absurd hheeds (Job.not_heeds_of_unconnected hnone _),
      fun hheeds => absurd hheeds (Job.not_heeds_of_unconnected hnone _), fun finish _ _ => ?_⟩
    unfold KeepsTime
    cases hp : j'.phase with
    | playing | pausing => simp [hp, Phase.connected?] at hnone
    | _ => trivial
  | connects _ hnew => exact absurd hpast (by simp [hnew])
  | runsOut _ hnew => exact absurd hpast (by simp [hnew])
  | steps hplays hstep hpid hsame hafter hset hnext =>
    refine inTime_plays h hplays hset hafter hjob (fun _ => hnext) fun finish _ hends => ?_
    obtain ⟨last, hlast, hle⟩ := hends
    exact ⟨last, by rw [hset.now, ← hstep]; exact hlast, hle⟩
  | @sleeps _ _ ticks _ hplays hafter hset =>
    refine inTime_plays h hplays hset hafter hjob (fun hplaying => ?_) fun finish _ hends =>
      .inl ⟨roundTicks (s.now + ticks) 1, ?_, ?_⟩
    · obtain ⟨_, _, hphase⟩ := hplaying
      cases hphase
    · exact (hset.timers _ rfl).mpr (.inr (List.mem_singleton.mpr rfl))
    · rw [hset.now]
      exact hends
  | hangs hplays hafter hset =>
    refine inTime_plays h hplays hset hafter hjob (fun hplaying => ?_) fun finish _ hends => ?_
    · obtain ⟨_, _, hphase⟩ := hplaying
      cases hphase
    · obtain ⟨last, hlast, -⟩ := hends
      cases hlast

theorem eq_of_mem_connection? (hc : c ∈ s.connection? t) : ∃ n run steps,
    t = .advance n ∧ c = ⟨s.now, n, run, steps⟩ ∧ s.connected? n = none ∧
      (s.take (.advance n)).connected? n = some (run, steps) := by
  unfold connection? connects at hc
  cases t with
  | advance n =>
    dsimp only at hc
    cases hbefore : s.connected? n with
    | some x => simp [hbefore, connections] at hc
    | none =>
      cases hafter : (s.take (.advance n)).connected? n with
      | none => simp [hbefore, hafter, connections] at hc
      | some x =>
        rw [hbefore, hafter] at hc
        exact ⟨n, x.1, x.2, rfl, List.mem_singleton.mp hc, hbefore, hafter⟩
  | _ => simp [connections] at hc

/-- A request whose process was connected just now. -/
private theorem inTime_connection {rest : List Turn} (hc : c ∈ s.connection? t)
    (hj' : (s.take t).job? c.job = some j') : (s.take t).InTime (rest ++ (s.take t).ready) c j' := by
  obtain ⟨n, run, steps, rfl, rfl, hbefore, hafter⟩ := eq_of_mem_connection? hc
  dsimp only at hj'
  rw [connected?_of_job hj'] at hafter
  rcases alarms_take s (.advance n) with ⟨-, hjobs, -⟩ | ⟨j, hj, hrequest, hpaces, -⟩
  · have hj : s.job? n = some j' := by rwa [job?, hjobs] at hj'
    rw [connected?_of_job hj, hafter] at hbefore
    cases hbefore
  · obtain rfl : n = j.number := Option.some.inj hrequest
    rw [connected?_of_job hj] at hbefore
    have hplayed : ∀ {run : Run} {steps : List ScriptStep}, ¬ j.Plays run steps (.advance j.number) := by
      intro run steps hplays
      cases hplays with
      | playing _ hphase =>
        rw [hphase] at hbefore
        cases hbefore
    cases hpaces with
    | idles hjob =>
      obtain rfl := Option.some.inj (hjob.symm.trans hj')
      rw [hafter] at hbefore
      cases hbefore
    | parts hparts =>
      rw [(hparts.job j' hj').1] at hafter
      cases hafter
    | steps hplays => exact absurd hplays hplayed
    | sleeps hplays => exact absurd hplays hplayed
    | hangs hplays => exact absurd hplays hplayed
    | connects hgoing hnew hout hjob hset hnext =>
      obtain rfl := Option.some.inj (hjob.symm.trans hj')
      obtain ⟨rfl, rfl⟩ := Prod.mk.inj (Option.some.inj hafter)
      refine ⟨fun _ => hset.now.trans_le (le_max_left _ _), fun _ => List.mem_append_right _ hnext, fun _ => .inl ?_,
        fun finish hfinish _ => ⟨finish, hset.now.symm ▸ hfinish, Nat.le_refl _⟩⟩
      exact (hset.timers _ rfl).mpr (.inr (List.mem_singleton.mpr rfl))
    | runsOut hgoing hnew hout hjob hset =>
      obtain rfl := Option.some.inj (hjob.symm.trans hj')
      obtain ⟨rfl, rfl⟩ := Prod.mk.inj (Option.some.inj hafter)
      obtain ⟨new, hready, hsoon⟩ := hset.ready
      refine ⟨fun _ => hset.now.trans_le (le_max_left _ _), fun hheeds => ?_, fun _ => .inr ?_,
        fun finish _ hno => absurd hout (by simp [hno])⟩
      · rcases (Job.heeds_advance_iff _).mp hheeds with ⟨_, _, hphase⟩ | ⟨-, hcancelled⟩
        · cases hphase
        · exact absurd hcancelled (by simp [hgoing])
      · rw [hready]
        have hnew : .expire j.number ∈ new.filter Turn.alarms := hsoon ▸ List.mem_singleton.mpr rfl
        exact List.mem_append_right _ (List.mem_append_right _ (List.mem_filter.mp hnew).1)

/-- **A turn that is taken leaves requests in time**, also the one whose process it connects. -/
theorem prompt_take {rest : List Turn} (hattended : s.Attended cs (t :: rest ++ s.ready))
    (h : s.Prompt cs (t :: rest ++ s.ready)) :
    (s.take t).Prompt (cs ++ s.connection? t) (rest ++ (s.take t).ready) := by
  intro c hc j' hj'
  rcases List.mem_append.mp hc with hc | hc
  · obtain ⟨-, hbelow, hpast⟩ := hattended.past c hc
    have hother : ∀ {soon : List Turn} {later : List (Timer Turn)}, s.Sets soon later (s.take t) →
        (s.take t).job? c.job = s.job? c.job → t.request? ≠ some c.job →
        (s.take t).InTime (rest ++ (s.take t).ready) c j' := by
      intro soon later hset hjob hrequest
      rw [hjob] at hj'
      refine (h c hc j' hj').frame hset.now
        (fun x hx _ hmem => .inl ((hset.timers x hx).mpr (.inl hmem))) fun x hx => hset.mem_of_ne ?_
      rintro rfl
      exact hrequest (number_of_job? hj' ▸ request?_of_heeds hx)
    rcases alarms_take s t with ⟨hset, hjobs, hnone⟩ | ⟨j, hj, hrequest, hpaces, hothers⟩
    · have hjob : (s.take t).job? c.job = s.job? c.job := by rw [job?, job?, hjobs]
      exact hother hset hjob (hnone c.job j' (hjob ▸ hj'))
    · by_cases hnumber : c.job = j.number
      · rw [hnumber] at hj'
        exact inTime_paces (hpast j (hnumber ▸ hj)) (h c hc j (hnumber ▸ hj)) hpaces hj'
      · have hsets : ∃ soon later, s.Sets soon later (s.take t) := by
          cases hpaces with
          | idles _ hset => exact ⟨_, _, hset⟩
          | parts hparts => exact ⟨_, _, hparts.sets⟩
          | connects _ _ _ _ hset => exact ⟨_, _, hset⟩
          | runsOut _ _ _ _ hset => exact ⟨_, _, hset⟩
          | steps _ _ _ _ _ hset => exact ⟨_, _, hset⟩
          | sleeps _ _ hset => exact ⟨_, _, hset⟩
          | hangs _ _ hset => exact ⟨_, _, hset⟩
        obtain ⟨soon, later, hset⟩ := hsets
        refine hother hset (hothers c.job hnumber) fun he => hnumber ?_
        exact Option.some.inj (he.symm.trans hrequest)
  · exact inTime_connection hc hj'

/-! ## Messages and alarms -/

private theorem phase_of_receive {m : Except MessageFault Incoming} (hj' : (s.receive m).job? n = some j') :
    (∃ j, s.job? n = some j ∧ j'.phase = j.phase ∧ j'.number = j.number) ∨
      s.nextJob ≤ n ∧ j'.phase = .accepted := by
  have hhears := hears_receive s m
  cases hj : s.job? n with
  | none =>
    obtain ⟨rfl, hphase⟩ := hhears.new n j' hj hj'
    exact .inr ⟨Nat.le_refl _, hphase⟩
  | some j =>
    rw [hhears.jobs n j hj] at hj'
    obtain rfl := Option.some.inj hj'
    exact .inl ⟨j, rfl, rfl, rfl⟩

/-- A message adds no alarm: it sets none, or the session ends with it. -/
private theorem spares_receive (s : Session) (m : Except MessageFault Incoming) :
    s.Spares (s.receive m) ∧ ∀ k, .expire k ∈ (s.receive m).ready → .expire k ∈ s.ready := by
  have hjobs : ∀ n j', (s.receive m).job? n = some j' →
      (∃ j, s.job? n = some j ∧ j.phase.Tracks j'.phase) ∨ s.nextJob ≤ n ∧ j'.phase = .accepted := by
    intro n j' hj'
    refine (phase_of_receive hj').imp_left ?_
    rintro ⟨j, hj, hphase, -⟩
    exact ⟨j, hj, hphase ▸ .refl _⟩
  have hnext := (hears_receive s m).nextJob
  rcases alarms_receive s m with hset | hends
  · refine ⟨⟨Nat.le_of_eq hset.now.symm, hnext, hjobs, fun due k hmem => ?_⟩, fun k hmem => ?_⟩
    · exact ((hset.timers _ rfl).mp hmem).resolve_right List.not_mem_nil
    · exact (hset.mem_ready rfl hmem).resolve_right List.not_mem_nil
  · refine ⟨⟨Nat.le_of_eq hends.now.symm, hnext, hjobs, fun due k hmem => ?_⟩, fun k hmem => ?_⟩
    · rw [hends.timers] at hmem
      exact absurd hmem (Array.not_mem_empty _)
    · rw [hends.ready] at hmem
      cases hmem

/-! ## Beats -/

end Session

open Session

namespace Loop

def pending (l : Loop) : List Turn := l.turns ++ l.session.ready

variable {l : Loop} {cs : List Connection} {marks : List Mark}

def connection? (l : Loop) (b : Beat) : List Connection := connections (l.entries b)

theorem connections_marks (now : Nat) (x : Option Mark) :
    connections ((x.toList.map Noted.mark).map (now, ·)) = [] := by
  cases x <;> rfl

theorem connection?_take {t : Turn} {rest : List Turn} (h : l.turns = t :: rest) :
    l.connection? .take = l.session.connection? t := by
  simp only [connection?, entries, noted, h, List.map_append, connections_append, connections_marks, List.nil_append]
  rfl

/-- **Beats keep processes attended.** -/
theorem attended_beat (hhistory : History marks l.session) (h : l.session.Attended cs l.pending) (b : Beat) :
    (l.beat b).session.Attended (cs ++ l.connection? b) (l.beat b).pending := by
  have hnone : l.session.Attended (cs ++ []) l.pending := by rwa [List.append_nil]
  have hspare : ∀ {l' : Loop}, l.session.Spares l'.session →
      (∀ n, .expire n ∈ l'.pending → .expire n ∈ l.pending) → l'.session.Attended (cs ++ []) l'.pending := by
    intro l' hspares hpending
    rw [List.append_nil]
    exact h.spare hspares hpending
  have hstays : ∀ {s' : Session}, l.session.now ≤ s'.now → s'.nextJob = l.session.nextJob →
      s'.jobs = l.session.jobs → (∀ x ∈ s'.timers.entries, x ∈ l.session.timers.entries) → l.session.Spares s' := by
    intro s' hnow hnext hjobs htimers
    refine ⟨hnow, Nat.le_of_eq hnext.symm, fun n j' hj' => .inl ⟨j', ?_, .refl _⟩, fun due n => htimers _⟩
    rwa [job?, hjobs] at hj'
  cases b with
  | receive m =>
    rw [connection?, entries, noted, connections_marks]
    obtain ⟨hspares, hready⟩ := spares_receive l.session m
    refine hspare hspares fun n hmem => ?_
    rcases List.mem_append.mp hmem with hmem | hmem
    · exact List.mem_append_left _ hmem
    · exact List.mem_append_right _ (hready n hmem)
  | surround script reply disk =>
    exact hspare (hstays (Nat.le_refl _) rfl rfl fun _ => id) fun _ => id
  | gather =>
    unfold beat
    cases hturns : l.turns with
    | nil =>
      refine hspare (hstays (Nat.le_refl _) rfl rfl fun _ => id) fun n hmem => ?_
      simpa [pending, hturns] using hmem
    | cons t rest => exact hnone
  | take =>
    cases hturns : l.turns with
    | nil =>
      simp only [connection?, entries, noted, beat, hturns]
      exact hnone
    | cons t rest =>
      rw [connection?_take hturns]
      simp only [beat, hturns]
      rw [pending, hturns] at h
      exact attended_take hhistory h
  | drop =>
    unfold beat
    cases ht : l.session.timers.first? with
    | none => exact hnone
    | some t =>
      dsimp only
      split
      · exact hspare (hstays (Nat.le_refl _) rfl rfl fun x hx => (TimerHeap.mem_of_pop ht).mpr (.inr hx)) fun _ => id
      · exact hnone
  | fire =>
    unfold beat
    cases ht : l.session.timers.first? with
    | none => exact hnone
    | some t =>
      dsimp only
      split
      · next hdue =>
        have hfired : l.session.Attended cs (l.pending ++ [t.event]) := by
          refine { h with turns := fun n hmem => ?_ }
          rcases List.mem_append.mp hmem with hmem | hmem
          · exact h.turns n hmem
          · have hevent : t = ⟨t.due, .expire n⟩ := by rw [List.mem_singleton.mp hmem]
            obtain ⟨c, hc, hjob, hdeadline⟩ := h.timers t.due n (hevent ▸ (TimerHeap.mem_of_pop ht).mpr (.inl rfl))
            exact ⟨c, hc, hjob, Connection.isOver_of_isDue (hdeadline ▸ hdue)⟩
        have hspares : l.session.Spares { l.session with timers := l.session.timers.pop } :=
          hstays (Nat.le_refl _) rfl rfl fun x hx => (TimerHeap.mem_of_pop ht).mpr (.inr hx)
        change Attended (cs ++ []) _ _
        rw [List.append_nil]
        refine hfired.spare ⟨hspares.now, hspares.nextJob, hspares.jobs, hspares.timers⟩ fun n hmem => ?_
        rwa [pending, List.append_assoc]
      · exact hnone
  | pass time =>
    exact hspare (hstays (Nat.le_max_left _ _) rfl rfl fun _ => id) fun _ => id

/-- A timer for which a request waits has something to do. -/
private theorem not_stale_of_heeds {s : Session} {n : Nat} {j : Job} {t : Turn} (hj : s.job? n = some j)
    (h : j.Heeds t) : s.isStale t = false := by
  obtain rfl := number_of_job? hj
  unfold Job.Heeds at h
  split at h
  · rw [h]; rfl
  · next hphase _ => rcases h with rfl | rfl <;> simp [isStale, hj, hphase]
  · next hphase _ => rcases h with rfl | rfl <;> simp [isStale, hj, hphase]
  · next hphase _ => rcases h with rfl | rfl <;> simp [isStale, hj, hphase]
  · exact h.elim

/-- **Beats leave requests in time**, as long as none of them is late. -/
theorem prompt_beat (hattended : l.session.Attended cs l.pending) (h : l.session.Prompt cs l.pending) {b : Beat}
    (hbeat : l.OnTime b) (hgoing : (l.beat b).session.status ≠ .ended) :
    (l.beat b).session.Prompt (cs ++ l.connection? b) (l.beat b).pending := by
  have hnone : l.session.Prompt (cs ++ []) l.pending := by rwa [List.append_nil]
  have hstays : ∀ {s' : Session} {pending' : List Turn}, s'.jobs = l.session.jobs → s'.now = l.session.now →
      (∀ (x : Timer Turn) (n : Nat) (j : Job), l.session.job? n = some j → j.Heeds x.event →
        x ∈ l.session.timers.entries → x ∈ s'.timers.entries ∨ x.event ∈ pending') →
      (∀ x, x ∈ l.pending → x ∈ pending') → s'.Prompt (cs ++ []) pending' := by
    intro s' pending' hjobs hnow htimers hpending
    rw [List.append_nil]
    intro c hc j hj
    have hbefore : l.session.job? c.job = some j := by rwa [job?, hjobs] at hj
    exact (h c hc j hbefore).frame hnow (fun x _ => htimers x c.job j hbefore) fun x _ => hpending x
  cases b with
  | receive m =>
    rw [connection?, entries, noted, connections_marks, List.append_nil]
    rcases alarms_receive l.session m with hset | hends
    · intro c hc j' hj'
      obtain ⟨-, hold, -⟩ := hattended.past c hc
      cases hj : l.session.job? c.job with
      | none => exact absurd ((hears_receive l.session m).new _ _ hj hj').1 (Nat.ne_of_lt hold)
      | some j =>
        have hstill : (l.session.receive m).InTime (l.turns ++ (l.session.receive m).ready) c j := by
          refine (h c hc j hj).frame hset.now
            (fun x hx _ hmem => .inl ((hset.timers x hx).mpr (.inl hmem))) fun x _ hmem => ?_
          obtain ⟨new, hready, -⟩ := hset.ready
          rw [hready, ← List.append_assoc]
          exact List.mem_append_left _ hmem
        obtain rfl := Option.some.inj (((hears_receive l.session m).jobs _ _ hj).symm.trans hj')
        by_cases hmem : c.job ∈ l.session.withdrawn m
        · simp only [hmem, decide_true, Bool.or_true]
          refine hstill.withdraw fun run steps hphase => List.mem_append_right _ ?_
          rw [number_of_job? hj]
          exact advance_of_withdrawn hj hphase hmem
        · simp only [hmem, decide_false, Bool.or_false]
          exact hstill
    · exact absurd hends.status hgoing
  | surround script reply disk => exact hstays rfl rfl (fun x _ _ _ _ hmem => .inl hmem) fun x hmem => hmem
  | gather =>
    unfold beat
    cases hturns : l.turns with
    | nil =>
      refine hstays rfl rfl (fun x _ _ _ _ hmem => .inl hmem) fun x hmem => ?_
      simpa [pending, hturns] using hmem
    | cons t rest => exact hnone
  | take =>
    cases hturns : l.turns with
    | nil =>
      simp only [connection?, entries, noted, beat, hturns]
      exact hnone
    | cons t rest =>
      rw [connection?_take hturns]
      simp only [beat, hturns]
      rw [pending, hturns] at h hattended
      exact prompt_take hattended h
  | drop =>
    unfold beat
    cases ht : l.session.timers.first? with
    | none => exact hnone
    | some t =>
      dsimp only
      split
      · next hstale =>
        refine hstays rfl rfl (fun x n j hj hx hmem => ?_) fun x hmem => hmem
        refine .inl (((TimerHeap.mem_of_pop ht).mp hmem).resolve_left ?_)
        rintro rfl
        exact absurd hstale (by simp [not_stale_of_heeds hj hx])
      · exact hnone
  | fire =>
    unfold beat
    cases ht : l.session.timers.first? with
    | none => exact hnone
    | some t =>
      dsimp only
      split
      · refine hstays rfl rfl (fun x n j hj hx hmem => ?_) fun x hmem => ?_
        · refine ((TimerHeap.mem_of_pop ht).mp hmem).symm.imp_right ?_
          rintro rfl
          exact List.mem_append_right _ (List.mem_append_right _ (List.mem_singleton.mpr rfl))
        · rw [pending, enqueue, ← List.append_assoc]
          exact List.mem_append_left _ hmem
      · exact hnone
  | pass time =>
    obtain ⟨hturns, hready, hdue⟩ := hbeat
    change Prompt _ (cs ++ []) _
    rw [List.append_nil]
    intro c hc j hj
    have hbefore := h c hc j hj
    have hpending : l.pending = [] := by rw [pending, hturns, hready, List.append_nil]
    rw [hpending] at hbefore
    have hunheeded : ¬ j.Heeds (.advance j.number) := fun hheeds => absurd (hbefore.turn hheeds) List.not_mem_nil
    have halarm : j.Heeds (.expire j.number) → ⟨c.deadline, .expire j.number⟩ ∈ l.session.timers.entries :=
      fun hheeds => (hbefore.alarm hheeds).resolve_right List.not_mem_nil
    refine ⟨fun hconnected => ?_, fun hheeds => absurd hheeds hunheeded, fun hheeds => .inl (halarm hheeds),
      fun finish hfinish hout => ?_⟩
    · have hgoing : j.cancelled = false := by
        by_contra hcancelled
        refine hunheeded (j.heeds_advance_iff.mpr ?_)
        cases hphase : j.phase with
        | playing run steps => exact .inl ⟨_, _, rfl⟩
        | pausing run steps => exact .inr ⟨⟨_, _, rfl⟩, by simpa using hcancelled⟩
        | _ => simp [hphase, Phase.connected?] at hconnected
      have hdeadline := hdue _ (halarm (j.heeds_expire_iff.mpr ⟨hconnected, hgoing⟩))
      exact max_le (hbefore.limit hconnected) (hdeadline.trans (le_max_right _ _))
    · have hkeeps := hbefore.steps finish hfinish hout
      unfold KeepsTime at hkeeps ⊢
      cases hphase : j.phase with
      | playing run steps => exact absurd (j.heeds_advance_iff.mpr (.inl ⟨_, _, hphase⟩)) hunheeded
      | pausing run steps =>
        rw [hphase] at hkeeps
        obtain ⟨due, hmem, hends⟩ := hkeeps.resolve_right fun hwoken => absurd hwoken.1 List.not_mem_nil
        refine .inl ⟨due, hmem, ?_⟩
        have hmax : max (max l.session.now time) due = max l.session.now due := by
          rw [max_assoc, max_eq_right (hdue _ hmem)]
        rwa [beat, passTo, hmax]
      | _ => trivial

end Loop

end FormatServer
