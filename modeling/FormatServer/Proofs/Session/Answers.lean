import FormatServer.Proofs.Session.Arrivals
import FormatServer.Proofs.Session.Queue
import FormatServer.Proofs.Session.Said

/-!
Answers of requests. What a client is told of a request in a run of a session is nothing until the request ends
(`told_run`); then, if it ends with a formatting error, an entry of the log, and at last one response. With an
identifier of its own a request gets all responses to that identifier (`filter_trace`). Main statement:
`requests_answered_once`.
-/

namespace FormatServer

open Session

/-! ## What tells of an end -/

namespace SessionEvent

/-- A response, or an error of the log. -/
def tells : SessionEvent → Bool
  | .sent (.response _ _) | .sent (.log .error _) => true
  | _ => false

def answersTo (id : RequestId) : SessionEvent → Bool
  | .sent (.response id' _) => id' = id
  | _ => false

end SessionEvent

def told (events : List SessionEvent) : List SessionEvent := events.filter SessionEvent.tells

@[simp] theorem told_nil : told [] = [] := rfl

@[simp] theorem told_append (a b : List SessionEvent) : told (a ++ b) = told a ++ told b :=
  List.filter_append a b

@[simp] theorem told_of_errorless {events : List RunEvent} (h : Errorless events) :
    told (events.map eventOf) = [] := by
  rw [told, List.filter_eq_nil_iff]
  intro e he
  obtain ⟨event, hevent, rfl⟩ := List.mem_map.mp he
  cases event with
  | logged level text =>
    cases level with
    | error => exact absurd hevent (h text)
    | _ => simp [eventOf, SessionEvent.tells]
  | _ => simp [eventOf, SessionEvent.tells]

@[simp] theorem told_report (c : Conclusion) : told c.report = c.report := by
  cases c <;> rfl

/-- The process of a request is told to end for a withdrawal only if the request was withdrawn. -/
def Job.Fair (j : Job) : Prop :=
  ∀ run why turns, j.phase = .ending run why turns → why ≠ .expired → j.cancelled = true

theorem Job.Fair.treats {s : Session} {j j' : Job} {x : Move} {events : List SessionEvent}
    (h : j.Fair) (htreats : s.Treats j x (some j') events) : j'.Fair := by
  intro run why turns hphase hwhy
  cases htreats with
  | spares _ _ hstays => exact hstays (h run why turns hphase hwhy)
  | buries hphase' =>
    obtain ⟨rfl, rfl, -⟩ := Phase.ending.inj hphase
    exact h _ _ _ hphase' hwhy
  | dismisses _ htells =>
    obtain ⟨rfl, rfl, -⟩ := Phase.ending.inj hphase
    cases htells with
    | expired => exact absurd rfl hwhy
    | withdrawn hcancelled | unconnected hcancelled => exact hcancelled
  | @starts _ _ run' steps turns' =>
    have hgoing := going?_firstPhase run' steps turns'
    rw [show Job.firstPhase run' steps turns' = _ from hphase] at hgoing
    cases hgoing
  | plays _ hp =>
    dsimp only at hphase
    rw [hphase] at hp
    cases hp
  | asks | hears | ends => cases hphase

namespace Session

variable {s : Session} {j : Job} {n : Nat} {x : Move} {marks : List Mark}

/-- A request ends as withdrawn only if it was. -/
theorem Concludes.cancelled {t : Turn} {c : Conclusion} (h : s.Concludes j t c) (hfair : j.Fair)
    (hc : c = .withdrawn) : j.cancelled = true := by
  have hfarewell : ∀ {run : Run} {why : Farewell}, Conclusion.ofFarewell run why = .withdrawn →
      why ≠ .expired := by
    rintro run why hwhy rfl
    cases hwhy
  have houtcome : ∀ o : Outcome, Conclusion.ofOutcome o ≠ .withdrawn := by
    intro o
    cases o <;> simp [Conclusion.ofOutcome]
  cases h with
  | withdrawn hcancelled | deserted _ hcancelled => exact hcancelled
  | buried hphase => exact hfair _ _ _ hphase (hfarewell hc)
  | told htells =>
    cases htells with
    | expired => exact absurd rfl (hfarewell hc)
    | withdrawn hcancelled | unconnected hcancelled => exact hcancelled
  | spared | unstarted | exited | overran => exact absurd hc (houtcome _)
  | noWorkspace | notOpen | byClient | invalid | unexamined => cases hc

/-! ## One request -/

theorem heard_append (s : Session) (n : Nat) (a b : List Move) :
    s.heard n (a ++ b) = s.heard n a ++ (s.run a).heard n b := by
  induction a generalizing s with
  | nil => rfl
  | cons x rest ih =>
    rw [List.cons_append, heard, heard, ih, List.append_assoc]
    rfl

/-- What is heard of a request is a part of all that is said, in the same order. -/
theorem heard_sublist (s : Session) (n : Nat) (moves : List Move) :
    (s.heard n moves).Sublist ((s.run moves).since s) := by
  induction moves generalizing s with
  | nil => exact List.nil_sublist _
  | cons x rest ih =>
    rw [heard, since_cons]
    refine List.Sublist.append ?_ (ih (s.act x))
    rw [heardOf]
    split
    · exact List.Sublist.refl _
    · exact List.nil_sublist _

/-- What is said in the turns of a request alone is heard of it. -/
theorem filter_since {p : SessionEvent → Bool} {moves : List Move}
    (h : ∀ earlier x later, moves = earlier ++ x :: later →
      ∀ e ∈ ((s.run earlier).act x).since (s.run earlier), p e = true → x.job? = some n) :
    ((s.run moves).since s).filter p = (s.heard n moves).filter p := by
  induction moves generalizing s with
  | nil => simp [heard, since, run]
  | cons x rest ih =>
    have hfirst : ((s.act x).since s).filter p = (s.heardOf n x).filter p := by
      rw [heardOf]
      split
      · rfl
      · next hx =>
        rw [List.filter_nil, List.filter_eq_nil_iff]
        exact fun e he hp => hx (h [] x rest rfl e he hp)
    have hrest := ih (s := s.act x) fun earlier y later hsplit =>
      h (x :: earlier) y later (by rw [hsplit, List.cons_append])
    rw [since_cons, heard, List.filter_append, List.filter_append, hfirst, hrest]

/-- A request ends in a turn of a run, with the conclusion that its state allows there. It ends as withdrawn only if
it was. -/
def EndsIn (s : Session) (n : Nat) (moves : List Move) (c : Conclusion) : Prop :=
  ∃ earlier t later j, moves = earlier ++ .turn t :: later ∧ (s.run earlier).job? n = some j ∧
    (s.run earlier).Concludes j t c ∧ (c = .withdrawn → j.cancelled = true)

inductive Tells (s : Session) (n : Nat) (id : RequestId) (moves : List Move) :
    List SessionEvent → Prop where
  /-- nothing, as long as the request is under way -/
  | underway {j : Job} (hj : (s.run moves).job? n = some j) (hgoing : ∀ r, j.phase ≠ .done r) :
      Tells s n id moves []
  /-- it has ended, and its response is to be sent -/
  | ended {j : Job} {c : Conclusion} (h : s.EndsIn n moves c) (hj : (s.run moves).job? n = some j)
      (hdone : j.phase = .done (c.response id)) : Tells s n id moves c.report
  | answered {c : Conclusion} (h : s.EndsIn n moves c) (hnone : (s.run moves).job? n = none) :
      Tells s n id moves (c.report ++ [.sent (.response id (c.response id))])

private theorem EndsIn.cons {moves : List Move} {c : Conclusion} (h : (s.act x).EndsIn n moves c) :
    s.EndsIn n (x :: moves) c := by
  obtain ⟨earlier, t, later, j, rfl, hj, hc, hwithdrawn⟩ := h
  exact ⟨x :: earlier, t, later, j, rfl, hj, hc, hwithdrawn⟩

private theorem Tells.cons {id : RequestId} {moves : List Move} {events : List SessionEvent}
    (h : (s.act x).Tells n id moves events) : s.Tells n id (x :: moves) events := by
  cases h with
  | underway hj hgoing => exact .underway hj hgoing
  | ended h hj hdone => exact .ended h.cons hj hdone
  | answered h hnone => exact .answered h.cons hnone

/-- A request that has ended is answered, or nothing happens to it. -/
private theorem done_of_treats {r : Response} {j' : Option Job} {events : List SessionEvent}
    (h : s.Treats j x j' events) (hdone : j.phase = .done r) :
    (∃ j₁, j' = some j₁ ∧ j₁.phase = .done r ∧ j₁.id = j.id ∧ events = []) ∨
      j' = none ∧ events = [.sent (.response j.id r)] := by
  cases h with
  | spares => exact .inl ⟨_, rfl, hdone, rfl, rfl⟩
  | asks _ _ hphase => rw [hdone] at hphase; cases hphase
  | hears hphase => rw [hdone] at hphase; cases hphase
  | starts _ _ hbegun => rw [Job.begun, hdone] at hbegun; cases hbegun
  | plays hrun => rw [hdone] at hrun; cases hrun
  | dismisses _ h => exact absurd hdone (not_done_of_going? h.going? r)
  | buries hphase => rw [hdone] at hphase; cases hphase
  | ends _ hgoing => exact absurd hdone (hgoing r)
  | leaves hphase =>
    obtain rfl := Phase.done.inj (hdone.symm.trans hphase)
    exact .inr ⟨rfl, rfl⟩

/-- **A request that has ended is answered once**, with the response it has ended with. -/
private theorem done_run {r : Response} (hj : s.job? n = some j) (hdone : j.phase = .done r)
    (hnext : n < s.nextJob) (moves : List Move) :
    (∃ j', (s.run moves).job? n = some j' ∧ j'.phase = .done r ∧ s.heard n moves = []) ∨
      (s.run moves).job? n = none ∧ s.heard n moves = [.sent (.response j.id r)] := by
  induction moves generalizing s j with
  | nil => exact .inl ⟨j, hj, hdone, rfl⟩
  | cons x rest ih =>
    have hnext' := Nat.lt_of_lt_of_le hnext (nextJob_le s x)
    rcases done_of_treats (treats_act hj x) hdone with ⟨j₁, hj₁, hdone₁, hid, hheard⟩ | ⟨hnone, hheard⟩
    · rw [heard, hheard, ← hid]
      exact ih hj₁ hdone₁ hnext'
    · obtain ⟨hrun, hrest⟩ := gone_run hnone hnext' rest
      exact .inr ⟨hrun, by rw [heard, hheard, hrest]; rfl⟩

/-- Nothing is told of a request in a move, unless it ends. -/
private theorem told_of_treats {j' : Option Job} {events : List SessionEvent}
    (h : s.Treats j x j' events) (hgoing : ∀ r, j.phase ≠ .done r) :
    (∃ j₁, j' = some j₁ ∧ (∀ r, j₁.phase ≠ .done r) ∧ j₁.id = j.id ∧ told events = []) ∨
      ∃ t c, x = .turn t ∧ s.Concludes j t c ∧
        j' = some { j with phase := .done (c.response j.id) } ∧ told events = c.report := by
  cases h with
  | spares => exact .inl ⟨_, rfl, hgoing, rfl, rfl⟩
  | asks => exact .inl ⟨_, rfl, by simp, rfl, rfl⟩
  | hears => exact .inl ⟨_, rfl, by simp, rfl, rfl⟩
  | starts steps turns =>
    refine .inl ⟨_, rfl, ?_, rfl, told_of_errorless (errorless_start _ _ _)⟩
    exact not_done_of_going? (j := { j with phase := _ }) (going?_firstPhase _ steps turns)
  | plays _ hp =>
    refine .inl ⟨_, rfl, ?_, rfl, told_of_errorless (errorless_outputEvents _)⟩
    exact not_done_of_going? (j := { j with phase := _ }) hp
  | dismisses => exact .inl ⟨_, rfl, by simp, rfl, told_of_errorless (errorless_signal _ _)⟩
  | buries => exact .inl ⟨_, rfl, by simp, rfl, rfl⟩
  | ends h _ herrorless =>
    refine .inr ⟨_, _, rfl, h, rfl, ?_⟩
    rw [told_append, told_of_errorless herrorless, told_report, List.nil_append]
  | leaves hphase => exact absurd hphase (hgoing _)

/-- **What is told of a request in a run.** -/
theorem told_run (hj : s.job? n = some j) (hgoing : ∀ r, j.phase ≠ .done r) (hfair : j.Fair)
    (hnext : n < s.nextJob) (moves : List Move) : s.Tells n j.id moves (told (s.heard n moves)) := by
  induction moves generalizing s j with
  | nil => exact .underway hj hgoing
  | cons x rest ih =>
    have hnext' := Nat.lt_of_lt_of_le hnext (nextJob_le s x)
    have htreats := treats_act hj x
    rw [heard, told_append]
    rcases told_of_treats htreats hgoing with
      ⟨j₁, hj₁, hgoing₁, hid, htold⟩ | ⟨t, c, rfl, hc, hj₁, htold⟩
    · rw [hj₁] at htreats
      rw [htold, ← hid, List.nil_append]
      exact (ih hj₁ hgoing₁ (hfair.treats htreats) hnext').cons
    · have hends : s.EndsIn n (.turn t :: rest) c :=
        ⟨[], t, rest, j, rfl, hj, hc, fun hwithdrawn => hc.cancelled hfair hwithdrawn⟩
      rcases done_run hj₁ rfl hnext' rest with ⟨j', hj', hdone, hrest⟩ | ⟨hnone, hrest⟩
      · rw [htold, hrest, told_nil, List.append_nil]
        exact .ended hends hj' hdone
      · rw [htold, hrest]
        exact .answered hends hnone

/-! ## Requests that are withdrawn -/

/-- The process of a request was told to end, and the request will be answered as withdrawn. -/
def Leaving (j : Job) : Prop :=
  ∃ run why turns, j.phase = .ending run why turns ∧ (why = .expired → j.cancelled = true)

private theorem not_going_of_leaving (h : Leaving j) (run : Run) : j.phase.going? ≠ some run := by
  obtain ⟨_, _, _, hphase, -⟩ := h
  rw [hphase]
  simp [Phase.going?]

private theorem withdrawn_of_leaving (h : Leaving j) {t : Turn} {c : Conclusion}
    (hc : s.Concludes j t c) : c = .withdrawn := by
  have hgoing := not_going_of_leaving h
  obtain ⟨run, why, turns, hphase, hcancelled⟩ := h
  have hbegun : j.begun = true := by rw [Job.begun, hphase]
  cases hc with
  | withdrawn | deserted => rfl
  | @buried run' why' hphase' hcancelled' =>
    obtain ⟨rfl, rfl, -⟩ := Phase.ending.inj (hphase.symm.trans hphase')
    cases why with
    | expired => exact absurd (hcancelled rfl) (by simp [hcancelled' rfl])
    | withdrawn | unconnected => rfl
  | told htells | spared htells => exact absurd htells.going? (hgoing _)
  | noWorkspace _ hnot => rw [hbegun] at hnot; cases hnot
  | unstarted _ hsettings => simp [settingsFor, hphase] at hsettings
  | overran hsteps =>
    rcases hsteps with ⟨-, -, hsteps⟩ | ⟨-, hsteps⟩ <;> rw [hphase] at hsteps <;> cases hsteps
  | notOpen _ hother | byClient _ hother | invalid _ hother | unexamined _ hother | exited hother =>
    rw [hphase] at hother
    cases hother

/-- A request that is leaving goes on to leave, or ends as withdrawn. -/
private theorem leaving_of_treats (h : Leaving j) {j' : Option Job} {events : List SessionEvent}
    (htreats : s.Treats j x j' events) :
    ∃ j₁, j' = some j₁ ∧ j₁.id = j.id ∧ told events = [] ∧
      (Leaving j₁ ∨ j₁.phase = .done (.error (.cancelled j.id))) := by
  have hgoing := not_going_of_leaving h
  have hends := @withdrawn_of_leaving s j h
  obtain ⟨run, why, turns, hphase, hcancelled⟩ := h
  cases htreats with
  | spares _ _ hstays =>
    exact ⟨_, rfl, rfl, rfl, .inl ⟨run, why, turns, hphase, fun hwhy => hstays (hcancelled hwhy)⟩⟩
  | buries hphase' =>
    obtain ⟨rfl, rfl, -⟩ := Phase.ending.inj (hphase.symm.trans hphase')
    exact ⟨_, rfl, rfl, rfl, .inl ⟨_, _, _, rfl, hcancelled⟩⟩
  | ends hc _ herrorless =>
    obtain rfl := hends hc
    exact ⟨_, rfl, rfl, by simp [told_of_errorless herrorless, Conclusion.report], .inr rfl⟩
  | plays hrun => exact absurd hrun (hgoing _)
  | dismisses _ htells => exact absurd htells.going? (hgoing _)
  | starts _ _ hbegun => simp [Job.begun, hphase] at hbegun
  | asks _ _ hother | hears hother | leaves hother =>
    rw [hphase] at hother
    cases hother

/-- **Of a request that is leaving no more is told than that it was withdrawn.** -/
private theorem told_of_leaving (hj : s.job? n = some j) (h : Leaving j) (hnext : n < s.nextJob)
    (moves : List Move) :
    told (s.heard n moves) <+: [.sent (.response j.id (.error (.cancelled j.id)))] := by
  induction moves generalizing s j with
  | nil => exact List.nil_prefix
  | cons x rest ih =>
    have hnext' := Nat.lt_of_lt_of_le hnext (nextJob_le s x)
    obtain ⟨j₁, hj₁, hid, htold, hleaving | hdone⟩ := leaving_of_treats h (treats_act hj x)
    · rw [heard, told_append, htold, List.nil_append, ← hid]
      exact ih hj₁ hleaving hnext'
    · rw [heard, told_append, htold, List.nil_append]
      rcases done_run hj₁ hdone hnext' rest with ⟨_, -, -, hrest⟩ | ⟨-, hrest⟩
      · rw [hrest]
        exact List.nil_prefix
      · rw [hrest, hid]
        exact List.prefix_rfl

/-- A request that is withdrawn is leaving after its next turn, unless its process has ended, or may not be told to
end. -/
private theorem leaves_of_withdrawn (hj : s.job? n = some j) (hcancelled : j.cancelled = true)
    (hopen : ∀ run, j.phase ≠ .closed run) (hgoing : ∀ r, j.phase ≠ .done r)
    (hkillable : ∀ run, j.awaits? = some run → run.process.killable = true) :
    ∃ j₁, (s.act (.turn (.advance n))).job? n = some j₁ ∧ j₁.id = j.id ∧
      (Leaving j₁ ∨ j₁.phase = .done (.error (.cancelled j.id))) := by
  obtain rfl := number_of_job? hj
  have hburies : ∀ (run : Run) (why : Farewell) (turns : Nat), why ≠ .expired →
      ∃ j₁, (j.buries run why s.disk turns).job = some j₁ ∧ j₁.id = j.id ∧
        (Leaving j₁ ∨ j₁.phase = .done (.error (.cancelled j.id))) := by
    intro run why turns hwhy
    cases turns with
    | succ turns => exact ⟨_, rfl, rfl, .inl ⟨run, why, turns, rfl, fun h => absurd h hwhy⟩⟩
    | zero =>
      cases why with
      | expired => exact absurd rfl hwhy
      | withdrawn | unconnected => exact ⟨_, rfl, rfl, .inr rfl⟩
  have hkills : ∀ (run : Run) (steps : List ScriptStep) (why : Farewell), j.awaits? = some run →
      why ≠ .expired → ∃ j₁, (j.kills run steps why s.disk).job = some j₁ ∧ j₁.id = j.id ∧
        (Leaving j₁ ∨ j₁.phase = .done (.error (.cancelled j.id))) := by
    intro run steps why hrun hwhy
    rw [Job.kills, if_pos (hkillable run hrun)]
    exact hburies run why _ hwhy
  cases hbegun : j.begun with
  | false =>
    have hgives : s.advance j = s.conclude j (.error (.cancelled j.id)) := by
      unfold Job.begun at hbegun
      unfold advance giveUp
      cases hphase : j.phase <;> simp_all
    refine ⟨{ j with phase := .done (.error (.cancelled j.id)) }, ?_, rfl, .inr rfl⟩
    rw [act, take_advance hj, hgives]
    exact (makes_proceed hj _).job
  | true =>
    have hmakes := makes_moved hj hbegun .advance
    rw [show (s.act (.turn (.advance j.number))).job? j.number = _ from hmakes.job, Job.moved,
      Job.advances]
    unfold Job.begun at hbegun
    cases hphase : j.phase with
    | accepted | asking | answered => simp [hphase] at hbegun
    | closed run => exact absurd hphase (hopen run)
    | done r => exact absurd hphase (hgoing r)
    | starting run steps turns =>
      simp only [hcancelled]
      exact hkills run steps .unconnected (by rw [Job.awaits?, hphase]) (by simp)
    | playing run steps | pausing run steps =>
      simp only [hcancelled]
      exact hkills run steps .withdrawn (by rw [Job.awaits?, hphase]) (by simp)
    | ending run why turns =>
      cases why with
      | expired =>
        simp only [hcancelled]
        exact ⟨_, rfl, rfl, .inr rfl⟩
      | withdrawn => exact hburies run .withdrawn turns (by simp)
      | unconnected => exact hburies run .unconnected turns (by simp)

/-- An end that is answered as a withdrawal is not reported. -/
private theorem report_of_cancelled {c : Conclusion} {id : RequestId}
    (h : c.response id = .error (.cancelled id)) : c.report = [] := by
  cases c with
  | failed e =>
    have hcode : e.code = -32800 := congrArg ResponseError.code (Response.error.inj h)
    unfold FormatError.code at hcode
    split at hcode <;> cases hcode
  | _ => rfl

/-- **Of a request that is withdrawn no more is told than a response that says so**, when its process has not
ended by its next turn. -/
private theorem told_of_withdrawn (hj : s.job? n = some j) (hgoing : ∀ r, j.phase ≠ .done r)
    (hfair : j.Fair) (hnext : n < s.nextJob) {earlier later : List Move} {j' : Job}
    (hj' : (s.run earlier).job? n = some j') (hcancelled : j'.cancelled = true)
    (hopen : ∀ run, j'.phase ≠ .closed run) (hgoing' : ∀ r, j'.phase ≠ .done r)
    (hkillable : ∀ run, j'.awaits? = some run → run.process.killable = true) :
    told (s.heard n (earlier ++ .turn (.advance n) :: later)) <+:
      [.sent (.response j.id (.error (.cancelled j.id)))] := by
  have hid := same_run hj hnext hj'
  have hbefore : told (s.heard n earlier) = [] := by
    have htells := told_run hj hgoing hfair hnext earlier
    generalize told (s.heard n earlier) = events at htells
    cases htells with
    | underway => rfl
    | ended _ hj₁ hdone =>
      obtain rfl := Option.some.inj (hj'.symm.trans hj₁)
      exact absurd hdone (hgoing' _)
    | answered _ hnone => rw [hj'] at hnone; cases hnone
  obtain ⟨j₁, hj₁, hid₁, hends⟩ := leaves_of_withdrawn hj' hcancelled hopen hgoing' hkillable
  have hturn : told ((s.run earlier).heardOf n (.turn (.advance n))) = [] := by
    rcases told_of_treats (treats_act hj' (.turn (.advance n))) hgoing' with
      ⟨_, -, -, -, htold⟩ | ⟨t, c, -, -, hc, htold⟩
    · exact htold
    · rw [htold]
      obtain rfl := Option.some.inj (hc.symm.trans hj₁)
      rcases hends with ⟨_, _, _, hphase, -⟩ | hphase
      · cases hphase
      · exact report_of_cancelled (Phase.done.inj hphase)
  have hnext' : n < ((s.run earlier).act (.turn (.advance n))).nextJob :=
    Nat.lt_of_lt_of_le (Nat.lt_of_lt_of_le hnext (nextJob_le_run s earlier)) (nextJob_le _ _)
  rw [heard_append, heard, told_append, told_append, hbefore, hturn, List.nil_append, List.nil_append,
    ← hid, ← hid₁]
  rcases hends with hleaving | hdone
  · exact told_of_leaving hj₁ hleaving hnext' later
  · rw [← hid₁] at hdone
    rcases done_run hj₁ hdone hnext' later with ⟨_, -, -, hrest⟩ | ⟨-, hrest⟩
    · rw [hrest]
      exact List.nil_prefix
    · rw [hrest]
      exact List.prefix_rfl

/-! ## Identifiers -/

section

variable {overrides : Value} {directory : Path} {pids : Nat → Nat} {disk : Disk} {first : Session}
  (hstart : Session.start overrides directory pids disk = .ok first)

include hstart

/-- A response is sent to a call that is answered at once, or in the turn of a request that came with one. -/
private theorem answerer {earlier : List Move} {id : RequestId} {e : SessionEvent}
    (he : e ∈ ((first.run earlier).act x).since (first.run earlier)) (hid : e.answersTo id = true) :
    (∃ c, x = .receive (.ok (.call id c)) ∧ ∀ uri range, c ≠ .format uri range) ∨
      ∃ a b uri range, earlier = a ++ .receive (.ok (.call id (.format uri range))) :: b ∧
        x = .turn (.advance (first.run a).nextJob) := by
  have hsays := says_act (first.run earlier) x e he
  cases hsays with
  | foreign h =>
    cases h with
    | response r hc =>
      obtain rfl := of_decide_eq_true hid
      exact .inl ⟨_, rfl, hc⟩
    | log x hlevel text => cases hid
    | _ => cases hid
  | answers hj hphase =>
    obtain rfl := of_decide_eq_true hid
    obtain ⟨a, b, hsplit, hn⟩ := arrived_run hstart hj
    exact .inr ⟨a, b, _, _, hsplit, by rw [hn]⟩
  | _ => cases hid

/-- Nothing has been answered to an identifier that no call has had. -/
private theorem unanswered {before : List Move} {id : RequestId}
    (hbefore : ∀ c, .receive (.ok (.call id c)) ∉ before) :
    (first.run before).trace.filter (·.answersTo id) = [] := by
  rw [List.filter_eq_nil_iff]
  intro e he hid
  obtain ⟨earlier, x, later, rfl, hx⟩ := mem_trace hstart he
  rcases answerer hstart hx hid with ⟨c, rfl, -⟩ | ⟨a, b, uri, range, rfl, -⟩
  · exact hbefore c (List.mem_append_right _ List.mem_cons_self)
  · exact hbefore _ (List.mem_append_left _ (List.mem_append_right _ List.mem_cons_self))

/-- **With an identifier of its own a request gets all responses to that identifier.** -/
private theorem filter_trace {before after : List Move} {id : RequestId} {uri : String}
    {range : Option TextRange} (hrunning : (first.run before).status = .running)
    (hbefore : ∀ c, .receive (.ok (.call id c)) ∉ before)
    (hafter : ∀ c, .receive (.ok (.call id c)) ∉ after) :
    let s := (first.run before).act (.receive (.ok (.call id (.format uri range))))
    (s.run after).trace.filter (·.answersTo id) =
      (s.heard (first.run before).nextJob after).filter (·.answersTo id) := by
  intro s
  have haccept : s = (first.run before).accept id uri range :=
    receive_call hrunning id (.format uri range)
  have hquiet : s.trace.filter (·.answersTo id) = [] := by
    rw [haccept]
    exact unanswered hstart hbefore
  rw [trace_run, List.filter_append, hquiet, List.nil_append]
  refine filter_since fun earlier x later hsplit e he hid => ?_
  have hrun : s.run earlier =
      first.run (before ++ .receive (.ok (.call id (.format uri range))) :: earlier) := by
    rw [run_append]
    rfl
  rw [hrun] at he
  rcases answerer hstart he hid with ⟨c, rfl, -⟩ | ⟨a, b, u, r, hcalls, rfl⟩
  · exact absurd (hsplit ▸ List.mem_append_right _ List.mem_cons_self) (hafter c)
  · have hlater : Move.receive (.ok (.call id (.format u r))) ∉ earlier := fun hmem =>
      hafter _ (hsplit ▸ List.mem_append_left _ hmem)
    rw [split_unique hcalls (hbefore _) hlater]
    rfl

end

end Session

/-- **Every formatting request is answered once, and its error is logged.** A formatting call arrives at a session
that is running. Whatever happens afterwards:
nothing is told of the request until it ends; then a formatting error is logged, and no other end; and at last there
is one response, the edits, the withdrawal, the error that was logged or another one, as the request has ended;
all this is said in this order;
a request that is withdrawn, before its process is started, while its output is not connected, while it is under way
or while its end is awaited, is answered as withdrawn, when its process has not ended by its next turn and may be told
to end;
all responses to its identifier are its own, when no other call has that identifier;
and when no turn is left, a request that has ended has been answered. -/
theorem requests_answered_once {overrides : Value} {directory : Path} {pids : Nat → Nat} {disk : Disk}
    {first : Session} (hstart : Session.start overrides directory pids disk = .ok first)
    (before : List Move) (hrunning : (first.run before).status = .running) (id : RequestId) (uri : String)
    (range : Option TextRange) (after : List Move) :
    let s := (first.run before).act (.receive (.ok (.call id (.format uri range))))
    let n := (first.run before).nextJob
    let s' := s.run after
    s.Tells n id after (told (s.heard n after)) ∧
    (s.heard n after).Sublist (s'.since s) ∧
    (∀ earlier later j, after = earlier ++ .turn (.advance n) :: later →
      (s.run earlier).job? n = some j → j.cancelled = true → (∀ run, j.phase ≠ .closed run) →
      (∀ r, j.phase ≠ .done r) → (∀ run, j.awaits? = some run → run.process.killable = true) →
      told (s.heard n after) <+: [.sent (.response id (.error (.cancelled id)))]) ∧
    ((∀ c, .receive (.ok (.call id c)) ∉ before ++ after) →
      s'.trace.filter (·.answersTo id) = (s.heard n after).filter (·.answersTo id)) ∧
    ∀ es, Course es [] s' → s'.ready = [] → s'.status ≠ .ended →
      ∀ j, s'.job? n = some j → ∀ r, j.phase ≠ .done r := by
  intro s n s'
  have hhistory := (History.start hstart).run before
  have hnone : (first.run before).job? n = none := by
    cases hj : (first.run before).job? n with
    | none => rfl
    | some j => exact absurd (lt_nextJob hhistory hj) (Nat.lt_irrefl _)
  have hj : s.job? n = some { number := n, id, uri, range } := job?_arrival hrunning hnone id uri range
  have hgoing : ∀ r, Phase.accepted ≠ .done r := by simp
  have hnext : n < s.nextJob := lt_nextJob (hhistory.move _) hj
  have hfair : Job.Fair { number := n, id, uri, range } := fun _ _ _ hphase => absurd hphase (by simp)
  refine ⟨told_run hj hgoing hfair hnext after, heard_sublist s n after, ?withdrawn, ?identifier, ?rest⟩
  case withdrawn =>
    rintro earlier later j rfl hj' hcancelled hopen hgoing' hkillable
    exact told_of_withdrawn hj hgoing hfair hnext hj' hcancelled hopen hgoing' hkillable
  case identifier =>
    intro hunused
    simp only [List.mem_append, not_or] at hunused
    exact filter_trace hstart hrunning (fun c => (hunused c).1) fun c => (hunused c).2
  case rest => exact fun es hcourse hrest hstatus j hj' => hcourse.answered hrest hstatus hj'

/-- A request for a document that is not open is told of twice, in the log and in its response. -/
theorem requests_answered_once_not_open :
    let disk : Disk := ⟨[([['t', 'm', 'p']], .directory)]⟩
    let first : Session := { directory := .ofString "/tmp", disk, cache := {} }
    let before : List Move := [
      .receive (.ok (.call (.number 1) (.handshake ⟨none, [], [], false, false⟩)))]
    let s := (first.run before).act (.receive (.ok (.call (.number 2) (.format "file:///a.src" none))))
    let text := "Document not open: file:///a.src"
    Session.start .null first.directory id disk = .ok first ∧ (first.run before).status = .running ∧
      s.Tells 0 (.number 2) [.turn (.advance 0), .turn (.advance 0)]
        [.sent (.log .error text), .sent (.response (.number 2) (.error ⟨-32602, text, none⟩))] := by
  intro disk first before s text
  have hstart : Session.start .null first.directory id disk = .ok first := rfl
  obtain ⟨htells, -⟩ := requests_answered_once hstart before rfl (.number 2) "file:///a.src" none
    [.turn (.advance 0), .turn (.advance 0)]
  exact ⟨hstart, rfl, htells⟩

end FormatServer
