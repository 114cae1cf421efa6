import Mathlib.Data.List.Pairwise
import FormatServer.Proofs.Session.Deadlines
import FormatServer.Proofs.Session.OpenDocuments
import FormatServer.Proofs.Session.Processes

/-!
How long processes live. Every process that was started is awaited by one request, or its request has parted with it;
and the time of a process is up when it is told to end for that (`Overseen`). In a loop that is never late no process
is awaited past its deadline, and one that comes to its end by itself before is not told to end for its time
(`Timely`).
-/

namespace FormatServer

open Session

/-- Why a process was told to end, or was to be told. -/
def Ending.why? : Ending → Option Farewell
  | .told why | .spared why => some why
  | .exited | .overran => none

theorem Process.why?_ending (p : Process) (why : Farewell) : (p.ending why).why? = some why := by
  unfold ending
  split <;> rfl

theorem Ending.why?_of_signal? {how : Ending} (h : how.signal? = none) : how.why? = none := by
  cases how with
  | told why => cases h
  | spared why => cases h
  | _ => rfl

theorem Phase.connected_of_pid {j : Job} {pid : Nat} (hpid : j.pid? = some pid) (hpast : j.phase.past = true) :
    ∃ run steps, j.phase.connected? = some (run, steps) ∧ run.process.pid = pid := by
  obtain ⟨run, hrun, rfl⟩ := Option.map_eq_some_iff.mp hpid
  unfold Job.awaits? at hrun
  cases hphase : j.phase with
  | starting run' steps turns => simp [hphase, past] at hpast
  | playing run' steps | pausing run' steps =>
    rw [hphase] at hrun
    obtain rfl := Option.some.inj hrun
    exact ⟨run', steps, rfl, rfl⟩
  | _ =>
    rw [hphase] at hrun
    cases hrun

namespace Session

variable {s : Session} {marks : List Mark} {m : Move} {n n' pid : Nat} {j j' : Job}

theorem mem_awaited (hj : s.job? n = some j) (hpid : j.pid? = some pid) : pid ∈ s.awaited :=
  List.mem_filterMap.mpr ⟨j, List.mem_of_find?_eq_some hj, hpid⟩

/-- No process is awaited by two requests. -/
theorem number_of_pid (h : History marks s) (hfresh : Function.Injective s.pids) (hj : s.job? n = some j)
    (hj' : s.job? n' = some j') (hpid : j.pid? = some pid) (hpid' : j'.pid? = some pid) : n = n' := by
  have hapart := (List.nodup_append.mp (h.apart hfresh)).1
  rw [awaited, List.Nodup, List.pairwise_filterMap] at hapart
  by_cases hsame : j = j'
  · rw [← number_of_job? hj, ← number_of_job? hj', hsame]
  · have hsymm : Std.Symm fun j j' : Job => ∀ b, j.pid? = some b → ∀ b', j'.pid? = some b' → b ≠ b' :=
      ⟨fun _ _ hne b hb b' hb' => (hne b' hb' b hb).symm⟩
    have hne := hapart.forall (List.mem_of_find?_eq_some hj) (List.mem_of_find?_eq_some hj') hsame
    exact absurd rfl (hne pid hpid pid hpid')

/-- No request has parted with a process that is awaited. -/
theorem not_ended (h : History marks s) (hfresh : Function.Injective s.pids) (hj : s.job? n = some j)
    (hpid : j.pid? = some pid) (how : Ending) : (pid, how) ∉ endings marks := fun hended =>
  (List.nodup_append.mp (h.apart hfresh)).2.2 pid (mem_awaited hj hpid) pid (List.mem_map_of_mem hended) rfl

/-- **A request keeps its process in a move, or parts with it.** -/
theorem keeps_or_parts (h : History marks s) (m : Move) (hj : s.job? n = some j) (hpid : j.pid? = some pid) :
    (∃ j', (s.act m).job? n = some j' ∧ j'.pid? = some pid) ∨ ∃ how, s.observe m = some (.ended pid how) := by
  obtain rfl := number_of_job? hj
  obtain ⟨run, hrun, rfl⟩ := Option.map_eq_some_iff.mp hpid
  have htask : ⟨j.number, j.uri, .running run.process.pid run.request.settings⟩ ∈ s.work.tasks := by
    rw [← standing_of_awaits hrun]
    exact List.mem_map_of_mem (List.mem_of_find?_eq_some hj)
  have hdistinct := (h.move m).numbered.distinct
  refine ((work_act h.numbered.distinct m).keeps_or_parts h.numbered.distinct htask).imp_left fun hkept => ?_
  obtain ⟨j₁, hj₁, htask₁⟩ := List.mem_map.mp hkept
  have hfound : ((s.act m).job? j.number).isSome = true :=
    List.find?_isSome.mpr ⟨j₁, hj₁, decide_eq_true (congrArg Task.number htask₁)⟩
  obtain ⟨j', hj'⟩ := Option.isSome_iff_exists.mp hfound
  refine ⟨j', hj', ?_⟩
  have hsame := List.inj_on_of_nodup_map hdistinct (List.mem_map_of_mem (List.mem_of_find?_eq_some hj')) hkept
    (number_of_job? hj')
  rw [← j'.pid?_task, hsame]
  rfl

end Session

namespace Loop

variable {l : Loop} {log : List (Nat × Noted)} {cs : List Connection} {b : Beat} {pid : Nat} {how : Ending}

/-! ## Never early -/

/-- A session has come so far, and this was noted of it. -/
structure Overseen (log : List (Nat × Noted)) (l : Loop) : Prop where
  history : History (marksOf log) l.session
  fresh : Function.Injective l.session.pids
  attended : l.session.Attended (connections log) l.pending
  owned : ∀ c ∈ connections log, (∃ j, l.session.job? c.job = some j ∧ j.pid? = some c.pid) ∨
    ∃ how, (c.pid, how) ∈ endings (marksOf log)
  distinct : ∀ c ∈ connections log, ∀ c' ∈ connections log, c.pid = c'.pid → c = c'
  connected : ∀ c ∈ connections log, ∀ how, (c.pid, how) ∈ endings (marksOf log) → how.why? ≠ some .unconnected
  early : ∀ time pid how, (time, .mark (.ended pid how)) ∈ log → how.why? = some .expired →
    ∃ c ∈ connections log, c.pid = pid ∧ c.isOver time = true

/-- The process of a new connection is awaited. -/
private theorem awaited_of_connection {c : Connection} (hc : c ∈ l.connection? b) :
    ∃ j, (l.beat b).session.job? c.job = some j ∧ j.pid? = some c.pid := by
  cases b with
  | take =>
    cases hturns : l.turns with
    | nil =>
      simp only [connection?, entries, noted, hturns] at hc
      cases hc
    | cons t rest =>
      rw [connection?_take hturns] at hc
      obtain ⟨n, run, steps, rfl, rfl, -, hafter⟩ := eq_of_mem_connection? hc
      obtain ⟨j, hj, hconnected⟩ := Option.bind_eq_some_iff.mp hafter
      refine ⟨j, by simpa only [beat, hturns] using hj, ?_⟩
      unfold Job.pid? Job.awaits?
      cases hphase : j.phase with
      | playing | pausing =>
        rw [hphase] at hconnected
        obtain ⟨rfl, rfl⟩ := Prod.mk.inj (Option.some.inj hconnected)
        rfl
      | _ =>
        rw [hphase] at hconnected
        cases hconnected
  | receive m =>
    rw [connection?, entries, noted, connections_marks] at hc
    cases hc
  | _ => cases hc

/-- A request that is observed to part with its process takes a step with it, or tells it to end. -/
private theorem observe_of_noted {x : Mark} (h : .mark x ∈ l.noted b) :
    ∃ m, l.session.observe m = some x ∧ ∀ t, m = .turn t → t ∈ l.turns := by
  obtain ⟨m, -, hmarks, hturns⟩ := l.exists_move b
  exact ⟨m, Option.mem_toList.mp (hmarks ▸ List.mem_filterMap.mpr ⟨_, List.mem_map_of_mem h, rfl⟩), hturns⟩

/-- A request parts with its process for its time only when its time is up. -/
private theorem over_of_expired (h : l.session.Attended cs l.pending) (hmem : .mark (.ended pid how) ∈ l.noted b)
    (hwhy : how.why? = some .expired) :
    ∃ c ∈ cs, c.pid = pid ∧ c.isOver l.session.now = true ∧
      ∃ j, l.session.job? c.job = some j ∧ j.phase.connected?.isSome = true := by
  obtain ⟨m, hobserve, hturns⟩ := observe_of_noted hmem
  rcases parts_cases hobserve with ⟨hnone, -⟩ | ⟨why, run, ⟨n, j, rfl, hj, hdismisses⟩, rfl, rfl⟩
  · rw [Ending.why?_of_signal? hnone] at hwhy
    cases hwhy
  · rw [Process.why?_ending] at hwhy
    obtain rfl := Option.some.inj hwhy
    obtain ⟨steps, hconnected⟩ : ∃ steps, j.phase.connected? = some (run, steps) := by
      cases hdismisses with
      | @expired steps _ hphase => rcases hphase with hphase | hphase <;> exact ⟨steps, by rw [hphase]; rfl⟩
    obtain ⟨c, hc, rfl, hover⟩ := h.turns n (List.mem_append_left _ (hturns _ rfl))
    obtain ⟨c', hc', hjob, hpid, -⟩ := h.running c.job j run steps hj hconnected
    obtain rfl := h.once c hc c' hc' hjob.symm
    exact ⟨c, hc, hpid, hover, j, hj, by rw [hconnected]; rfl⟩

/-- A request that parts with its process before its output is connected awaits one that is not. -/
private theorem starting_of_unconnected (hmem : .mark (.ended pid how) ∈ l.noted b)
    (hwhy : how.why? = some .unconnected) :
    ∃ n j, l.session.job? n = some j ∧ j.pid? = some pid ∧ j.phase.past = false := by
  obtain ⟨m, hobserve, -⟩ := observe_of_noted hmem
  rcases parts_cases hobserve with ⟨hnone, -⟩ | ⟨why, run, ⟨n, j, -, hj, hdismisses⟩, rfl, rfl⟩
  · rw [Ending.why?_of_signal? hnone] at hwhy
    cases hwhy
  · rw [Process.why?_ending] at hwhy
    obtain rfl := Option.some.inj hwhy
    cases hdismisses with
    | unconnected _ hphase => exact ⟨n, j, hj, by simp [Job.pid?, Job.awaits?, hphase], by rw [hphase]; rfl⟩

private theorem ended_cases
    (h : (pid, how) ∈ endings (marksOf (log ++ l.entries b))) :
    (pid, how) ∈ endings (marksOf log) ∨ .mark (.ended pid how) ∈ l.noted b := by
  rw [marksOf_append, endings_append, List.mem_append] at h
  refine h.imp_right fun hnew => ?_
  obtain ⟨x, hx, hending⟩ := List.mem_filterMap.mp hnew
  obtain ⟨⟨time, y⟩, hy, hmark⟩ := List.mem_filterMap.mp hx
  obtain ⟨z, hz, heq⟩ := List.mem_map.mp hy
  obtain ⟨rfl, rfl⟩ := Prod.mk.inj heq
  cases z with
  | connected job run steps => cases hmark
  | mark z =>
    obtain rfl := Option.some.inj hmark
    cases z with
    | ended pid' how' =>
      obtain ⟨rfl, rfl⟩ := Prod.mk.inj (Option.some.inj hending)
      exact hz
    | _ => cases hending

private theorem connection_cases {c : Connection} (h : c ∈ connections (log ++ l.entries b)) :
    c ∈ connections log ∨ c ∈ l.connection? b :=
  List.mem_append.mp (connections_append log _ ▸ h)

private theorem Overseen.owned_beat (h : l.Overseen log) {c : Connection} (hc : c ∈ connections (log ++ l.entries b)) :
    (∃ j, (l.beat b).session.job? c.job = some j ∧ j.pid? = some c.pid) ∨
      ∃ how, (c.pid, how) ∈ endings (marksOf (log ++ l.entries b)) := by
  obtain ⟨m, hact, hmarks, -⟩ := l.exists_move b
  rcases connection_cases hc with hold | hnew
  · rw [marksOf_append, endings_append, hmarks, hact]
    rcases h.owned c hold with ⟨j, hj, hpid⟩ | ⟨how, hended⟩
    · refine (keeps_or_parts h.history m hj hpid).imp_right ?_
      rintro ⟨how, hobserve⟩
      exact ⟨how, List.mem_append_right _ (by simp [hobserve, endings])⟩
    · exact .inr ⟨how, List.mem_append_left _ hended⟩
  · exact .inl (awaited_of_connection hnew)

/-- A request whose process was connected parts with it as with one that is. -/
private theorem Overseen.connected_mark (h : l.Overseen log) {c : Connection} (hc : c ∈ connections log)
    (hmark : .mark (.ended c.pid how) ∈ l.noted b) : how.why? ≠ some .unconnected := by
  intro hwhy
  obtain ⟨n, j, hj, hpid, hpast⟩ := starting_of_unconnected hmark hwhy
  rcases h.owned c hc with ⟨j', hj', hpid'⟩ | ⟨how', hended'⟩
  · obtain rfl := number_of_pid h.history h.fresh hj hj' hpid hpid'
    exact absurd ((h.attended.past c hc).2.2 j hj) (by simp [hpast])
  · exact not_ended h.history h.fresh hj hpid how' hended'

/-- **Beats keep the account.** -/
theorem Overseen.beat (h : l.Overseen log) (b : Beat) : (l.beat b).Overseen (log ++ l.entries b) := by
  have hhistory := history_beat h.history b
  rw [← marksOf_append] at hhistory
  have hattended := attended_beat h.history h.attended b
  rw [connection?, ← connections_append] at hattended
  have hfresh : Function.Injective (l.beat b).session.pids := by
    obtain ⟨m, hact, -⟩ := l.exists_move b
    rw [hact, pids_act h.history m]
    exact h.fresh
  have hnew : ∀ c ∈ l.connection? b, ∀ c' ∈ connections (log ++ l.entries b), c.pid = c'.pid → c = c' := by
    intro c hc c' hc' hsame
    obtain ⟨j, hj, hpid⟩ := awaited_of_connection hc
    rcases h.owned_beat hc' with ⟨j', hj', hpid'⟩ | ⟨how, hended⟩
    · refine hattended.once c ?_ c' hc' (number_of_pid hhistory hfresh hj hj' hpid (hsame ▸ hpid'))
      rw [connections_append]
      exact List.mem_append_right _ hc
    · exact absurd hended (not_ended hhistory hfresh hj (hsame ▸ hpid) how)
  refine ⟨hhistory, hfresh, hattended, fun c hc => h.owned_beat hc, fun c hc c' hc' hsame => ?_,
    fun c hc how hended => ?_, fun time pid how hmem hwhy => ?_⟩
  · rcases connection_cases hc with hold | hc
    · rcases connection_cases hc' with hold' | hc'
      · exact h.distinct c hold c' hold' hsame
      · exact (hnew c' hc' c hc hsame.symm).symm
    · exact hnew c hc c' hc' hsame
  · rcases connection_cases hc with hold | hc
    · exact (ended_cases hended).elim (h.connected c hold how) (h.connected_mark hold)
    · obtain ⟨j, hj, hpid⟩ := awaited_of_connection hc
      exact absurd hended (not_ended hhistory hfresh hj hpid how)
  · rw [connections_append]
    rcases List.mem_append.mp hmem with hmem | hmem
    · obtain ⟨c, hc, hrest⟩ := h.early time pid how hmem hwhy
      exact ⟨c, List.mem_append_left _ hc, hrest⟩
    · obtain ⟨x, hx, heq⟩ := List.mem_map.mp hmem
      obtain ⟨rfl, rfl⟩ := Prod.mk.inj heq
      obtain ⟨c, hc, hpid, hover, -⟩ := over_of_expired h.attended hx hwhy
      exact ⟨c, List.mem_append_left _ hc, hpid, hover⟩

theorem Overseen.run (h : l.Overseen log) (beats : List Beat) : (l.run beats).Overseen (log ++ l.log beats) := by
  induction beats generalizing l log with
  | nil => rwa [Loop.log, List.append_nil]
  | cons b rest ih =>
    rw [Loop.log, ← List.append_assoc]
    exact ih (h.beat b)

theorem overseen_start {overrides : Value} {directory : Path} {pids : Nat → Nat} {disk : Disk} {first : Session}
    (hstart : Session.start overrides directory pids disk = .ok first) (hfresh : Function.Injective pids) :
    Overseen [] ⟨first, []⟩ := by
  have hnone : ∀ c : Connection, c ∉ connections [] := fun _ => List.not_mem_nil
  have hhistory : History (marksOf []) first := .start hstart
  obtain ⟨globals, -, rfl⟩ := Session.eq_of_start hstart
  refine ⟨hhistory, hfresh, ?_, fun c hc => absurd hc (hnone c), fun c hc => absurd hc (hnone c),
    fun c hc => absurd hc (hnone c), fun time pid how hmem => absurd hmem List.not_mem_nil⟩
  refine ⟨fun c hc => absurd hc (hnone c), fun c hc => absurd hc (hnone c), fun n j run steps hj => ?_,
    fun due n hmem => absurd hmem (Array.not_mem_empty _), fun n hmem => absurd hmem List.not_mem_nil⟩
  cases hj

/-! ## Never late -/

/-- All requests are in time, and none has parted with its process for its time that comes to its end in time. -/
structure Timely (log : List (Nat × Noted)) (l : Loop) : Prop where
  prompt : l.session.Prompt (connections log) l.pending
  spared : ∀ c ∈ connections log, ∀ finish, c.finish? = some finish → c.isOver finish = false →
    ∀ how, (c.pid, how) ∈ endings (marksOf log) → how.why? ≠ some .expired

/-- A session that has not ended had not ended before. -/
private theorem going_of_beat (h : (l.beat b).session.status ≠ .ended) : l.session.status ≠ .ended := by
  cases b with
  | receive m => exact going_of_receive h
  | surround script reply disk => exact h
  | pass time => exact h
  | gather =>
    simp only [Loop.beat] at h
    split at h <;> exact h
  | take =>
    simp only [Loop.beat] at h
    split at h
    · exact h
    · rwa [(carries_take _ _).status] at h
  | drop =>
    simp only [Loop.beat] at h
    split at h
    · exact h
    · split at h <;> exact h
  | fire =>
    simp only [Loop.beat] at h
    split at h
    · exact h
    · split at h <;> exact h

theorem going_of_run {beats : List Beat} (h : (l.run beats).session.status ≠ .ended) : l.session.status ≠ .ended := by
  induction beats generalizing l with
  | nil => exact h
  | cons b rest ih => exact going_of_beat (ih h)

/-- **Beats that are not late keep all in time.** -/
theorem Timely.beat (h : l.Timely log) (hoverseen : l.Overseen log) (hbeat : l.OnTime b)
    (hgoing : (l.beat b).session.status ≠ .ended) :
    (l.beat b).Timely (log ++ l.entries b) := by
  have hafter := hoverseen.beat b
  refine ⟨?_, fun c hc finish hfinish hin how hended hwhy => ?_⟩
  · rw [connections_append]
    exact prompt_beat hoverseen.attended h.prompt hbeat hgoing
  · rcases connection_cases hc with hold | hnew
    · rcases ended_cases hended with hended | hmark
      · exact h.spared c hold finish hfinish hin how hended hwhy
      · obtain ⟨c', hc', hpid, hover, j, hj, hconnected⟩ := over_of_expired hoverseen.attended hmark hwhy
        obtain rfl := hoverseen.distinct c' hc' c hold hpid
        have hkeeps := (h.prompt c' hc' j hj).steps finish hfinish (Connection.runsOut_of_not_over hin)
        have hover := Connection.isOver_mono (hkeeps.le hconnected) hover
        rw [hin] at hover
        cases hover
    · obtain ⟨j, hj, hpid⟩ := awaited_of_connection hnew
      exact not_ended hafter.history hafter.fresh hj hpid how hended

theorem Timely.run (h : l.Timely log) (hoverseen : l.Overseen log) {beats : List Beat} (hpunctual : l.Punctual beats)
    (hgoing : (l.run beats).session.status ≠ .ended) : (l.run beats).Timely (log ++ l.log beats) := by
  induction beats generalizing l log with
  | nil => rwa [Loop.log, List.append_nil]
  | cons b rest ih =>
    rw [Loop.log, ← List.append_assoc]
    exact ih (h.beat hoverseen hpunctual.1 (going_of_run hgoing)) (hoverseen.beat b) hpunctual.2 hgoing

/-- A process that was connected and is awaited is connected still. -/
theorem Overseen.connected_of_awaited (h : l.Overseen log) {c : Connection} (hc : c ∈ connections log)
    (hpid : c.pid ∈ l.session.awaited) :
    ∃ j, l.session.job? c.job = some j ∧ j.phase.connected?.isSome = true := by
  rcases h.owned c hc with ⟨j, hj, hj'⟩ | ⟨how, hended⟩
  · obtain ⟨run, steps, hconnected, -⟩ := Phase.connected_of_pid hj' ((h.attended.past c hc).2.2 j hj)
    exact ⟨j, hj, by rw [hconnected]; rfl⟩
  · have hapart := (List.nodup_append.mp (h.history.apart h.fresh)).2.2
    exact absurd rfl (hapart c.pid hpid c.pid (List.mem_map_of_mem hended))

theorem Overseen.pids_run (h : l.Overseen log) (beats : List Beat) : (l.run beats).session.pids = l.session.pids := by
  induction beats generalizing l log with
  | nil => rfl
  | cons b rest ih =>
    obtain ⟨m, hact, -⟩ := l.exists_move b
    exact (ih (h.beat b)).trans (hact ▸ pids_act h.history m)

theorem timely_start {first : Session} : Timely [] ⟨first, []⟩ :=
  ⟨fun _ hc => absurd hc List.not_mem_nil, fun _ hc => absurd hc List.not_mem_nil⟩

end Loop

/-! ## What becomes of processes -/

/-- No process is sent more than one thing, if no request parts with a process twice. -/
private theorem sublist_sent (ends : List (Nat × Ending)) :
    ((ends.flatMap fun x => x.2.sent x.1).map Prod.fst).Sublist (ends.map Prod.fst) := by
  induction ends with
  | nil => exact .refl _
  | cons x rest ih =>
    rw [List.flatMap_cons, List.map_append, List.map_cons]
    cases hsignal : x.2.signal? with
    | none => simpa [Ending.sent, hsignal] using ih.cons x.1
    | some signal => simpa [Ending.sent, hsignal] using ih.cons_cons x.1

/-- A process is killed with all it started, or this is attempted, exactly when its request tells it to end while
its output is connected. -/
private theorem kills_iff {s : Session} {m : Move} {pid : Nat} {how : Ending}
    (h : s.observe m = some (.ended pid how)) :
    how.kills = true ↔ ∃ why run, why ≠ .unconnected ∧ s.Dismisses m why run ∧ run.process.pid = pid := by
  have hkills : ∀ (p : Process) (why : Farewell), (p.ending why).kills = true ↔ why ≠ .unconnected := by
    intro p why
    unfold Process.ending
    split <;> cases why <;> decide
  constructor
  · intro hhow
    rcases parts_cases h with ⟨hnone, -⟩ | ⟨why, run, hdismisses, rfl, rfl⟩
    · simp [Ending.kills, hnone] at hhow
    · exact ⟨why, run, (hkills _ _).mp hhow, hdismisses, rfl⟩
  · rintro ⟨why, run, hwhy, hdismisses, rfl⟩
    obtain ⟨-, rfl⟩ := Mark.ended.inj (Option.some.inj (h.symm.trans (observe_of_dismisses hdismisses)))
    exact (hkills _ _).mpr hwhy

/-- **No process is lost, and none is told to end without need.** A session is started, and its loop goes on with any
beats. Every process that was started is awaited by one request, or its request has parted with it, once;
processes were sent what this way of parting takes, one thing each at most; and a process goes on without its request
only when the request left it.
A move leaves a process awaited, or its request parts with it; then all that the process started is killed with it, or
this is attempted, exactly when the request is withdrawn or its time ends while the output of the process is
connected. No such time ends before its deadline.
In a loop that is never late no process is awaited past its deadline, and one that comes to its end by itself before is
awaited no longer than that, and is sent nothing unless its request is withdrawn. A loop that is late may find that the
time is up before it notices that the process has ended. -/
theorem processes_accounted {overrides : Value} {directory : Path} {pids : Nat → Nat} {disk : Disk} {first : Session}
    (hstart : Session.start overrides directory pids disk = .ok first) (hfresh : Function.Injective pids)
    (beats : List Beat) :
    let log := Loop.log ⟨first, []⟩ beats
    let s := (Loop.run ⟨first, []⟩ beats).session
    let ends := endings (marksOf log)
    (s.awaited ++ ends.map Prod.fst).Perm ((List.range s.launched).map pids) ∧
    signalsIn s.trace = ends.flatMap (fun x => x.2.sent x.1) ∧
    ((signalsIn s.trace).map Prod.fst).Nodup ∧
    (∀ o ∈ s.orphans, ∃ how, (o.process.pid, how) ∈ ends ∧ how.leaves = true) ∧
    (∀ (m : Move) (pid : Nat), pid ∈ s.awaited →
      pid ∈ (s.act m).awaited ∨
        ∃ how, s.observe m = some (.ended pid how) ∧
          signalsIn (s.act m).trace = signalsIn s.trace ++ how.sent pid ∧
          (pid ∈ (s.act m).orphans.map (·.process.pid) ↔ how.leaves = true) ∧
          (how.kills = true ↔
            ∃ why run, why ≠ .unconnected ∧ s.Dismisses m why run ∧ run.process.pid = pid)) ∧
    (∀ time pid how, (time, .mark (.ended pid how)) ∈ log → how.why? = some .expired →
      ∃ c ∈ connections log, c.pid = pid ∧ c.isOver time = true) ∧
    (Loop.Punctual ⟨first, []⟩ beats → s.status ≠ .ended → ∀ c ∈ connections log,
      (c.pid ∈ s.awaited → s.now ≤ max c.time c.deadline) ∧
      ∀ finish, c.finish? = some finish → c.isOver finish = false →
        (c.pid ∈ s.awaited → s.now ≤ finish) ∧
        ∀ how, (c.pid, how) ∈ ends → how.signal? = none ∨ how.why? = some .withdrawn) := by
  intro log s ends
  have hfirst := Loop.overseen_start hstart hfresh
  have hoverseen : (Loop.run ⟨first, []⟩ beats).Overseen log := hfirst.run beats
  have hpids : s.pids = pids := by
    obtain ⟨globals, -, rfl⟩ := Session.eq_of_start hstart
    exact hfirst.pids_run beats
  have haccount := hoverseen.history.accounted
  have hended := (List.nodup_append.mp (hoverseen.history.apart hoverseen.fresh)).2.1
  have hsignals : signalsIn s.trace = ends.flatMap fun x => x.2.sent x.1 := haccount.signals
  refine ⟨?pids, hsignals, ?once, ?orphans, fun m pid hpid => ?parts, hoverseen.early, fun hpunctual hgoing c hc => ?_⟩
  case pids =>
    rw [s.awaited_eq, ← hpids]
    exact haccount.pids
  case once =>
    rw [hsignals]
    exact hended.sublist (sublist_sent ends)
  case orphans => exact fun o ho => haccount.orphans _ (List.mem_map_of_mem ho)
  case parts =>
    refine (awaited_act hoverseen.history hoverseen.fresh m hpid).imp_right ?_
    rintro ⟨how, hobserve, hsent, hleaves⟩
    exact ⟨how, hobserve, hsent, hleaves, kills_iff hobserve⟩
  have htimely : (Loop.run ⟨first, []⟩ beats).Timely log := Loop.timely_start.run hfirst hpunctual hgoing
  refine ⟨fun hpid => ?_, fun finish hfinish hin => ⟨fun hpid => ?_, fun how hhow => ?_⟩⟩
  · obtain ⟨j, hj, hconnected⟩ := hoverseen.connected_of_awaited hc hpid
    exact (htimely.prompt c hc j hj).limit hconnected
  · obtain ⟨j, hj, hconnected⟩ := hoverseen.connected_of_awaited hc hpid
    exact ((htimely.prompt c hc j hj).steps finish hfinish (Connection.runsOut_of_not_over hin)).le hconnected
  · have hspared := htimely.spared c hc finish hfinish hin how hhow
    have hconnected := hoverseen.connected c hc how hhow
    cases how with
    | exited | overran => exact .inl rfl
    | told why | spared why =>
      cases why with
      | expired => exact absurd rfl hspared
      | unconnected => exact absurd rfl hconnected
      | withdrawn => exact .inr rfl

/-- A formatter that takes half of its time is sent nothing, and one that hangs is killed at the end of its time. -/
theorem processes_accounted_in_time :
    let limit := timeLimit {}
    let uri := "file:///a.src"
    let disk : Disk := ⟨[([['t', 'm', 'p']], .directory)]⟩
    let first : Session := {
      overrides := .map [(.text "command", .list [.text "fmt"])], directory := .ofString "/tmp", disk
      cache := { globals := { command := ["fmt"] } } }
    let beats : List Beat := [
      .surround { steps := [.sleep (limit / 2), .exit 0] } .never disk,
      .receive (.ok (.call (.number 1) (.handshake ⟨none, [], [], false, false⟩))),
      .receive (.ok (.notice (.opened ⟨uri, "text", 1, "a"⟩))),
      .receive (.ok (.call (.number 2) (.format uri none))),
      .gather, .take, .take, .gather, .take, .pass (limit / 2), .fire,
      .gather, .take, .gather, .take, .gather, .take, .gather, .take,
      .surround { steps := [.hang] } .never disk,
      .receive (.ok (.call (.number 3) (.format uri none))),
      .gather, .take, .gather, .take, .drop, .pass (limit / 2 + limit), .fire, .gather, .take]
    let log := Loop.log ⟨first, []⟩ beats
    let s := (Loop.run ⟨first, []⟩ beats).session
    Loop.Punctual ⟨first, []⟩ beats ∧
      ((connections log).map fun c => (c.pid, c.finish?, c.deadline)) =
        [(0, some (limit / 2), limit), (1, none, limit / 2 + limit)] ∧
      endings (marksOf log) = [(0, .exited), (1, .told .expired)] ∧ signalsIn s.trace = [(1, .killed)] ∧
      s.now = limit / 2 + limit := by
  intro limit uri disk first beats log s
  have hends : endings (marksOf log) = [(0, .exited), (1, .told .expired)] := by
    decide +kernel
  have hstart : Session.start first.overrides first.directory id disk = .ok first := rfl
  obtain ⟨_, hsignals, _⟩ := processes_accounted hstart Function.injective_id beats
  refine ⟨?_, ?_, hends, hsignals.trans ?_, ?_⟩
  · decide +kernel
  · decide +kernel
  · rw [hends]
    rfl
  · decide +kernel

end FormatServer
