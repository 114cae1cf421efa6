import Mathlib.Data.List.Intervals
import FormatServer.Proofs.Session.Simulation

/-!
What becomes of the processes of a session. Every process that was started is awaited by one request, or its
request has parted with it, once (`History.accounted`). What it was sent to make it end, and whether it goes on
without its request, is a matter of how its request parted with it.
-/

namespace FormatServer

def Task.pid? (t : Task) : Option Nat :=
  match t.standing with
  | .running pid _ => some pid
  | _ => none

def Work.awaited (w : Work) : List Nat := w.tasks.filterMap Task.pid?

/-- The processes that requests have parted with, and how, in order. -/
def endings (marks : List Mark) : List (Nat × Ending) :=
  marks.filterMap fun
    | .ended pid how => some (pid, how)
    | _ => none

@[simp] theorem endings_append (a b : List Mark) : endings (a ++ b) = endings a ++ endings b :=
  List.filterMap_append

namespace Work

variable {w w' : Work} {x : Option Mark} {marks : List Mark}

/-! ## Processes and tasks -/

/-- What a task that is put awaits takes the place of what the other one awaited. -/
private theorem awaited_put (hw : w.Distinct) {t₀ t : Task} (h : t₀ ∈ w.tasks)
    (hnumber : t₀.number = t.number) :
    ((w.put t).awaited ++ t₀.pid?.toList).Perm (w.awaited ++ t.pid?.toList) := by
  obtain ⟨a, b, hsplit, hput⟩ := tasks_put hw h hnumber
  have hmiddle : ∀ y : Task, ((a ++ y :: b).filterMap Task.pid?).Perm
      (a.filterMap Task.pid? ++ b.filterMap Task.pid? ++ y.pid?.toList) := by
    intro y
    have hy : (y :: b).filterMap Task.pid? = y.pid?.toList ++ b.filterMap Task.pid? := by
      cases hpid : y.pid? <;> simp [hpid]
    rw [List.filterMap_append, hy, List.append_assoc]
    exact .append_left _ List.perm_append_comm
  rw [awaited, awaited, hsplit, hput]
  refine ((hmiddle t).append_right _).trans (.trans ?_ ((hmiddle t₀).append_right _).symm)
  simp only [List.append_assoc]
  exact .append_left _ (.append_left _ List.perm_append_comm)

/-- A task that has no process, before and after, does not matter. -/
private theorem awaited_put_none (hw : w.Distinct) {t₀ t : Task} (h : t₀ ∈ w.tasks)
    (hnumber : t₀.number = t.number) (h₀ : t₀.pid? = none) (ht : t.pid? = none) :
    (w.put t).awaited.Perm w.awaited := by
  simpa [h₀, ht] using awaited_put hw h hnumber

private theorem awaited_leave (hw : w.Distinct) {number : Nat} {uri : String}
    (h : ⟨number, uri, .finished⟩ ∈ w.tasks) :
    (w.tasks.filter (·.number ≠ number)).filterMap Task.pid? = w.awaited := by
  rw [List.filterMap_filter, awaited]
  refine List.filterMap_congr fun t ht => ?_
  by_cases hnumber : t.number = number
  · have hfinished : t = ⟨number, uri, .finished⟩ := List.inj_on_of_nodup_map hw ht h hnumber
    simp [hfinished, Task.pid?]
  · simp [hnumber]

/-- **A task keeps its process in a step, or parts with it.** -/
theorem Step.keeps_or_parts (hw : w.Distinct) (hstep : w.Step x w') {number pid : Nat} {uri : String} {v : Settings}
    (h : ⟨number, uri, .running pid v⟩ ∈ w.tasks) :
    ⟨number, uri, .running pid v⟩ ∈ w'.tasks ∨ ∃ how, x = some (.ended pid how) := by
  have hsame : ∀ {t : Task}, t ∈ w.tasks → number = t.number → t = ⟨number, uri, .running pid v⟩ :=
    fun ht hnumber => List.inj_on_of_nodup_map hw ht h hnumber.symm
  have hother : ∀ {k : Nat} {uri' : String} {standing : Standing}, ⟨k, uri', standing⟩ ∈ w.tasks →
      (∀ p v', standing ≠ .running p v') → number ≠ k :=
    fun ht hstanding hnumber => hstanding _ _ (Task.mk.inj (hsame ht hnumber)).2.2
  cases hstep with
  | idle => exact .inl h
  | arrive uri => exact .inl (List.mem_append_left _ h)
  | leave ht => exact .inl (List.mem_filter.mpr ⟨h, by simpa using hother ht nofun⟩)
  | quit ht hstanding => exact .inl (mem_put_of_ne h (hother ht hstanding))
  | ask ht => exact .inl (mem_put_of_ne h (hother ht nofun))
  | share ht hlaunch => exact .inl (hlaunch.mem_of_ne h (hother ht nofun))
  | use ht _ hlaunch => exact .inl (hlaunch.mem_of_ne h (hother ht nofun))
  | keep ht hlaunch => exact .inl (hlaunch.mem_of_ne h (hother ht nofun))
  | @part k pid' _ _ ht how =>
    by_cases hnumber : number = k
    · obtain ⟨-, -, hstanding⟩ := Task.mk.inj (hsame ht hnumber)
      obtain ⟨rfl, -⟩ := Standing.running.inj hstanding
      exact .inr ⟨how, rfl⟩
    · exact .inl (mem_put_of_ne h hnumber)
  | orphans => exact .inl h
  | drop uri => exact .inl h
  | clear => exact .inl h

/-! ## The account -/

structure Accounted (marks : List Mark) (w : Work) : Prop where
  pids : (w.awaited ++ (endings marks).map Prod.fst).Perm ((List.range w.launched).map w.pids)
  signals : w.signals = (endings marks).flatMap fun x => x.2.sent x.1
  orphans : ∀ pid ∈ w.orphans, ∃ how, (pid, how) ∈ endings marks ∧ how.leaves = true

namespace Accounted

/-- A step that neither starts a process nor parts with one changes no account. -/
private theorem of_awaited (h : w.Accounted marks) (x : Option Mark) (hx : endings x.toList = [])
    (hawaited : w'.awaited.Perm w.awaited) (hlaunched : w'.launched = w.launched)
    (hpids : w'.pids = w.pids) (hsignals : w'.signals = w.signals)
    (horphans : ∀ pid ∈ w'.orphans, pid ∈ w.orphans) : w'.Accounted (marks ++ x.toList) := by
  have hendings : endings (marks ++ x.toList) = endings marks := by
    rw [endings_append, hx, List.append_nil]
  refine ⟨?_, ?_, ?_⟩
  · rw [hendings, hlaunched, hpids]
    exact (hawaited.append_right _).trans h.pids
  · rw [hendings, hsignals]
    exact h.signals
  · rw [hendings]
    exact fun pid hpid => h.orphans pid (horphans pid hpid)

private theorem of_put (hw : w.Distinct) (h : w.Accounted marks) (x : Option Mark)
    (hx : endings x.toList = []) {t₀ t : Task} (hmem : t₀ ∈ w.tasks)
    (hnumber : t₀.number = t.number) (h₀ : t₀.pid? = none) (ht : t.pid? = none) :
    (w.put t).Accounted (marks ++ x.toList) :=
  h.of_awaited x hx (awaited_put_none hw hmem hnumber h₀ ht) rfl rfl rfl fun _ hpid => hpid

/-- A process that is started is awaited by its task. -/
private theorem of_launches (hw : w.Distinct) (h : w.Accounted marks) (x : Option Mark)
    (hx : endings x.toList = []) {number : Nat} {uri : String} {standing : Standing} {v : Settings}
    (hmem : ⟨number, uri, standing⟩ ∈ w.tasks) (h₀ : Task.pid? ⟨number, uri, standing⟩ = none)
    (hlaunch : w.Launches number uri v w') : w'.Accounted (marks ++ x.toList) := by
  cases hlaunch with
  | failed =>
    exact h.of_awaited x hx
      (awaited_put_none (t := ⟨number, uri, .finished⟩) hw hmem rfl h₀ rfl) rfl rfl rfl fun _ hpid => hpid
  | started =>
    have hendings : endings (marks ++ x.toList) = endings marks := by
      rw [endings_append, hx, List.append_nil]
    have hawaited : (w.put ⟨number, uri, .running w.nextPid v⟩).awaited.Perm
        (w.awaited ++ [w.nextPid]) := by
      have hput := awaited_put (t := ⟨number, uri, .running w.nextPid v⟩) hw hmem rfl
      rwa [h₀, Option.toList_none, List.append_nil] at hput
    refine ⟨?_, ?_, ?_⟩
    · rw [hendings]
      dsimp only
      rw [List.range_succ, List.map_append, List.map_singleton]
      refine (hawaited.append_right _).trans (.trans ?_ (h.pids.append_right _))
      simp only [List.append_assoc]
      exact .append_left _ List.perm_append_comm
    · rw [hendings]
      exact h.signals
    · rw [hendings]
      exact h.orphans

/-- A task that parts with its process awaits it no more. -/
private theorem of_part (hw : w.Distinct) (h : w.Accounted marks) {number pid : Nat} {uri : String}
    {v : Settings} (hmem : ⟨number, uri, .running pid v⟩ ∈ w.tasks) (how : Ending) :
    Accounted (marks ++ [.ended pid how])
      { w.put ⟨number, uri, .finished⟩ with
        signals := w.signals ++ how.sent pid
        orphans := w.orphans ++ if how.leaves then [pid] else [] } := by
  have hendings : endings (marks ++ [.ended pid how]) = endings marks ++ [(pid, how)] :=
    endings_append marks _
  have hawaited : ((w.put ⟨number, uri, .finished⟩).awaited ++ [pid]).Perm w.awaited := by
    simpa [Task.pid?] using awaited_put (t := ⟨number, uri, .finished⟩) hw hmem rfl
  refine ⟨?_, ?_, ?_⟩
  · rw [hendings, List.map_append]
    refine .trans ?_ ((hawaited.append_right _).trans h.pids)
    rw [List.append_assoc]
    exact .append_left _ List.perm_append_comm
  · rw [hendings, List.flatMap_append, ← h.signals, List.flatMap_singleton]
  · rw [hendings]
    intro other hother
    rcases List.mem_append.mp hother with hother | hother
    · obtain ⟨how', hmem', hleaves⟩ := h.orphans other hother
      exact ⟨how', List.mem_append_left _ hmem', hleaves⟩
    · by_cases hhow : how.leaves = true
      · rw [if_pos hhow, List.mem_singleton] at hother
        exact ⟨how, by simp [hother], hhow⟩
      · simp [hhow] at hother

/-- **Steps keep the account of the processes.** -/
theorem step (hw : w.Numbered) (h : w.Accounted marks) (hstep : w.Step x w') :
    w'.Accounted (marks ++ x.toList) := by
  have hd := hw.distinct
  cases hstep with
  | idle => exact h.of_awaited none rfl (.refl _) rfl rfl rfl fun _ hpid => hpid
  | arrive uri =>
    refine h.of_awaited _ rfl ?_ rfl rfl rfl fun _ hpid => hpid
    exact .of_eq ((List.filterMap_append ..).trans (List.append_nil _))
  | leave hmem =>
    exact h.of_awaited none rfl (.of_eq (awaited_leave hd hmem)) rfl rfl rfl fun _ hpid => hpid
  | @quit number uri standing hmem hpid =>
    refine h.of_put hd none rfl hmem rfl ?_ rfl
    cases standing with
    | running pid v => exact absurd rfl (hpid pid v)
    | _ => rfl
  | ask hmem hnone => exact h.of_put hd _ rfl hmem rfl rfl rfl
  | share hmem hlaunch => exact h.of_launches hd _ rfl hmem rfl hlaunch
  | use hmem hkept hlaunch => exact h.of_launches hd _ rfl hmem rfl hlaunch
  | @keep number uri settings _ hmem hlaunch =>
    have hkeep : (w.keep uri settings).Accounted marks := ⟨h.pids, h.signals, h.orphans⟩
    have hdkeep : (w.keep uri settings).Distinct := hd
    exact hkeep.of_launches hdkeep _ rfl hmem rfl hlaunch
  | part hmem how => exact h.of_part hd hmem how
  | orphans hsub => exact h.of_awaited none rfl (.refl _) rfl rfl rfl hsub
  | drop uri => exact h.of_awaited _ rfl (.refl _) rfl rfl rfl fun _ hpid => hpid
  | clear => exact h.of_awaited _ rfl (.refl _) rfl rfl rfl fun _ hpid => hpid

end Accounted

end Work

/-! ## Sessions -/

def Job.pid? (j : Job) : Option Nat := j.awaits?.map (·.process.pid)

def Session.awaited (s : Session) : List Nat := s.jobs.filterMap Job.pid?

theorem Job.pid?_task (j : Job) : j.task.pid? = j.pid? := by
  simp only [pid?, awaits?, Task.pid?, task, Phase.standing]
  cases j.phase <;> rfl

theorem Session.awaited_eq (s : Session) : s.awaited = s.work.awaited := by
  rw [awaited, Work.awaited, work, List.filterMap_map]
  exact List.filterMap_congr fun j _ => j.pid?_task.symm

/-- **The processes of every history are accounted for.** -/
theorem History.accounted {marks : List Mark} {s : Session} (h : History marks s) :
    s.work.Accounted marks := by
  refine (h.keeps (P := fun marks w => w.Accounted marks) ?_ ?_).2
  · exact fun pids => ⟨.refl _, rfl, by simp [Work.first]⟩
  · exact fun marks w x w' hw haccount hstep => haccount.step hw hstep

/-- No process is awaited that a request has parted with, and none by two requests. -/
theorem History.apart {marks : List Mark} {s : Session} (h : History marks s) (hfresh : Function.Injective s.pids) :
    (s.awaited ++ (endings marks).map Prod.fst).Nodup :=
  s.awaited_eq ▸ h.accounted.pids.nodup_iff.mpr (List.nodup_range.map hfresh)

/-- What a step does that parts with a process. -/
private theorem Work.Step.of_ended {w w' : Work} {pid : Nat} {how : Ending}
    (h : w.Step (some (.ended pid how)) w') :
    w'.signals = w.signals ++ how.sent pid ∧
      w'.orphans = w.orphans ++ if how.leaves then [pid] else [] := by
  cases h with
  | part hmem how => exact ⟨rfl, rfl⟩

/-- The system gives numbers to processes as before. -/
private theorem Work.Step.pids {w w' : Work} {x : Option Mark} (h : w.Step x w') : w'.pids = w.pids := by
  have hlaunch : ∀ {w w' : Work} {number : Nat} {uri : String} {v : Settings},
      w.Launches number uri v w' → w'.pids = w.pids := by
    intro w w' number uri v h
    cases h <;> rfl
  cases h with
  | share hmem h => exact hlaunch h
  | use hmem hkept h => exact hlaunch h
  | keep hmem h => exact hlaunch (w := w.keep _ _) h
  | _ => rfl

namespace Session

/-- A process that takes a step is sent nothing. -/
private theorem sent_nothing_of_step {p : Process} {steps : List ScriptStep} {pid : Nat}
    {how : Ending} (h : (endOfStep p steps).map (.ended p.pid) = some (Mark.ended pid how)) :
    how.signal? = none := by
  obtain ⟨how', hend, heq⟩ := Option.map_eq_some_iff.mp h
  obtain ⟨_, rfl⟩ := Mark.ended.inj heq
  unfold endOfStep at hend
  split at hend
  · exact Option.some.inj hend ▸ rfl
  · split at hend
    · exact Option.some.inj hend ▸ rfl
    · exact absurd hend (by simp)
  · exact absurd hend (by simp)

/-- A request tells its process to end in a move. -/
def Dismisses (s : Session) (m : Move) (why : Farewell) (run : Run) : Prop :=
  ∃ number j, m = .turn (why.turn number) ∧ s.job? number = some j ∧ j.Dismisses run why

variable {s : Session} {m : Move} {pid : Nat} {how : Ending}

/-- **A request parts with its process as the process takes a step, or it tells it to end.** -/
theorem parts_cases (h : s.observe m = some (.ended pid how)) :
    how.signal? = none ∧ (∀ why run, ¬ s.Dismisses m why run) ∨
      ∃ why run, s.Dismisses m why run ∧ pid = run.process.pid ∧ how = run.process.ending why := by
  cases m with
  | receive message =>
    cases message with
    | error fault => exact absurd h (by simp [observe])
    | ok message =>
      simp only [observe] at h
      split at h
      · unfold observeMessage at h
        repeat' split at h
        all_goals exact absurd h (by simp)
      · exact absurd h (by simp)
  | reorder ready timers now => exact absurd h (by simp [observe])
  | surround script reply disk => exact absurd h (by simp [observe])
  | turn t =>
    simp only [observe] at h
    cases t with
    | expire number =>
      obtain ⟨j, hfind, hj⟩ := Option.bind_eq_some_iff.mp h
      unfold observeExpire at hj
      split at hj
      · next run steps hphase hgoing =>
        obtain ⟨rfl, rfl⟩ := Mark.ended.inj (Option.some.inj hj)
        exact .inr ⟨_, _, ⟨number, j, rfl, hfind, .expired hgoing (.inl hphase)⟩, rfl, rfl⟩
      · next run steps hphase hgoing =>
        obtain ⟨rfl, rfl⟩ := Mark.ended.inj (Option.some.inj hj)
        exact .inr ⟨_, _, ⟨number, j, rfl, hfind, .expired hgoing (.inr hphase)⟩, rfl, rfl⟩
      · exact absurd hj (by simp)
    | wake number =>
      obtain ⟨j, _, hj⟩ := Option.bind_eq_some_iff.mp h
      unfold observeWake at hj
      split at hj
      · refine .inl ⟨sent_nothing_of_step hj, ?_⟩
        rintro why run ⟨_, _, hturn, -, -⟩
        cases why <;> exact absurd hturn (by simp [Farewell.turn])
      · exact absurd hj (by simp)
    | advance number =>
      obtain ⟨j, hfind, hj⟩ := Option.bind_eq_some_iff.mp h
      unfold observeAdvance at hj
      split at hj
      · next run steps turns hphase hcancelled =>
        obtain ⟨rfl, rfl⟩ := Mark.ended.inj (Option.some.inj hj)
        exact .inr ⟨_, _, ⟨number, j, rfl, hfind, .unconnected hcancelled hphase⟩, rfl, rfl⟩
      · next run steps hphase hcancelled =>
        obtain ⟨rfl, rfl⟩ := Mark.ended.inj (Option.some.inj hj)
        exact .inr ⟨_, _, ⟨number, j, rfl, hfind, .withdrawn hcancelled (.inl hphase)⟩, rfl, rfl⟩
      · next run steps hphase hcancelled =>
        obtain ⟨rfl, rfl⟩ := Mark.ended.inj (Option.some.inj hj)
        exact .inr ⟨_, _, ⟨number, j, rfl, hfind, .withdrawn hcancelled (.inr hphase)⟩, rfl, rfl⟩
      · next run steps hphase hcancelled =>
        refine .inl ⟨sent_nothing_of_step hj, ?_⟩
        rintro why run' ⟨number', j', hturn, hfind', htells⟩
        cases htells with
        | expired => exact absurd hturn (by simp [Farewell.turn])
        | withdrawn hcancelled' | unconnected hcancelled' =>
          obtain rfl : number = number' := by simpa [Farewell.turn] using hturn
          obtain rfl := Option.some.inj (hfind.symm.trans hfind')
          exact absurd hcancelled' (by simp [hcancelled])
      · unfold observeBegin at hj
        repeat' split at hj
        all_goals exact absurd hj (by simp)
      · split at hj
        all_goals exact absurd hj (by simp)
      · exact absurd hj (by simp)
    | closed uri => exact absurd h (by simp [observeTurn])
    | reply number r => exact absurd h (by simp [observeTurn])
    | orphan pid => exact absurd h (by simp [observeTurn])
    | opened uri => exact absurd h (by simp [observeTurn])

/-- A request that tells its process to end parts with it. -/
theorem observe_of_dismisses {why : Farewell} {run : Run} (h : s.Dismisses m why run) :
    s.observe m = some (.ended run.process.pid (run.process.ending why)) := by
  obtain ⟨number, j, rfl, hj, htells⟩ := h
  cases htells with
  | expired hgoing hphase =>
    rcases hphase with hphase | hphase <;>
      simp [Farewell.turn, observe, observeTurn, hj, observeExpire, hphase, hgoing]
  | withdrawn hcancelled hphase =>
    rcases hphase with hphase | hphase <;>
      simp [Farewell.turn, observe, observeTurn, hj, observeAdvance, hphase, hcancelled]
  | unconnected hcancelled hphase =>
    simp [Farewell.turn, observe, observeTurn, hj, observeAdvance, hphase, hcancelled]

theorem pids_act {marks : List Mark} (h : History marks s) (m : Move) : (s.act m).pids = s.pids :=
  (work_act h.numbered.distinct m).pids

/-- **A move leaves a process awaited, or its request parts with it** in one of the ways that there are. What the
process is sent then, and whether it goes on, is a matter of this way. -/
theorem awaited_act {marks : List Mark} (h : History marks s) (hfresh : Function.Injective s.pids)
    (m : Move) (hpid : pid ∈ s.awaited) :
    pid ∈ (s.act m).awaited ∨
      ∃ how, s.observe m = some (.ended pid how) ∧
        signalsIn (s.act m).trace = signalsIn s.trace ++ how.sent pid ∧
        (pid ∈ (s.act m).orphans.map (·.process.pid) ↔ how.leaves = true) := by
  have haccount := h.accounted
  have hact := work_act h.numbered.distinct m
  have hparted : pid ∉ (endings marks).map Prod.fst := fun hended =>
    (List.nodup_append.mp (h.apart hfresh)).2.2 pid hpid pid hended rfl
  rw [awaited_eq] at hpid ⊢
  obtain ⟨⟨number, uri, standing⟩, htask, hrunning⟩ := List.mem_filterMap.mp hpid
  obtain ⟨v, rfl⟩ : ∃ v, standing = .running pid v := by
    cases standing with
    | running pid' v => exact ⟨v, congrArg (Standing.running · v) (Option.some.inj hrunning)⟩
    | _ => cases hrunning
  rcases hact.keeps_or_parts h.numbered.distinct htask with hkept | ⟨how, hobserve⟩
  · exact .inl (List.mem_filterMap.mpr ⟨_, hkept, rfl⟩)
  rw [hobserve] at hact
  obtain ⟨hsignals, horphans⟩ := hact.of_ended
  refine .inr ⟨how, hobserve, hsignals, ?_⟩
  have hno : pid ∉ s.work.orphans := by
    intro hmem
    obtain ⟨how', hmem', -⟩ := haccount.orphans pid hmem
    exact hparted (List.mem_map.mpr ⟨_, hmem', rfl⟩)
  change pid ∈ (s.act m).work.orphans ↔ _
  rw [horphans]
  cases how.leaves <;> simp [hno]

end Session

end FormatServer
