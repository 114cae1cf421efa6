import Mathlib.Data.List.Nodup
import FormatServer.Proofs.Session.History

/-!
The work of a session by itself: where requests stand, the processes, and the settings that are kept, with
the few steps in which work goes on (`Work.Step`). Tasks have numbers of their own in all work that is reached
(`Numbered.step`).
-/

namespace FormatServer

inductive Standing where
  | fresh
  /-- the client was asked for settings, and what it answers is not used yet -/
  | waiting
  /-- the process is under way, with these settings -/
  | running (pid : Nat) (settings : Settings)
  | finished
  deriving DecidableEq, Repr

structure Task where
  number : Nat
  uri : String
  standing : Standing
  deriving DecidableEq, Repr

/-- The work of a session. -/
structure Work where
  tasks : List Task
  /-- processes whose requests have ended without them -/
  orphans : List Nat
  /-- what processes were sent to make them end, in order -/
  signals : List (Nat × Signal)
  /-- the words with which processes were to be started, in order -/
  commands : List (List String)
  /-- the settings that are kept, by documents -/
  settings : List (String × Settings)
  nextTask : Nat
  pids : Nat → Nat
  launched : Nat

namespace Work

def nextPid (w : Work) : Nat := w.pids w.launched

/-- Puts a task in the place of the one with its number. -/
def put (w : Work) (t : Task) : Work :=
  { w with tasks := w.tasks.map fun old => if old.number = t.number then t else old }

def forget (w : Work) (uri : String) : Work :=
  { w with settings := w.settings.filter (·.1 ≠ uri) }

def keep (w : Work) (uri : String) (settings : Settings) : Work :=
  { w with settings := (w.forget uri).settings ++ [(uri, settings)] }

def Distinct (w : Work) : Prop := (w.tasks.map Task.number).Nodup

/-- A task goes on with settings: its process is started with their words, or it ends without one. -/
inductive Launches (w : Work) (number : Nat) (uri : String) (settings : Settings) : Work → Prop where
  | failed {commands : List (List String)}
      (h : ∀ words ∈ commands, ∃ p, words = commandLine settings p) :
      Launches w number uri settings
        { w.put ⟨number, uri, .finished⟩ with commands := w.commands ++ commands }
  | started (p : Path) : Launches w number uri settings
      { w.put ⟨number, uri, .running w.nextPid settings⟩ with
        commands := w.commands ++ [commandLine settings p], launched := w.launched + 1 }

/-- A step, and what it is observed to do. -/
inductive Step (w : Work) : Option Mark → Work → Prop where
  | idle : Step w none w
  | arrive (uri : String) :
      Step w (some (.arrived w.nextTask uri))
        { w with tasks := w.tasks ++ [⟨w.nextTask, uri, .fresh⟩], nextTask := w.nextTask + 1 }
  /-- a task that is finished leaves -/
  | leave {number : Nat} {uri : String} (h : ⟨number, uri, .finished⟩ ∈ w.tasks) :
      Step w none { w with tasks := w.tasks.filter (·.number ≠ number) }
  /-- a task ends without a process -/
  | quit {number : Nat} {uri : String} {standing : Standing}
      (h : ⟨number, uri, standing⟩ ∈ w.tasks)
      (hpid : ∀ pid settings, standing ≠ .running pid settings) :
      Step w none (w.put ⟨number, uri, .finished⟩)
  | ask {number : Nat} {uri : String} (h : ⟨number, uri, .fresh⟩ ∈ w.tasks)
      (hnone : w.settings.lookup uri = none) :
      Step w (some (.asked number uri)) (w.put ⟨number, uri, .waiting⟩)
  /-- a task goes on with the settings of all documents -/
  | share {number : Nat} {uri : String} {settings : Settings} {w' : Work}
      (h : ⟨number, uri, .fresh⟩ ∈ w.tasks) (hlaunch : w.Launches number uri settings w') :
      Step w (some (.shared number uri settings)) w'
  | use {number : Nat} {uri : String} {settings : Settings} {w' : Work}
      (h : ⟨number, uri, .fresh⟩ ∈ w.tasks) (hkept : w.settings.lookup uri = some settings)
      (hlaunch : w.Launches number uri settings w') : Step w (some (.used number uri settings)) w'
  | keep {number : Nat} {uri : String} {settings : Settings} {w' : Work}
      (h : ⟨number, uri, .waiting⟩ ∈ w.tasks)
      (hlaunch : (w.keep uri settings).Launches number uri settings w') :
      Step w (some (.kept number uri settings)) w'
  /-- a task parts with its process -/
  | part {number pid : Nat} {uri : String} {settings : Settings}
      (h : ⟨number, uri, .running pid settings⟩ ∈ w.tasks) (how : Ending) :
      Step w (some (.ended pid how))
        { w.put ⟨number, uri, .finished⟩ with
          signals := w.signals ++ how.sent pid
          orphans := w.orphans ++ if how.leaves then [pid] else [] }
  /-- processes without a request go on, or end -/
  | orphans {pids : List Nat} (h : ∀ pid ∈ pids, pid ∈ w.orphans) :
      Step w none { w with orphans := pids }
  | drop (uri : String) : Step w (some (.dropped uri)) (w.forget uri)
  | clear : Step w (some .cleared) { w with settings := [] }

/-! ## Putting tasks -/

variable {w w' : Work} {t t₀ : Task} {x : Option Mark} {number : Nat} {uri : String}
  {v : Settings}

theorem numbers_put (w : Work) (t : Task) :
    (w.put t).tasks.map Task.number = w.tasks.map Task.number := by
  simp only [put, List.map_map]
  refine List.map_congr_left fun old _ => ?_
  by_cases h : old.number = t.number <;> simp [h]

/-- Putting a task where it stands changes nothing. -/
theorem put_self (hw : w.Distinct) (h : t ∈ w.tasks) : w.put t = w := by
  have hput : ∀ old ∈ w.tasks, (if old.number = t.number then t else old) = old := by
    intro old hold
    split
    · next hnumber => exact (List.inj_on_of_nodup_map hw hold h hnumber).symm
    · rfl
  rw [put, List.map_congr_left hput, List.map_id']

/-- A step that only puts a task where it stands is none. -/
theorem Step.of_put_self (hw : w.Distinct) (h : t ∈ w.tasks) : w.Step none (w.put t) := by
  rw [put_self hw h]
  exact .idle

/-- A task that is put takes the place of one other. -/
theorem tasks_put (hw : w.Distinct) (h : t₀ ∈ w.tasks) (hnumber : t₀.number = t.number) :
    ∃ a b, w.tasks = a ++ t₀ :: b ∧ (w.put t).tasks = a ++ t :: b := by
  obtain ⟨a, b, hsplit⟩ := List.append_of_mem h
  refine ⟨a, b, hsplit, ?_⟩
  have hother : ∀ old ∈ a ++ b, old.number ≠ t.number := by
    rw [Distinct, hsplit, List.map_append, List.map_cons, List.nodup_middle, ← List.map_append,
      List.nodup_cons, hnumber] at hw
    exact fun old hold heq => hw.1 (heq ▸ List.mem_map_of_mem hold)
  have hkeep : ∀ c : List Task, (∀ old ∈ c, old.number ≠ t.number) →
      (c.map fun old => if old.number = t.number then t else old) = c := by
    intro c hc
    rw [List.map_congr_left fun old hold => if_neg (hc old hold), List.map_id']
  rw [put, hsplit]
  simp only [List.map_append, List.map_cons, if_pos hnumber]
  rw [hkeep a fun old hold => hother old (List.mem_append_left _ hold),
    hkeep b fun old hold => hother old (List.mem_append_right _ hold)]

/-- The tasks after one was put: that one, and those with other numbers. -/
theorem mem_tasks_put {y : Task} (h : y ∈ (w.put t).tasks) :
    y = t ∨ y ∈ w.tasks ∧ y.number ≠ t.number := by
  obtain ⟨old, hold, rfl⟩ := List.mem_map.mp h
  by_cases hnumber : old.number = t.number
  · exact .inl (if_pos hnumber)
  · rw [if_neg hnumber]
    exact .inr ⟨hold, hnumber⟩

/-- Tasks with other numbers stay as one is put. -/
theorem mem_put_of_ne {y : Task} (h : y ∈ w.tasks) (hne : y.number ≠ t.number) : y ∈ (w.put t).tasks :=
  List.mem_map.mpr ⟨y, h, if_neg hne⟩

/-- The tasks after one went on with settings: that one, which neither has to begin nor waits for them, and
those with other numbers. -/
theorem Launches.mem_tasks (h : w.Launches number uri v w') {y : Task} (hy : y ∈ w'.tasks) :
    (y.number = number ∧ y.uri = uri ∧ y.standing ≠ .fresh ∧ y.standing ≠ .waiting ∧
        ∀ pid v', y.standing = .running pid v' → v' = v) ∨
      y ∈ w.tasks ∧ y.number ≠ number := by
  cases h with
  | failed => exact (mem_tasks_put hy).imp (fun he => by simp [he]) id
  | started => exact (mem_tasks_put hy).imp (fun he => by simp [he]) id

/-- Tasks with other numbers stay as one goes on with settings. -/
theorem Launches.mem_of_ne (h : w.Launches number uri v w') {y : Task} (hy : y ∈ w.tasks)
    (hne : y.number ≠ number) : y ∈ w'.tasks := by
  cases h with
  | failed => exact mem_put_of_ne hy hne
  | started => exact mem_put_of_ne hy hne

theorem Launches.settings (h : w.Launches number uri v w') : w'.settings = w.settings := by
  cases h <;> rfl

theorem Launches.nextTask (h : w.Launches number uri v w') : w'.nextTask = w.nextTask := by
  cases h <;> rfl

/-- Whatever words a task is to be started with are those of its settings. -/
theorem Launches.commands (h : w.Launches number uri v w') :
    ∃ commands, w'.commands = w.commands ++ commands ∧
      ∀ words ∈ commands, ∃ p, words = commandLine v p := by
  cases h with
  | failed h => exact ⟨_, rfl, h⟩
  | started p => exact ⟨_, rfl, fun words hwords => ⟨p, List.mem_singleton.mp hwords⟩⟩

/-- Only a task that arrives takes a number. -/
theorem Step.nextTask (h : w.Step x w') (hx : ∀ n uri, x ≠ some (.arrived n uri)) :
    w'.nextTask = w.nextTask := by
  cases h with
  | arrive uri => exact absurd rfl (hx _ _)
  | share _ hlaunch => exact hlaunch.nextTask
  | use _ _ hlaunch => exact hlaunch.nextTask
  | keep _ hlaunch => exact hlaunch.nextTask
  | _ => rfl

/-! ## Numbers -/

/-- Tasks have numbers of their own, below the one that the next task gets. -/
structure Numbered (w : Work) : Prop where
  distinct : w.Distinct
  below : ∀ n ∈ w.tasks.map Task.number, n < w.nextTask

private theorem Numbered.of_numbers (h : w.Numbered)
    (hnumbers : w'.tasks.map Task.number = w.tasks.map Task.number)
    (hnext : w'.nextTask = w.nextTask) : w'.Numbered := by
  refine ⟨?_, ?_⟩
  · rw [Distinct, hnumbers]
    exact h.distinct
  · rw [hnumbers, hnext]
    exact h.below

theorem Numbered.put (h : w.Numbered) (t : Task) : (w.put t).Numbered :=
  h.of_numbers (numbers_put w t) rfl

private theorem Numbered.launches (h : w.Numbered) (hlaunch : w.Launches number uri v w') :
    w'.Numbered := by
  cases hlaunch with
  | failed => exact h.of_numbers (numbers_put w _) rfl
  | started => exact h.of_numbers (numbers_put w _) rfl

/-- **Steps keep the numbers apart.** -/
theorem Numbered.step (h : w.Numbered) (hstep : w.Step x w') : w'.Numbered := by
  cases hstep with
  | idle => exact h
  | arrive uri =>
    have hfresh : w.nextTask ∉ w.tasks.map Task.number :=
      fun hmem => absurd (h.below _ hmem) (Nat.lt_irrefl _)
    refine ⟨?_, ?_⟩
    · simpa [Distinct, List.nodup_append] using
        ⟨h.distinct, fun t ht heq => hfresh (heq ▸ List.mem_map_of_mem ht)⟩
    · intro n hn
      simp only [List.map_append, List.map_cons, List.map_nil, List.mem_append,
        List.mem_singleton] at hn
      rcases hn with hn | rfl
      · exact Nat.lt_succ_of_lt (h.below n hn)
      · exact Nat.lt_succ_self _
  | @leave number _ hmem =>
    have hsub : (w.tasks.filter (·.number ≠ number)).Sublist w.tasks := List.filter_sublist
    have hnumbers := hsub.map Task.number
    exact ⟨h.distinct.sublist hnumbers, fun n hn => h.below n (hnumbers.subset hn)⟩
  | quit hmem hpid => exact h.put _
  | ask hmem hnone => exact h.put _
  | share hmem hlaunch => exact h.launches hlaunch
  | use hmem hkept hlaunch => exact h.launches hlaunch
  | @keep _ uri settings _ hmem hlaunch =>
    have hkeep : (w.keep uri settings).Numbered := h.of_numbers rfl rfl
    exact hkeep.launches hlaunch
  | part hmem how => exact h.of_numbers (numbers_put w _) rfl
  | orphans hmem => exact h.of_numbers rfl rfl
  | drop uri => exact h.of_numbers rfl rfl
  | clear => exact h.of_numbers rfl rfl

end Work

end FormatServer
