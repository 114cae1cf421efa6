import FormatServer.Formatter.Run

/-!
What the events of a run tell of processes: which were started (`spawns`) and what they were sent to make them
end (`signals`). Whatever is put out or removed on the way is told by log entries, which tell of neither.
-/

namespace FormatServer

/-- The processes that were started: their words and what their files held then. -/
def spawns (events : List RunEvent) : List (List String × List UInt8) :=
  events.filterMap fun
    | .spawned command content => some (command, content)
    | _ => none

inductive Signal where
  /-- with all it started -/
  | killed
  /-- alone -/
  | stopped
  /-- nothing, since that was forbidden -/
  | spared (group : Bool)
  deriving DecidableEq, Repr

/-- A signal was sent to a process and all it started, or this was attempted. -/
def Signal.groupKill : Signal → Bool
  | killed | spared true => true
  | stopped | spared false => false

def RunEvent.signal? : RunEvent → Option (Nat × Signal)
  | killed pid => some (pid, .killed)
  | stopped pid => some (pid, .stopped)
  | spared pid group => some (pid, .spared group)
  | _ => none

def signals (events : List RunEvent) : List (Nat × Signal) := events.filterMap RunEvent.signal?

/-! ## Log entries -/

section

variable {α β : Type} {f : RunEvent → Option β}

/-- Log entries of output tell nothing that no log entry tells. -/
private theorem filterMap_outputEvents (hf : ∀ level text, f (.logged level text) = none)
    (logs : List String) : (outputEvents logs).filterMap f = [] := by
  induction logs with
  | nil => rfl
  | cons line rest ih => rwa [outputEvents, List.map_cons, List.filterMap_cons, hf]

/-- Removing the temporary file at the end of a run tells nothing more. -/
private theorem filterMap_endWith (hf : ∀ level text, f (.logged level text) = none) (result : α)
    (d : Disk) (p : Path) (events : List RunEvent) :
    (endWith result d p events).events.filterMap f = events.filterMap f := by
  rw [endWith, List.filterMap_append, cleanUp]
  split <;> simp [hf]

end

@[simp] theorem spawns_outputEvents (logs : List String) : spawns (outputEvents logs) = [] :=
  filterMap_outputEvents (fun _ _ => rfl) logs

@[simp] theorem signals_outputEvents (logs : List String) : signals (outputEvents logs) = [] :=
  filterMap_outputEvents (fun _ _ => rfl) logs

@[simp] theorem spawns_endWith {α : Type} (result : α) (d : Disk) (p : Path)
    (events : List RunEvent) : spawns (endWith result d p events).events = spawns events :=
  filterMap_endWith (fun _ _ => rfl) result d p events

@[simp] theorem signals_endWith {α : Type} (result : α) (d : Disk) (p : Path)
    (events : List RunEvent) : signals (endWith result d p events).events = signals events :=
  filterMap_endWith (fun _ _ => rfl) result d p events

/-! ## Processes started -/

@[simp] theorem spawns_nil : spawns [] = [] := rfl

@[simp] theorem spawns_logged (level : LogLevel) (text : String) (rest : List RunEvent) :
    spawns (.logged level text :: rest) = spawns rest := rfl

/-- What a process is sent starts no other. -/
@[simp] theorem spawns_signal (run : Run) (why : Farewell) (rest : List RunEvent) :
    spawns (run.signal why :: rest) = spawns rest := by
  cases why <;> rfl

@[simp] theorem spawns_spared (pid : Nat) (group : Bool) (rest : List RunEvent) :
    spawns (.spared pid group :: rest) = spawns rest := rfl

@[simp] theorem spawns_spawned (command : List String) (content : List UInt8)
    (rest : List RunEvent) :
    spawns (.spawned command content :: rest) = (command, content) :: spawns rest := rfl

@[simp] theorem spawns_append (a b : List RunEvent) : spawns (a ++ b) = spawns a ++ spawns b :=
  List.filterMap_append

theorem mem_spawns {command : List String} {content : List UInt8} {events : List RunEvent} :
    .spawned command content ∈ events ↔ (command, content) ∈ spawns events := by
  rw [spawns, List.mem_filterMap]
  constructor
  · exact fun h => ⟨_, h, rfl⟩
  · rintro ⟨e, he, hspawned⟩
    cases e with
    | spawned command' content' =>
      obtain ⟨rfl, rfl⟩ := Prod.mk.inj (Option.some.inj hspawned)
      exact he
    | _ => cases hspawned

@[simp] theorem spawns_close (run : Run) : spawns run.close.2 = [] := spawns_outputEvents _

@[simp] theorem spawns_conclude (run : Run) (d : Disk) : spawns (run.conclude d).events = [] := by
  simp [Run.conclude]

@[simp] theorem spawns_overrun (run : Run) (d : Disk) (cause : Overrun) :
    spawns (run.overrun d cause).events = [] := by
  simp [Run.overrun]

@[simp] theorem spawns_timeOut (run : Run) (d : Disk) : spawns (run.timeOut d).events = [] := by
  simp [Run.timeOut, Run.killNotice]

@[simp] theorem spawns_abandon (run : Run) (d : Disk) : spawns (run.abandon d).events = [] := by
  simp [Run.abandon, Run.killNotice]

@[simp] theorem spawns_leave (run : Run) (d : Disk) : spawns (run.leave d).events = [] := by
  simp [Run.leave]

@[simp] theorem spawns_spare (run : Run) (d : Disk) (why : Farewell) :
    spawns (run.spare d why).events = [] := by
  cases why <;> simp [Run.spare]

private theorem spawns_afterRun (steps : List ScriptStep) (p : Process) (d : Disk) :
    spawns (afterRun p d steps).2 = [] := by
  induction steps generalizing p d with
  | nil => simp [afterRun]
  | cons step rest ih =>
    cases step with
    | sleep ticks => rfl
    | hang => rfl
    | output s bytes => simp [afterRun, ih]
    | change c => simp [afterRun, ih]
    | exit code => simp [afterRun, ih]

@[simp] theorem spawns_expire (run : Run) (d : Disk) : spawns (run.expire d).events = [] := by
  unfold Run.expire
  split <;> simp

@[simp] theorem spawns_expireBefore (run : Run) (d : Disk) (steps : List ScriptStep) :
    spawns (run.expireBefore d steps).events = [] := by
  unfold Run.expireBefore
  split <;> simp

/-- A process that plays starts no other. -/
theorem spawns_play (steps : List ScriptStep) (r : Run) (d : Disk) (left : Nat) :
    spawns (play r d left steps).events = [] := by
  induction steps generalizing r d left with
  | nil => simp [play]
  | cons step rest ih =>
    cases step with
    | hang => exact spawns_expire r d
    | sleep ticks =>
      rw [play]
      split
      · exact spawns_expire r d
      · exact ih r d (left - ticks)
    | output s bytes =>
      simp only [play]
      split
      · simp [spawns_afterRun]
      · simp [ih]
    | change c => simpa [play, Process.perform] using ih r _ left
    | exit code => simpa [play, Process.perform] using ih _ d left

/-! ## Processes made to end -/

@[simp] theorem signals_nil : signals [] = [] := rfl

@[simp] theorem signals_logged (level : LogLevel) (text : String) (rest : List RunEvent) :
    signals (.logged level text :: rest) = signals rest := rfl

@[simp] theorem signals_spawned (command : List String) (content : List UInt8)
    (rest : List RunEvent) : signals (.spawned command content :: rest) = signals rest := rfl

@[simp] theorem signals_killed (pid : Nat) (rest : List RunEvent) :
    signals (.killed pid :: rest) = (pid, .killed) :: signals rest := rfl

@[simp] theorem signals_stopped (pid : Nat) (rest : List RunEvent) :
    signals (.stopped pid :: rest) = (pid, .stopped) :: signals rest := rfl

@[simp] theorem signals_spared (pid : Nat) (group : Bool) (rest : List RunEvent) :
    signals (.spared pid group :: rest) = (pid, .spared group) :: signals rest := rfl

@[simp] theorem signals_append (a b : List RunEvent) :
    signals (a ++ b) = signals a ++ signals b :=
  List.filterMap_append

private theorem signals_spawn (c : RunContext) (r : FormatRequest) (range : TextRange) (p : Path)
    (d : Disk) (events : List RunEvent) :
    signals (spawn c r range p d events).events = signals events := by
  unfold spawn
  split
  · simp
  · dsimp only
    split
    · simp
    · cases c.script.refusal <;> simp

/-- A process that is started has a command without null bytes, which the system does not refuse. -/
theorem spawn_started {c : RunContext} {r : FormatRequest} {range : TextRange} {p : Path} {d : Disk}
    {events : List RunEvent} {run : Run} (h : (spawn c r range p d events).result = .ok run) :
    r.settings.command ≠ [] ∧ (∀ word ∈ r.settings.command, '\x00' ∉ word.toList) ∧
      c.script.refusal = none ∧
      run = ⟨r, range, { pid := c.pid, path := p, killing := c.script.killing }⟩ := by
  unfold spawn at h
  split at h
  · exact absurd h (by simp [endWith])
  · next hcommand =>
    dsimp only at h
    split at h
    · exact absurd h (by simp [endWith])
    · next hnull =>
      cases hrefusal : c.script.refusal with
      | some number => exact absurd h (by simp [hrefusal, endWith])
      | none =>
        simp only [hrefusal, Except.ok.injEq] at h
        exact ⟨by simp [hcommand], by simpa using hnull, rfl, h.symm⟩

/-- A process that is started gets the words of the settings and the path of the temporary file. -/
theorem command_of_start {c : RunContext} {r : FormatRequest} {d : Disk} {command : List String}
    {content : List UInt8} (h : .spawned command content ∈ (start c r d).events) :
    ∃ p, temporaryPath c.directory r.settings c.token r.uri = .ok p ∧
      command = commandLine r.settings p := by
  have hspawn : ∀ {range : TextRange} {p : Path} {d : Disk} {events : List RunEvent},
      spawns events = [] → (command, content) ∈ spawns (spawn c r range p d events).events →
      command = commandLine r.settings p := by
    intro range p d events hevents hmem
    unfold spawn at hmem
    split at hmem
    · simp [hevents] at hmem
    · dsimp only at hmem
      split at hmem
      · simp [hevents] at hmem
      · cases hrefusal : c.script.refusal with
        | none =>
          simp only [hrefusal, spawns_append, hevents, List.nil_append, spawns_spawned] at hmem
          exact congrArg Prod.fst (List.mem_singleton.mp hmem)
        | some number =>
          simp only [hrefusal, spawns_endWith, spawns_append, hevents, List.nil_append,
            spawns_spawned] at hmem
          exact congrArg Prod.fst (List.mem_singleton.mp hmem)
  rw [mem_spawns] at h
  unfold start at h
  split at h
  · cases h
  · split at h
    · cases h
    · next p hpath =>
      refine ⟨p, hpath, ?_⟩
      dsimp only at h
      split at h
      · cases h
      · split at h
        · simp at h
        · exact hspawn rfl h

/-- Nothing is made to end when a run starts. -/
theorem signals_start (c : RunContext) (r : FormatRequest) (d : Disk) :
    signals (start c r d).events = [] := by
  unfold start
  split
  · rfl
  · split
    · rfl
    · next p _ =>
      dsimp only
      split
      · rfl
      · cases d.write p _ with
        | error e => simp
        | ok d => simp [signals_spawn]

@[simp] theorem signals_close (run : Run) : signals run.close.2 = [] := signals_outputEvents _

@[simp] theorem signals_conclude (run : Run) (d : Disk) : signals (run.conclude d).events = [] := by
  simp [Run.conclude]

@[simp] theorem signals_overrun (run : Run) (d : Disk) (cause : Overrun) :
    signals (run.overrun d cause).events = [] := by
  simp [Run.overrun]

@[simp] theorem signals_timeOut (run : Run) (d : Disk) : signals (run.timeOut d).events = [] := by
  simp [Run.timeOut, Run.killNotice]

@[simp] theorem signals_abandon (run : Run) (d : Disk) : signals (run.abandon d).events = [] := by
  simp [Run.abandon, Run.killNotice]

@[simp] theorem signals_leave (run : Run) (d : Disk) : signals (run.leave d).events = [] := by
  simp [Run.leave]

/-- What a process is sent to make it end: before its output is connected, to itself alone. -/
def Farewell.signal : Farewell → Signal
  | unconnected => .stopped
  | expired | withdrawn => .killed

/-- What a process would have been sent, were it not forbidden. -/
def Farewell.spared : Farewell → Signal
  | unconnected => .spared false
  | expired | withdrawn => .spared true

@[simp] theorem signals_signal (run : Run) (why : Farewell) :
    signals [run.signal why] = [(run.process.pid, why.signal)] := by
  cases why <;> rfl

@[simp] theorem signals_spare (run : Run) (d : Disk) (why : Farewell) :
    signals (run.spare d why).events = [(run.process.pid, why.spared)] := by
  cases why <;> simp [Run.spare, Farewell.spared]

@[simp] theorem pid_perform (p : Process) (d : Disk) (step : ScriptStep) :
    (p.perform d step).process.pid = p.pid := by
  cases step with
  | output stream bytes => cases stream <;> rfl
  | change c => rfl
  | exit code => rfl
  | sleep ticks => rfl
  | hang => rfl

end FormatServer
