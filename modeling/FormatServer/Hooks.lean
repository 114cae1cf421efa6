import FormatServer.Formatter.Run
import FormatServer.Text.Quoted

/-!
Hooks on what happens to documents. A broadcast calls the hooks of its event in the order in which they were
added. A hook that fails leaves a log entry and stops no other, unless its name or the text of its exception
cannot be told: then the broadcast ends there.
-/

namespace FormatServer

/-- What can happen to a document. -/
inductive DocumentEvent where
  | opened
  | changed
  | closed
  deriving DecidableEq, Repr

namespace DocumentEvent

def name : DocumentEvent → String
  | opened => "on_open"
  | changed => "on_change"
  | closed => "on_close"

end DocumentEvent

/-- An exception that a call of a hook raises. -/
inductive HookFailure where
  | missingKey (key : String)
  | other (kind : String) (text : String)
  /-- the end of an iteration, which no coroutine lets out -/
  | iterationEnd (text : String)
  /-- to ask for its text raises another exception -/
  | untold (kind : String) (cause : HookFailure)
  deriving DecidableEq, Repr

namespace HookFailure

def kind : HookFailure → String
  | missingKey _ => "KeyError"
  | other kind _ => kind
  | iterationEnd _ => "StopIteration"
  | untold kind _ => kind

def text : HookFailure → Except HookFailure String
  | missingKey key => .ok (Text.quoted key)
  | other _ text => .ok text
  | iterationEnd text => .ok text
  | untold _ cause => .error cause

/-- The exception that leaves a coroutine in which one is raised. -/
def leavingCoroutine : HookFailure → HookFailure
  | iterationEnd _ => other "RuntimeError" "coroutine raised StopIteration"
  | f => f

end HookFailure

/-- A hook as it is added: what asking for its name gives, and which exception a call with the parameters of an
event raises and what the call does to the shared state. -/
structure Callback (σ π : Type) where
  name : Except HookFailure String
  body : π → σ → Option HookFailure × σ
  /-- its calls are coroutines -/
  coroutine : Bool := true

namespace Callback

variable {σ π : Type}

/-- The exception that others see of a call. -/
def failure (h : Callback σ π) (f : HookFailure) : HookFailure :=
  if h.coroutine then f.leavingCoroutine else f

/-- The log entry about an exception of a call. The name is asked for first. -/
def report (h : Callback σ π) (event : DocumentEvent) (f : HookFailure) : Except HookFailure String := do
  let name ← h.name
  let text ← f.text
  return "Error in " ++ event.name ++ " hook " ++ name ++ ": " ++ f.kind ++ ": " ++ text

end Callback

/-- What happens when events are broadcast. -/
inductive HookEvent (σ π : Type) where
  /-- a hook is called with the parameters of an event -/
  | called (hook : Callback σ π) (params : π)
  /-- an entry is written to the client's log -/
  | logged (level : LogLevel) (text : String)
  /-- an exception leaves a broadcast -/
  | escaped (f : HookFailure)

/-- What hooks work on: a state that they share, and what has happened so far. -/
structure HookState (σ π : Type) where
  shared : σ
  events : List (HookEvent σ π) := []

/-- Work that may fail. What was done before the failure stays done. -/
abbrev HookM (σ π : Type) := ExceptT HookFailure (StateM (HookState σ π))

/-- The hooks of the three events, each list in the order in which its hooks were added. -/
structure Callbacks (σ π : Type) where
  opened : List (Callback σ π) := []
  changed : List (Callback σ π) := []
  closed : List (Callback σ π) := []

/-- What is done with hooks. -/
inductive HookStep (σ π : Type) where
  | add (event : DocumentEvent) (hook : Callback σ π)
  | broadcast (event : DocumentEvent) (params : π)

section

variable {σ π : Type}

namespace HookM

variable {α β : Type}

/-- What comes of work that begins in a state, and the state after it. -/
def runFrom (m : HookM σ π α) (w : HookState σ π) : Except HookFailure α × HookState σ π := m.run.run w

def note (e : HookEvent σ π) : HookM σ π Unit := modify fun w => { w with events := w.events ++ [e] }

@[simp] theorem runFrom_pure (a : α) (w : HookState σ π) :
    (pure a : HookM σ π α).runFrom w = (.ok a, w) := rfl

@[simp] theorem runFrom_throw (f : HookFailure) (w : HookState σ π) :
    (throw f : HookM σ π α).runFrom w = (.error f, w) := rfl

@[simp] theorem runFrom_get (w : HookState σ π) : (get : HookM σ π _).runFrom w = (.ok w, w) := rfl

@[simp] theorem runFrom_set (w' w : HookState σ π) : (set w' : HookM σ π _).runFrom w = (.ok ⟨⟩, w') := rfl

@[simp] theorem runFrom_note (e : HookEvent σ π) (w : HookState σ π) :
    (note e).runFrom w = (.ok (), { w with events := w.events ++ [e] }) := rfl

theorem runFrom_bind (m : HookM σ π α) (next : α → HookM σ π β) (w : HookState σ π) :
    (m >>= next).runFrom w = match m.runFrom w with
      | (.ok a, w') => (next a).runFrom w'
      | (.error f, w') => (.error f, w') := by
  simp only [runFrom, ExceptT.run_bind, StateT.run_bind]
  change (match m.run.run w with | (r, w') => _) = _
  rcases m.run.run w with ⟨_ | _, w'⟩ <;> rfl

theorem runFrom_tryCatch (m : HookM σ π α) (rescue : HookFailure → HookM σ π α) (w : HookState σ π) :
    (tryCatch m rescue).runFrom w = match m.runFrom w with
      | (.ok a, w') => (.ok a, w')
      | (.error f, w') => (rescue f).runFrom w' := by
  simp only [runFrom, ExceptT.run_tryCatch, StateT.run_bind]
  change (match m.run.run w with | (r, w') => _) = _
  rcases m.run.run w with ⟨_ | _, w'⟩ <;> rfl

end HookM

def Callback.call (h : Callback σ π) (params : π) : HookM σ π Unit := do
  HookM.note (.called h params)
  let w ← get
  let (failure, shared) := h.body params w.shared
  set { w with shared }
  match failure with
  | none => pure ()
  | some f => throw (h.failure f)

/-- Writes an exception of a call to the log. That fails when the exception cannot be told. -/
def Callback.tell (h : Callback σ π) (event : DocumentEvent) (f : HookFailure) : HookM σ π Unit :=
  match h.report event f with
  | .ok text => HookM.note (.logged .error text)
  | .error cause => throw cause

namespace Callbacks

def ofEvent (r : Callbacks σ π) : DocumentEvent → List (Callback σ π)
  | .opened => r.opened
  | .changed => r.changed
  | .closed => r.closed

def add (r : Callbacks σ π) (event : DocumentEvent) (h : Callback σ π) : Callbacks σ π :=
  match event with
  | .opened => { r with opened := r.opened ++ [h] }
  | .changed => { r with changed := r.changed ++ [h] }
  | .closed => { r with closed := r.closed ++ [h] }

/-- Calls hooks one after another. An exception that can be told goes to the log and stops no later hook. -/
def callEach (event : DocumentEvent) (params : π) : List (Callback σ π) → HookM σ π Unit
  | [] => pure ()
  | h :: rest => do
    try h.call params
    catch f => h.tell event f
    callEach event params rest

def broadcast (r : Callbacks σ π) (event : DocumentEvent) (params : π) : HookM σ π Unit :=
  callEach event params (r.ofEvent event)

/-- Takes steps one after another. An exception that leaves a broadcast stops no later step. -/
def run (r : Callbacks σ π) : List (HookStep σ π) → HookM σ π Unit
  | [] => pure ()
  | .add event h :: rest => (r.add event h).run rest
  | .broadcast event params :: rest => do
    try r.broadcast event params
    catch f => HookM.note (.escaped f)
    r.run rest

end Callbacks

end

end FormatServer
