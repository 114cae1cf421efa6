import FormatServer.Proofs.Formatter.Events
import FormatServer.Session.Step

/-!
Everything that can happen to a session, as a sequence of moves: messages arrive and turns are taken, in any
order. A message is handled in one of few ways (`handles_receive`). A history notes what the moves do to requests,
to kept settings and to processes (`Mark`). Delivering messages and letting time pass are sequences of moves
(`History.deliver`, `History.wait`), so what holds of every history holds of every session.
-/

namespace FormatServer

namespace Session

inductive Move where
  | receive (m : Except MessageFault Incoming)
  /-- a turn is taken, at any moment -/
  | turn (t : Turn)
  /-- time passes, and turns and timers are put in some order -/
  | reorder (ready : List Turn) (timers : TimerHeap Turn) (now : Nat)
  /-- processes and clients behave otherwise from now on, or files change -/
  | surround (script : Script) (reply : ClientReply) (disk : Disk)

inductive Handles (s : Session) : Except MessageFault Incoming → Session → Prop where
  /-- nothing happens any more -/
  | finished (hended : s.status = .ended) (m : Except MessageFault Incoming) : Handles s m s
  | fault (hgoing : s.status ≠ .ended) (fault : MessageFault) :
      Handles s (.error fault) (s.send (.alert fault.message))
  | call (hrunning : s.status = .running) (id : RequestId) (c : Call) :
      Handles s (.ok (.call id c)) (s.handleCall id c)
  | notice (hrunning : s.status = .running) (n : Notice) : Handles s (.ok (.notice n)) (s.handleNotice n)
  | ignored (hrunning : s.status = .running) : Handles s (.ok .ignored) s
  /-- after a shutdown the last message is still handled, and no other -/
  | exit (hgoing : s.status ≠ .ended) (hstopped : s.status ≠ .running) :
      Handles s (.ok (.notice .exit)) s.exit
  | unhandled (hstopped : s.status ≠ .running) (m : Incoming) : Handles s (.ok m) s

/-- **Every message is handled in one of these ways.** -/
theorem handles_receive (s : Session) (m : Except MessageFault Incoming) : s.Handles m (s.receive m) := by
  unfold receive
  by_cases hended : s.status = .ended
  · rw [if_pos hended]
    exact .finished hended m
  rw [if_neg hended]
  cases m with
  | error fault => exact .fault hended fault
  | ok m =>
    dsimp only
    unfold handle
    by_cases hrunning : s.status = .running
    · rw [if_pos (by simp [hrunning])]
      cases m with
      | call id c => exact .call hrunning id c
      | notice n => exact .notice hrunning n
      | ignored => exact .ignored hrunning
    · split
      · next hlast =>
        have hexit : m = .notice .exit := by
          unfold isLast at hlast
          split at hlast
          · rfl
          · simp [hrunning] at hlast
        rw [hexit]
        exact .exit hended hrunning
      · exact .unhandled hrunning m

theorem receive_call {s : Session} (hrunning : s.status = .running) (id : RequestId) (c : Call) :
    s.receive (.ok (.call id c)) = s.handleCall id c := by
  simp [receive, handle, hrunning]

theorem receive_notice {s : Session} (hrunning : s.status = .running) (n : Notice) :
    s.receive (.ok (.notice n)) = s.handleNotice n := by
  simp [receive, handle, hrunning]

/-- What follows when the process of a request has performed a step. -/
def performed (s : Session) (j : Job) (run : Run) (rest : List ScriptStep) (done : Process.Performed) : Session :=
  let run := { run with process := done.process }
  let s := s.absorb done.disk (outputEvents done.logs)
  match done.overrun with
  | none => s.proceed j (.playing run rest)
  | some cause =>
    let stage := run.overrun s.disk cause
    ((s.absorb stage.disk stage.events).settle j stage.result).abandon { process := run.process, steps := rest }

def act (s : Session) : Move → Session
  | .receive m => s.receive m
  | .turn t => s.take t
  | .reorder ready timers now => { s with ready, timers, now }
  | .surround script reply disk => { s with script, reply, disk }

end Session

/-! ## Marks -/

inductive Ending where
  /-- the process has closed its output and exited -/
  | exited
  /-- a line was too long -/
  | overran
  /-- the process was told to end -/
  | told (why : Farewell)
  /-- the process was to be told to end, which is forbidden -/
  | spared (why : Farewell)
  deriving DecidableEq, Repr

namespace Ending

def signal? : Ending → Option Signal
  | told why => some why.signal
  | spared why => some why.spared
  | exited | overran => none

def sent (e : Ending) (pid : Nat) : List (Nat × Signal) := (e.signal?.map fun x => (pid, x)).toList

/-- The process is killed with all it started, as far as that is not forbidden. -/
def kills (e : Ending) : Bool := e.signal?.any Signal.groupKill

def leaves : Ending → Bool
  | overran | spared _ => true
  | exited | told _ => false

end Ending

/-- What becomes of a process that is to be told to end. -/
def Process.ending (p : Process) (why : Farewell) : Ending := if p.killable then .told why else .spared why

/-- A request tells its process to end in its next turn, or when its time is up. -/
inductive Job.Dismisses (j : Job) (run : Run) : Farewell → Prop where
  | expired {steps : List ScriptStep} (hgoing : j.cancelled = false)
      (hphase : j.phase = .playing run steps ∨ j.phase = .pausing run steps) : Dismisses j run .expired
  | withdrawn {steps : List ScriptStep} (hcancelled : j.cancelled = true)
      (hphase : j.phase = .playing run steps ∨ j.phase = .pausing run steps) : Dismisses j run .withdrawn
  | unconnected {steps : List ScriptStep} {turns : Nat} (hcancelled : j.cancelled = true)
      (hphase : j.phase = .starting run steps turns) : Dismisses j run .unconnected

def Farewell.turn (number : Nat) : Farewell → Turn
  | expired => .expire number
  | withdrawn | unconnected => .advance number

inductive Mark where
  /-- a formatting request has arrived and got a number -/
  | arrived (job : Nat) (uri : String)
  /-- the client was asked for the settings of a request's document -/
  | asked (job : Nat) (uri : String)
  /-- the settings from the client's answer were kept, and the request goes on with them -/
  | kept (job : Nat) (uri : String) (settings : Settings)
  /-- a request goes on with settings that were kept before -/
  | used (job : Nat) (uri : String) (settings : Settings)
  /-- a request goes on with the settings of all documents, as the client is not asked -/
  | shared (job : Nat) (uri : String) (settings : Settings)
  /-- a document was closed, and its kept settings were dropped -/
  | dropped (uri : String)
  /-- the client's settings changed, and all kept settings were dropped -/
  | cleared
  /-- a request has parted with its process -/
  | ended (pid : Nat) (how : Ending)
  deriving DecidableEq, Repr

def Mark.goesOn? : Mark → Option (Nat × String × Settings)
  | kept job uri settings | used job uri settings | shared job uri settings => some (job, uri, settings)
  | _ => none

namespace Session

/-- The end that the next step of a process is for its request. -/
def endOfStep (p : Process) : List ScriptStep → Option Ending
  | [] => some .exited
  | .output stream bytes :: _ => if (p.hear stream bytes).overrun.isSome then some .overran else none
  | _ => none

def observeBegin (s : Session) (j : Job) : Option Mark :=
  match s.workspace with
  | none => none
  | some w =>
    if !w.store.contains j.uri then none
    else if !s.configuration then some (.shared j.number j.uri s.cache.globals)
    else match s.cache.find? j.uri with
      | some settings => some (.used j.number j.uri settings)
      | none => some (.asked j.number j.uri)

def observeAdvance (s : Session) (j : Job) : Option Mark :=
  match j.phase, j.cancelled with
  | .starting run _ _, true => some (.ended run.process.pid (run.process.ending .unconnected))
  | .playing run _, true | .pausing run _, true =>
    some (.ended run.process.pid (run.process.ending .withdrawn))
  | .playing run steps, false => (endOfStep run.process steps).map (.ended run.process.pid)
  | .accepted, false => s.observeBegin j
  | .answered (.settings v), false =>
    match s.cache.settle j.uri v with
    | .ok (settings, _) => some (.kept j.number j.uri settings)
    | .error _ => none
  | _, _ => none

def observeWake (j : Job) : Option Mark :=
  match j.phase with
  | .pausing run steps => (endOfStep run.process steps).map (.ended run.process.pid)
  | _ => none

def observeExpire (j : Job) : Option Mark :=
  match j.phase, j.cancelled with
  | .playing run _, false | .pausing run _, false => some (.ended run.process.pid (run.process.ending .expired))
  | _, _ => none

def observeTurn (s : Session) : Turn → Option Mark
  | .advance number => (s.job? number).bind s.observeAdvance
  | .wake number => (s.job? number).bind observeWake
  | .expire number => (s.job? number).bind observeExpire
  | .closed uri => some (.dropped uri)
  | _ => none

def observeMessage (s : Session) : Incoming → Option Mark
  | .call _ (.format uri _) => some (.arrived s.nextJob uri)
  | .notice (.configured _) => if s.configuration then some .cleared else none
  | _ => none

def observe (s : Session) : Move → Option Mark
  | .receive (.ok m) => if s.status = .running then s.observeMessage m else none
  | .turn t => s.observeTurn t
  | _ => none

end Session

/-! ## Histories -/

/-- What holds of each entry of a list and those before it holds with one more at the end. -/
theorem forall_split_concat {α : Type} {P : List α → α → Prop} {xs : List α}
    (h : ∀ a x b, xs = a ++ x :: b → P a x) {x : α} (hx : P xs x) :
    ∀ a y b, xs ++ [x] = a ++ y :: b → P a y := by
  intro a y b hsplit
  rcases List.eq_nil_or_concat b with rfl | ⟨b, z, rfl⟩
  · obtain ⟨rfl, heq⟩ := List.append_inj' hsplit rfl
    obtain rfl := List.singleton_inj.mp heq
    exact hx
  · rw [List.concat_eq_append, ← List.cons_append, ← List.append_assoc] at hsplit
    obtain ⟨hxs, _⟩ := List.append_inj' hsplit rfl
    exact h a y b hxs

/-- Of two entries of a list, one stands before the other. -/
theorem split_cases {α : Type} {p q a b : List α} {x y : α} (h : p ++ x :: q = a ++ y :: b)
    (hne : x ≠ y) :
    (∃ c, a = p ++ x :: c ∧ q = c ++ y :: b) ∨ ∃ c, p = a ++ y :: c ∧ b = c ++ x :: q := by
  rcases List.append_eq_append_iff.mp h with ⟨c, ha, hq⟩ | ⟨c, hp, hb⟩
  · cases c with
    | nil => exact absurd (List.cons.inj hq).1 hne
    | cons z c =>
      obtain ⟨rfl, htail⟩ := List.cons.inj hq
      exact Or.inl ⟨c, ha, htail⟩
  · cases c with
    | nil => exact absurd (List.cons.inj hb).1.symm hne
    | cons z c =>
      obtain ⟨rfl, htail⟩ := List.cons.inj hb
      exact Or.inr ⟨c, hp, htail⟩

/-- An entry that is in neither part of a list stands in between. -/
theorem split_unique {α : Type} {p q a b : List α} {x y : α} (h : p ++ x :: q = a ++ y :: b)
    (hp : y ∉ p) (hq : y ∉ q) : a = p := by
  rcases List.append_eq_append_iff.mp h with ⟨c, rfl, htail⟩ | ⟨c, rfl, htail⟩
  · cases c with
    | nil => exact List.append_nil p
    | cons z c =>
      obtain ⟨-, rfl⟩ := List.cons.inj htail
      exact absurd (List.mem_append_right c List.mem_cons_self) hq
  · cases c with
    | nil => exact (List.append_nil a).symm
    | cons z c =>
      obtain ⟨rfl, -⟩ := List.cons.inj htail
      exact absurd (List.mem_append_right a List.mem_cons_self) hp

open Session

/-- Overrides that are nothing stand for no overrides. -/
theorem Settings.merged_overrides (t : Settings) (overrides : Value) :
    t.merged (if overrides.isFalsy then .map [] else overrides) = t.merged overrides := by
  split
  · next hfalsy =>
    have hempty : (Value.map []).isFalsy = true := rfl
    simp only [merged, hempty, hfalsy, if_true]
  · rfl

/-- What a session starts with: the defaults with the overrides on top, and nothing that has been done. -/
theorem Session.eq_of_start {overrides : Value} {directory : Path} {pids : Nat → Nat} {disk : Disk}
    {s : Session} (h : Session.start overrides directory pids disk = .ok s) :
    ∃ globals, Settings.merged {} overrides = .ok globals ∧
      s = { overrides := if overrides.isFalsy then .map [] else overrides, directory, pids, disk
            cache := { globals } } := by
  simp only [Session.start, bind, Except.bind, Settings.merged_overrides] at h
  cases hmerged : Settings.merged {} overrides with
  | error e => simp [hmerged] at h
  | ok globals =>
    rw [hmerged] at h
    exact ⟨globals, rfl, (Except.ok.inj h).symm⟩

/-- A session can have come to a state, and this is what its moves have done, the first in front. -/
inductive History : List Mark → Session → Prop where
  | start {overrides : Value} {directory : Path} {pids : Nat → Nat} {disk : Disk} {s : Session}
      (h : Session.start overrides directory pids disk = .ok s) : History [] s
  | move {marks : List Mark} {s : Session} (h : History marks s) (m : Move) :
      History (marks ++ (s.observe m).toList) (s.act m)

theorem History.reorder {marks : List Mark} {s : Session} (h : History marks s)
    (ready : List Turn) (timers : TimerHeap Turn) (now : Nat) :
    History marks { s with ready, timers, now } := by
  have hmove := h.move (.reorder ready timers now)
  rwa [show s.observe (.reorder ready timers now) = none from rfl, Option.toList_none,
    List.append_nil] at hmove

theorem History.surround {marks : List Mark} {s : Session} (h : History marks s)
    (script : Script) (reply : ClientReply) (disk : Disk) :
    History marks { s with script, reply, disk } := by
  have hmove := h.move (.surround script reply disk)
  rwa [show s.observe (.surround script reply disk) = none from rfl, Option.toList_none,
    List.append_nil] at hmove

def Session.run (s : Session) (moves : List Move) : Session := moves.foldl act s

theorem Session.run_append (s : Session) (a b : List Move) : s.run (a ++ b) = (s.run a).run b :=
  List.foldl_append

def Session.marks (s : Session) : List Move → List Mark
  | [] => []
  | m :: rest => (s.observe m).toList ++ (s.act m).marks rest

/-- A history goes on with any moves. -/
theorem History.run {marks : List Mark} {s : Session} (h : History marks s) (moves : List Move) :
    History (marks ++ s.marks moves) (s.run moves) := by
  induction moves generalizing marks s with
  | nil => simpa [Session.marks, Session.run] using h
  | cons m rest ih =>
    rw [Session.marks, ← List.append_assoc]
    exact ih (h.move m)

/-! ## Sessions left alone -/

namespace Session

/-- Time has passed: the timers and the clock are others, and turns have come to the queue. -/
def Drifts (s s' : Session) : Prop :=
  ∃ more timers now, s' = { s with ready := s.ready ++ more, timers, now }

inductive Elapses (s : Session) : Session → Prop where
  /-- the first timer has nothing to do any more, and is dropped -/
  | drop {t : Timer Turn} (ht : s.timers.first? = some t) (hstale : s.isStale t.event = true) :
      Elapses s { s with timers := s.timers.pop }
  /-- the first timer is due, and its turn comes to the queue -/
  | fire {t : Timer Turn} (ht : s.timers.first? = some t) (hdue : isDue s.now t.due = true) :
      Elapses s ({ s with timers := s.timers.pop }.enqueue t.event)
  | pass (time : Nat) : Elapses s (s.passTo time)

theorem Elapses.drifts {s s' : Session} (h : s.Elapses s') : s.Drifts s' := by
  cases h with
  | drop ht hstale => exact ⟨[], s.timers.pop, s.now, by rw [List.append_nil]⟩
  | @fire t ht hdue => exact ⟨[t.event], s.timers.pop, s.now, rfl⟩
  | pass time => exact ⟨[], s.timers, max s.now time, by rw [List.append_nil]; rfl⟩

/-- A relation between a session and what becomes of it while nothing comes from outside. -/
structure Unattended (R : Session → Session → Prop) : Prop where
  refl : ∀ s, R s s
  trans : ∀ {s₁ s₂ s₃}, R s₁ s₂ → R s₂ s₃ → R s₁ s₃
  elapse : ∀ {s s'}, s.Elapses s' → R s s'
  /-- all turns of the queue are taken -/
  turns : ∀ s, R s (s.ready.foldl take { s with ready := [] })

namespace Unattended

variable {R : Session → Session → Prop}

theorem dropStale (h : Unattended R) (n : Nat) (s : Session) : R s (s.dropStale n) := by
  induction n generalizing s with
  | zero => exact h.refl s
  | succ n ih =>
    rw [Session.dropStale]
    split
    · next t ht =>
      split
      · next hstale => exact h.trans (h.elapse (.drop ht hstale)) (ih _)
      · exact h.refl s
    · exact h.refl s

theorem fire (h : Unattended R) (n : Nat) (s : Session) : R s (s.fire n) := by
  induction n generalizing s with
  | zero => exact h.refl s
  | succ n ih =>
    rw [Session.fire]
    split
    · next t ht =>
      split
      · next hdue => exact h.trans (h.elapse (.fire ht hdue)) (ih _)
      · exact h.refl s
    · exact h.refl s

theorem round (h : Unattended R) (s : Session) : R s s.round :=
  h.trans (h.trans (h.dropStale s.timers.size s) (h.fire s.freshen.timers.size s.freshen)) (h.turns _)

theorem settleDown (h : Unattended R) (s : Session) : R s s.settleDown := by
  have hgo : ∀ n s, R s (Session.settleDown.go n s) := by
    intro n
    induction n with
    | zero => exact h.refl
    | succ n ih => exact fun s => h.trans (h.round s) (ih _)
  exact hgo _ s

theorem passUntil (h : Unattended R) (deadline n : Nat) (s : Session) :
    R s (s.passUntil deadline n) := by
  have hpass : ∀ s : Session, R s (s.passTo deadline) := fun s => h.elapse (.pass deadline)
  induction n generalizing s with
  | zero => exact hpass s
  | succ n ih =>
    have hfresh : R s s.freshen := h.dropStale _ _
    rw [Session.passUntil]
    split
    · split
      · exact h.trans hfresh (h.trans (h.elapse (.pass _)) (h.trans (h.settleDown _) (ih _)))
      · exact h.trans hfresh (hpass _)
    · exact h.trans hfresh (hpass _)

theorem wait (h : Unattended R) (ticks : Nat) (s : Session) : R s (s.wait ticks) := by
  rw [Session.wait]
  split
  · exact h.refl s
  · exact h.passUntil _ _ s

end Unattended

def GoesOn (s s' : Session) : Prop :=
  ∀ marks, History marks s → ∃ more, History (marks ++ more) s'

theorem GoesOn.foldl_act {α : Type} (f : Session → α → Session) (toMove : α → Move)
    (hf : ∀ s x, f s x = s.act (toMove x)) (xs : List α) (s : Session) : s.GoesOn (xs.foldl f s) := by
  intro marks h
  have hfoldl : xs.foldl f s = s.run (xs.map toMove) := by
    rw [Session.run, List.foldl_map]
    congr
    funext s x
    exact hf s x
  exact ⟨_, hfoldl ▸ h.run (xs.map toMove)⟩

theorem unattended_goesOn : Unattended GoesOn where
  refl s marks h := ⟨[], by rwa [List.append_nil]⟩
  trans h h' marks hmarks := by
    obtain ⟨more, hmore⟩ := h marks hmarks
    obtain ⟨rest, hrest⟩ := h' _ hmore
    exact ⟨more ++ rest, by rwa [← List.append_assoc]⟩
  elapse := by
    intro s s' helapse marks h
    obtain ⟨more, timers, now, rfl⟩ := helapse.drifts
    exact ⟨[], by rw [List.append_nil]; exact h.reorder (s.ready ++ more) timers now⟩
  turns s marks h :=
    GoesOn.foldl_act _ .turn (fun _ _ => rfl) s.ready _ _ (h.reorder [] s.timers s.now)

end Session

/-- **Delivering messages only makes moves.** -/
theorem History.deliver {marks : List Mark} {s : Session} (h : History marks s)
    (messages : List (Except MessageFault Incoming)) :
    ∃ more, History (marks ++ more) (s.deliver messages) :=
  unattended_goesOn.trans (GoesOn.foldl_act _ .receive (fun _ _ => rfl) messages s)
    (unattended_goesOn.settleDown _) marks h

/-- **Letting time pass only makes moves.** -/
theorem History.wait {marks : List Mark} {s : Session} (h : History marks s) (ticks : Nat) :
    ∃ more, History (marks ++ more) (s.wait ticks) :=
  unattended_goesOn.wait ticks s marks h

end FormatServer
