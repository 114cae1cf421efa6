import FormatServer.Proofs.Schedule.TimerHeap
import FormatServer.Proofs.Session.History

/-!
A session in its loop. A round takes the turns of the queue one by one; timers fire when they are due, and not before;
messages arrive at any moment. What is done is noted with the time. A loop only makes moves (`Loop.history`), and
delivering messages and letting time pass are beats of it (`Loop.exists_deliver`, `Loop.exists_wait`).
-/

namespace FormatServer

open Session

/-- A session in the course of a round. -/
structure Loop where
  session : Session
  /-- the turns of the round that are yet to be taken -/
  turns : List Turn := []

inductive Beat where
  | receive (m : Except MessageFault Incoming)
  /-- processes and clients behave otherwise from now on, or files change -/
  | surround (script : Script) (reply : ClientReply) (disk : Disk)
  /-- a round begins with the turns of the queue, when the last one is over -/
  | gather
  /-- the next turn of the round is taken -/
  | take
  /-- the first timer is dropped, if it has nothing to do any more -/
  | drop
  /-- the first timer fires, if it is due -/
  | fire
  | pass (time : Nat)

inductive Noted where
  | mark (x : Mark)
  /-- the output of a request's process is connected, with these steps before it -/
  | connected (job : Nat) (run : Run) (steps : List ScriptStep)

def Phase.connected? : Phase → Option (Run × List ScriptStep)
  | .playing run steps | .pausing run steps => some (run, steps)
  | _ => none

namespace Session

def connected? (s : Session) (number : Nat) : Option (Run × List ScriptStep) :=
  (s.job? number).bind (·.phase.connected?)

/-- The output of a process is connected in a turn. -/
def connects (s : Session) : Turn → Option Noted
  | .advance number =>
    if (s.connected? number).isSome then none
    else ((s.take (.advance number)).connected? number).map fun x => .connected number x.1 x.2
  | _ => none

end Session

namespace Loop

def beat (l : Loop) : Beat → Loop
  | .receive m => { l with session := l.session.receive m }
  | .surround script reply disk => { l with session := { l.session with script, reply, disk } }
  | .gather =>
    match l.turns with
    | [] => ⟨{ l.session with ready := [] }, l.session.ready⟩
    | _ => l
  | .take =>
    match l.turns with
    | [] => l
    | t :: rest => ⟨l.session.take t, rest⟩
  | .drop =>
    match l.session.timers.first? with
    | none => l
    | some t =>
      if l.session.isStale t.event then
        { l with session := { l.session with timers := l.session.timers.pop } }
      else l
  | .fire =>
    match l.session.timers.first? with
    | none => l
    | some t =>
      if isDue l.session.now t.due then
        { l with session := { l.session with timers := l.session.timers.pop }.enqueue t.event }
      else l
  | .pass time => { l with session := l.session.passTo time }

def run (l : Loop) (beats : List Beat) : Loop := beats.foldl beat l

def noted (l : Loop) : Beat → List Noted
  | .receive m => (l.session.observe (.receive m)).toList.map .mark
  | .take =>
    match l.turns with
    | [] => []
    | t :: _ => (l.session.observe (.turn t)).toList.map .mark ++ (l.session.connects t).toList
  | _ => []

/-- What is noted of a beat, with the time. -/
def entries (l : Loop) (b : Beat) : List (Nat × Noted) := (l.noted b).map (l.session.now, ·)

def log (l : Loop) : List Beat → List (Nat × Noted)
  | [] => []
  | b :: rest => l.entries b ++ (l.beat b).log rest

/-- Time passes in a beat only when there is nothing left to do, and not past a timer. -/
def OnTime (l : Loop) : Beat → Prop
  | .pass time => l.turns = [] ∧ l.session.ready = [] ∧ ∀ t ∈ l.session.timers.entries, time ≤ t.due
  | _ => True

def Punctual (l : Loop) : List Beat → Prop
  | [] => True
  | b :: rest => l.OnTime b ∧ (l.beat b).Punctual rest

instance (l : Loop) : (b : Beat) → Decidable (l.OnTime b)
  | .pass time => inferInstanceAs
      (Decidable (l.turns = [] ∧ l.session.ready = [] ∧ ∀ t ∈ l.session.timers.entries, time ≤ t.due))
  | .receive _ | .surround _ _ _ | .gather | .take | .drop | .fire => .isTrue trivial

instance decidablePunctual (l : Loop) : (beats : List Beat) → Decidable (l.Punctual beats)
  | [] => .isTrue trivial
  | b :: rest => @instDecidableAnd _ _ inferInstance (decidablePunctual (l.beat b) rest)

end Loop

def marksOf (log : List (Nat × Noted)) : List Mark :=
  log.filterMap fun
    | (_, .mark x) => some x
    | _ => none

@[simp] theorem marksOf_append (a b : List (Nat × Noted)) : marksOf (a ++ b) = marksOf a ++ marksOf b :=
  List.filterMap_append

namespace Loop

variable {l : Loop} {marks : List Mark}

theorem run_append (l : Loop) (a b : List Beat) : l.run (a ++ b) = (l.run a).run b := List.foldl_append

private theorem marksOf_marks (now : Nat) (x : Option Mark) :
    marksOf ((x.toList.map Noted.mark).map (now, ·)) = x.toList := by
  cases x <;> rfl

private theorem marksOf_connects (s : Session) (t : Turn) :
    marksOf ((s.connects t).toList.map (s.now, ·)) = [] := by
  unfold connects
  split
  · split
    · rfl
    · cases (s.take _).connected? _ <;> rfl
  · rfl

/-- **A beat is a move**, and what is noted of it is what the move is observed to do. Only turns that are at hand
are taken. -/
theorem exists_move (l : Loop) (b : Beat) : ∃ m, (l.beat b).session = l.session.act m ∧
    marksOf (l.entries b) = (l.session.observe m).toList ∧ ∀ t, m = .turn t → t ∈ l.turns := by
  have hdrift : ∀ {s' : Session} (ready : List Turn) (timers : TimerHeap Turn) (now : Nat),
      s' = { l.session with ready, timers, now } → ∃ m, s' = l.session.act m ∧
        marksOf [] = (l.session.observe m).toList ∧ ∀ t, m = .turn t → t ∈ l.turns :=
    fun ready timers now hs => ⟨.reorder ready timers now, hs, rfl, nofun⟩
  cases b with
  | receive m => exact ⟨.receive m, rfl, marksOf_marks _ _, nofun⟩
  | surround script reply disk => exact ⟨.surround script reply disk, rfl, rfl, nofun⟩
  | gather =>
    simp only [beat]
    split
    · exact hdrift [] _ _ rfl
    · exact hdrift _ _ _ rfl
  | take =>
    simp only [beat, entries, noted]
    split
    · exact hdrift _ _ _ rfl
    · next t rest hturns =>
      refine ⟨.turn t, rfl, ?_, fun t' ht' => ?_⟩
      · rw [List.map_append, marksOf_append, marksOf_marks, marksOf_connects, List.append_nil]
      · obtain rfl := Move.turn.inj ht'
        exact hturns ▸ List.mem_cons_self
  | drop =>
    simp only [beat]
    split
    · exact hdrift _ _ _ rfl
    · split
      · exact hdrift _ _ _ rfl
      · exact hdrift _ _ _ rfl
  | fire =>
    simp only [beat]
    split
    · exact hdrift _ _ _ rfl
    · split
      · exact hdrift _ _ _ rfl
      · exact hdrift _ _ _ rfl
  | pass time => exact hdrift _ _ _ rfl

theorem history_beat (h : History marks l.session) (b : Beat) :
    History (marks ++ marksOf (l.entries b)) (l.beat b).session := by
  obtain ⟨m, hact, hmarks, -⟩ := l.exists_move b
  rw [hact, hmarks]
  exact h.move m

/-- **A loop only makes moves.** -/
theorem history (h : History marks l.session) (beats : List Beat) :
    History (marks ++ marksOf (l.log beats)) (l.run beats).session := by
  induction beats generalizing l marks with
  | nil => rwa [log, show marksOf [] = [] from rfl, List.append_nil]
  | cons b rest ih =>
    rw [log, marksOf_append, ← List.append_assoc]
    exact ih (history_beat h b)

/-! ## Messages and time -/

/-- Between two rounds, a session goes on to another one in some beats. -/
def Leads (s s' : Session) : Prop := ∃ beats, run ⟨s, []⟩ beats = ⟨s', []⟩

theorem Leads.trans {s₁ s₂ s₃ : Session} (h : Leads s₁ s₂) (h' : Leads s₂ s₃) : Leads s₁ s₃ := by
  obtain ⟨a, ha⟩ := h
  obtain ⟨b, hb⟩ := h'
  exact ⟨a ++ b, by rw [run_append, ha, hb]⟩

private theorem run_takes (s : Session) (turns : List Turn) :
    run ⟨s, turns⟩ (turns.map fun _ => .take) = ⟨turns.foldl Session.take s, []⟩ := by
  induction turns generalizing s with
  | nil => rfl
  | cons t rest ih => exact ih (s.take t)

theorem unattended_leads : Unattended Leads where
  refl s := ⟨[], rfl⟩
  trans := .trans
  elapse := by
    intro s s' h
    cases h with
    | @drop t ht hstale => exact ⟨[.drop], by simp [run, beat, ht, hstale]⟩
    | @fire t ht hdue => exact ⟨[.fire], by simp [run, beat, ht, hdue]⟩
    | pass time => exact ⟨[.pass time], rfl⟩
  turns s := ⟨.gather :: s.ready.map fun _ => .take, run_takes _ s.ready⟩

/-- **Delivering messages is a matter of beats.** -/
theorem exists_deliver (s : Session) (messages : List (Except MessageFault Incoming)) :
    ∃ beats, run ⟨s, []⟩ beats = ⟨s.deliver messages, []⟩ := by
  have hreceive : Leads s (messages.foldl receive s) :=
    ⟨messages.map .receive, by
      rw [run, List.foldl_map]
      induction messages generalizing s with
      | nil => rfl
      | cons m rest ih => exact ih (s.receive m)⟩
  exact hreceive.trans (unattended_leads.settleDown _)

/-- **Letting time pass is a matter of beats.** -/
theorem exists_wait (s : Session) (ticks : Nat) : ∃ beats, run ⟨s, []⟩ beats = ⟨s.wait ticks, []⟩ :=
  unattended_leads.wait ticks s

end Loop

end FormatServer
