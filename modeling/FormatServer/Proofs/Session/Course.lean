import FormatServer.Proofs.Document.Store
import FormatServer.Proofs.Session.History

/-!
A session as it goes on: messages arrive at any moment, and a turn that is left behind waits until it is taken,
in whatever order. A course notes what happens to the open documents besides the marks of its moves, so it is a
history (`Course.history`). Delivering messages and letting time pass are courses (`Course.deliver`,
`Course.wait`).
-/

namespace FormatServer

/-! ## What happens -/

/-- What happens in a session: a move leaves a mark, or it opens or closes documents. -/
inductive Happening where
  | mark (x : Mark)
  /-- a document was opened, with this URI -/
  | opened (uri : String)
  /-- a document was closed, by this URI -/
  | shut (uri : String)
  /-- a client made itself known, and its workspace starts without documents -/
  | reset
  deriving DecidableEq, Repr

namespace Happening

def mark? : Happening → Option Mark
  | mark x => some x
  | _ => none

/-- The document of a URI is opened, by whatever spelling. -/
def opens (uri : String) : Happening → Bool
  | opened u => Uri.decode u = Uri.decode uri
  | _ => false

/-- The document of a URI is closed, by whatever spelling. -/
def closes (uri : String) : Happening → Bool
  | shut u => Uri.decode u = Uri.decode uri
  | reset => true
  | _ => false

def openNext (uri : String) (isOpen : Bool) (x : Happening) : Bool :=
  x.opens uri || (isOpen && !x.closes uri)

def closingNext (uri : String) (closing : Bool) (x : Happening) : Bool :=
  x = shut uri || (closing && x ≠ mark (.dropped uri))

theorem opens_of_closes {uri : String} {x : Happening} (h : x.closes uri = true) :
    x.opens uri = false := by
  cases x with
  | opened u => cases h
  | _ => rfl

/-- A mark neither opens nor closes a document. -/
@[simp] theorem openNext_mark (uri : String) (isOpen : Bool) (x : Mark) :
    openNext uri isOpen (mark x) = isOpen := by
  simp [openNext, opens, closes]

end Happening

open Happening

def openAfter (uri : String) (es : List Happening) : Bool := es.foldl (openNext uri) false

def closingAfter (uri : String) (es : List Happening) : Bool := es.foldl (closingNext uri) false

theorem openAfter_concat (uri : String) (es : List Happening) (x : Happening) :
    openAfter uri (es ++ [x]) = openNext uri (openAfter uri es) x := by
  rw [openAfter, List.foldl_append]
  rfl

theorem closingAfter_concat (uri : String) (es : List Happening) (x : Happening) :
    closingAfter uri (es ++ [x]) = closingNext uri (closingAfter uri es) x := by
  rw [closingAfter, List.foldl_append]
  rfl

namespace Session

def isOpen (s : Session) (uri : String) : Bool := s.workspace.any (·.store.contains uri)

def observeDocuments (s : Session) : Incoming → Option Happening
  | .notice (.opened d) =>
    s.workspace.bind fun w => (w.store.openDocument d).toOption.map fun _ => .opened d.uri
  | .notice (.closed uri) => s.workspace.map fun _ => .shut uri
  | .call _ (.handshake c) => (Uri.parse (c.rootUri.getD "").toList).toOption.map fun _ => .reset
  | _ => none

def happening (s : Session) : Move → Option Happening
  | .receive (.ok m) =>
    if s.status = .running then (s.observeDocuments m).or ((s.observeMessage m).map .mark) else none
  | m => (s.observe m).map .mark

end Session

/-! ## Courses -/

open Session

/-- A session can have come to a state in which these turns of a round are yet to be taken, besides those in
the queue, and this is what has happened, the first in front. -/
inductive Course : List Happening → List Turn → Session → Prop where
  | start {overrides : Value} {directory : Path} {pids : Nat → Nat} {disk : Disk} {s : Session}
      (h : Session.start overrides directory pids disk = .ok s) : Course [] [] s
  | receive {es : List Happening} {turns : List Turn} {s : Session} (h : Course es turns s)
      (m : Except MessageFault Incoming) :
      Course (es ++ (s.happening (.receive m)).toList) turns (s.receive m)
  /-- the turns of the queue are put to those that are to be taken -/
  | gather {es : List Happening} {turns : List Turn} {s : Session} (h : Course es turns s) :
      Course es (turns ++ s.ready) { s with ready := [] }
  /-- any of the turns is taken -/
  | take {es : List Happening} {before after : List Turn} {t : Turn} {s : Session}
      (h : Course es (before ++ t :: after) s) :
      Course (es ++ (s.happening (.turn t)).toList) (before ++ after) (s.take t)
  | drift {es : List Happening} {turns : List Turn} {s s' : Session} (h : Course es turns s)
      (hdrift : s.Drifts s') : Course es turns s'
  | surround {es : List Happening} {turns : List Turn} {s : Session} (h : Course es turns s)
      (script : Script) (reply : ClientReply) (disk : Disk) :
      Course es turns { s with script, reply, disk }

theorem happening_turn (s : Session) (t : Turn) :
    s.happening (.turn t) = (s.observeTurn t).map .mark := rfl

/-- What happens in a move and leaves a mark is what the move is observed to do. -/
theorem mark?_happening (s : Session) (m : Move) :
    (s.happening m).toList.filterMap mark? = (s.observe m).toList := by
  have hmarks : ∀ x : Option Mark, (x.map Happening.mark).toList.filterMap mark? = x.toList := by
    intro x
    cases x <;> rfl
  cases m with
  | receive m =>
    cases m with
    | error fault => rfl
    | ok m =>
      simp only [happening, observe]
      split
      · cases hdocuments : s.observeDocuments m with
        | none => exact hmarks _
        | some x =>
          -- Messages that open or close documents leave no marks.
          have hx : mark? x = none ∧ s.observeMessage m = none := by
            unfold observeDocuments at hdocuments
            split at hdocuments
            · obtain ⟨w, _, hw⟩ := Option.bind_eq_some_iff.mp hdocuments
              obtain ⟨_, _, rfl⟩ := Option.map_eq_some_iff.mp hw
              exact ⟨rfl, rfl⟩
            · obtain ⟨_, _, rfl⟩ := Option.map_eq_some_iff.mp hdocuments
              exact ⟨rfl, rfl⟩
            · obtain ⟨_, _, rfl⟩ := Option.map_eq_some_iff.mp hdocuments
              exact ⟨rfl, rfl⟩
            · cases hdocuments
          simp [hx.1, hx.2]
      · rfl
  | turn t => exact hmarks _
  | reorder ready timers now => rfl
  | surround script reply disk => rfl

/-- **A course is a history.** -/
theorem Course.history {es : List Happening} {turns : List Turn} {s : Session}
    (h : Course es turns s) : History (es.filterMap mark?) s := by
  induction h with
  | start h => exact .start h
  | receive _ m ih =>
    rw [List.filterMap_append, mark?_happening]
    exact ih.move (.receive m)
  | gather _ ih => exact ih.reorder [] _ _
  | @take es before after t s _ ih =>
    rw [List.filterMap_append, mark?_happening]
    exact ih.move (.turn t)
  | drift _ hdrift ih =>
    obtain ⟨more, timers, now, rfl⟩ := hdrift
    exact ih.reorder _ timers now
  | surround _ script reply disk ih => exact ih.surround script reply disk

/-! ## Courses of sessions -/

namespace Session

/-- Whatever course a session has taken, it goes on to another one; in between all turns are taken that a round
has begun with. -/
def RunsOn (s s' : Session) : Prop := ∀ es, Course es [] s → ∃ more, Course (es ++ more) [] s'

private theorem course_turns {es : List Happening} {turns : List Turn} {s : Session}
    (h : Course es turns s) : ∃ more, Course (es ++ more) [] (turns.foldl Session.take s) := by
  induction turns generalizing es s with
  | nil => exact ⟨[], by rwa [List.append_nil]⟩
  | cons t rest ih =>
    have hfirst : Course es ([] ++ t :: rest) s := h
    have htake : Course (es ++ (s.happening (.turn t)).toList) ([] ++ rest) (s.take t) :=
      hfirst.take
    obtain ⟨more, hmore⟩ := ih htake
    exact ⟨_, by rwa [List.append_assoc] at hmore⟩

theorem unattended_runsOn : Unattended RunsOn where
  refl s es h := ⟨[], by rwa [List.append_nil]⟩
  trans h h' es hes := by
    obtain ⟨more, hmore⟩ := h es hes
    obtain ⟨rest, hrest⟩ := h' _ hmore
    exact ⟨more ++ rest, by rwa [← List.append_assoc]⟩
  elapse helapse es h := ⟨[], by rw [List.append_nil]; exact h.drift helapse.drifts⟩
  turns s es h := course_turns h.gather

end Session

/-- **Delivering messages is a course.** -/
theorem Course.deliver {es : List Happening} {s : Session} (h : Course es [] s)
    (messages : List (Except MessageFault Incoming)) :
    ∃ more, Course (es ++ more) [] (s.deliver messages) := by
  have hreceive : ∃ more, Course (es ++ more) [] (messages.foldl Session.receive s) := by
    induction messages generalizing es s with
    | nil => exact ⟨[], by rwa [List.append_nil]⟩
    | cons m rest ih =>
      obtain ⟨more, hmore⟩ := ih (h.receive m)
      exact ⟨_, by rwa [List.append_assoc] at hmore⟩
  obtain ⟨more, hmore⟩ := hreceive
  obtain ⟨rest, hrest⟩ := unattended_runsOn.settleDown _ _ hmore
  exact ⟨_, by rwa [List.append_assoc] at hrest⟩

/-- **Letting time pass is a course.** -/
theorem Course.wait {es : List Happening} {s : Session} (h : Course es [] s) (ticks : Nat) :
    ∃ more, Course (es ++ more) [] (s.wait ticks) :=
  unattended_runsOn.wait ticks s es h

end FormatServer
