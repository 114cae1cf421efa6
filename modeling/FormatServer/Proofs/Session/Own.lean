import FormatServer.Proofs.Session.Moves
import FormatServer.Proofs.Session.Processes

/-!
The moves of a session that are one request's own, and what others see of them. A request whose run has begun
makes its own moves as it does by itself (`alone_own`), and no other move changes it (`job?_of_other`).
-/

namespace FormatServer

namespace Session

def Move.job? : Move → Option Nat
  | .turn t => t.own?.map Prod.fst
  | _ => none

/-- The move that a request makes in a move of a session. -/
def own? (s : Session) (number : Nat) : Move → Option OwnMove
  | .turn t => (t.own?.filter (·.1 = number)).map Prod.snd
  | .receive m => if number ∈ s.withdrawn m then some .withdraw else none
  | _ => none

def owned (s : Session) (number : Nat) : List Move → List OwnMove
  | [] => []
  | x :: rest => (s.own? number x).toList ++ (s.act x).owned number rest

def heardOf (s : Session) (number : Nat) (x : Move) : List SessionEvent :=
  if x.job? = some number then (s.act x).since s else []

def heard (s : Session) (number : Nat) : List Move → List SessionEvent
  | [] => []
  | x :: rest => s.heardOf number x ++ (s.act x).heard number rest

/-- A request of a session, which has done something before. -/
def alone (s : Session) (number : Nat) (events : List SessionEvent) : Solo :=
  { job := s.job? number, disk := s.disk, events }

variable {s : Session} {n : Nat} {x : Move} {marks : List Mark} {e : List SessionEvent}

theorem since_of_trace {s' : Session} {events : List SessionEvent}
    (h : s'.trace = s.trace ++ events) : s'.since s = events := by
  rw [since, h, List.drop_left]

theorem heardOf_of_makes {t : Turn} {o : OwnMove} {m : Moved} (ht : t.own? = some (n, o))
    (h : s.Makes n m (s.act (.turn t))) : s.heardOf n (.turn t) = m.events := by
  have hturn : (Move.turn t).job? = some n := by rw [Move.job?, ht, Option.map_some]
  rw [heardOf, if_pos hturn, since_of_trace h.trace]

theorem own?_turn {t : Turn} {o : OwnMove} :
    s.own? n (.turn t) = some o ↔ t.own? = some (n, o) := by
  simp only [own?, Option.map_eq_some_iff, Option.filter_eq_some_iff]
  constructor
  · rintro ⟨⟨k, o'⟩, ⟨ht, hk⟩, rfl⟩
    obtain rfl := of_decide_eq_true hk
    exact ht
  · intro ht
    exact ⟨(n, o), ⟨ht, by simp⟩, rfl⟩

theorem nextJob_le (s : Session) (x : Move) : s.nextJob ≤ (s.act x).nextJob := by
  have hdoes := does_act s x
  generalize s.act x = s' at hdoes
  cases hdoes with
  | moves ht hj hbegun h => exact Nat.le_of_eq h.nextJob.symm
  | starts hj hbegun hsettings h => exact Nat.le_of_eq h.nextJob.symm
  | idles hj hbegun h =>
    obtain ⟨j', events, -, hmakes⟩ := h
    exact Nat.le_of_eq hmakes.nextJob.symm
  | hears h => exact h.nextJob
  | plays ho h => exact Nat.le_of_eq h.nextJob.symm
  | surrounds script reply disk => exact Nat.le_refl _
  | rests hjobs horphans hdisk hnext => exact Nat.le_of_eq hnext.symm

theorem nextJob_le_run (s : Session) (moves : List Move) : s.nextJob ≤ (s.run moves).nextJob := by
  induction moves generalizing s with
  | nil => exact Nat.le_refl _
  | cons x rest ih => exact Nat.le_trans (nextJob_le s x) (ih (s.act x))

/-- The requests of a session have numbers below the next one. -/
theorem lt_nextJob {j : Job} (h : History marks s) (hj : s.job? n = some j) : n < s.nextJob := by
  refine h.numbered.below n ?_
  rw [← number_of_job? hj]
  simpa [Session.work] using ⟨j, List.mem_of_find?_eq_some hj, rfl⟩

/-- What others do leaves a request alone whose run has begun, and one that has been answered. -/
theorem job?_of_other (hbegun : ∀ j, s.job? n = some j → j.begun = true)
    (hnext : n < s.nextJob) (ho : s.own? n x = none) : (s.act x).job? n = s.job? n := by
  have hdoes := does_act s x
  generalize s.act x = s' at hdoes
  have hturn : ∀ {t : Turn} {k : Nat} {o : OwnMove}, x = .turn t → t.own? = some (k, o) → n ≠ k := by
    rintro t k o rfl ht rfl
    rw [own?_turn.mpr ht] at ho
    cases ho
  cases hdoes with
  | moves ht hj hb h => exact h.others n (hturn rfl ht)
  | starts hj hb hsettings h => exact h.others n (hturn rfl rfl)
  | @idles t k j _ hj hb h =>
    obtain ⟨j', events, -, hmakes⟩ := h
    refine hmakes.others n ?_
    rintro rfl
    rw [hbegun j hj] at hb
    cases hb
  | @hears m _ h =>
    have hno : n ∉ s.withdrawn m := by
      intro hmem
      simp [own?, hmem] at ho
    cases hj : s.job? n with
    | none =>
      cases hj' : s'.job? n with
      | none => rfl
      | some j => exact absurd (h.new n j hj hj').1 (Nat.ne_of_lt hnext)
    | some j => rw [h.jobs n j hj, decide_eq_false hno, Bool.or_false]
  | plays ho h => rw [job?, job?, h.jobs]
  | surrounds script reply disk => rfl
  | rests hjobs horphans hdisk hnext => rw [job?, job?, hjobs]

/-- The turn of a request is a move of its own. -/
theorem exists_own? (h : x.job? = some n) : ∃ t o, x = .turn t ∧ t.own? = some (n, o) := by
  cases x with
  | turn t =>
    obtain ⟨⟨k, o⟩, ht, rfl⟩ := Option.map_eq_some_iff.mp h
    exact ⟨t, o, rfl, ht⟩
  | _ => cases h

theorem job?_ne_of_other (ho : s.own? n x = none) : x.job? ≠ some n := by
  intro hturn
  obtain ⟨t, o, rfl, ht⟩ := exists_own? hturn
  rw [own?_turn.mpr ht] at ho
  cases ho

/-- Of the moves of others nothing is heard from a request. -/
theorem heardOf_of_other (ho : s.own? n x = none) : s.heardOf n x = [] :=
  if_neg (job?_ne_of_other ho)

/-- In a session a request makes its own moves as it does by itself. -/
theorem alone_own (hbegun : ∀ j, s.job? n = some j → j.begun = true)
    (hnext : n < s.nextJob) {o : OwnMove} (ho : s.own? n x = some o) :
    (s.act x).alone n (e ++ s.heardOf n x) = (s.alone n e).act o := by
  cases x with
  | turn t =>
    have ht := own?_turn.mp ho
    cases hj : s.job? n with
    | none =>
      have hnothing : s.act (.turn t) = s := by
        cases t <;> simp_all [Turn.own?, act, take, withJob]
      have hheard : s.heardOf n (.turn t) = [] := by
        rw [heardOf, hnothing, since, List.drop_length, ite_self]
      rw [hnothing, hheard, List.append_nil, Solo.act_of_none (c := s.alone n e) hj]
    | some j =>
      have hmakes := makes_moved hj (hbegun j hj) o
      rw [← take_of_own? ht] at hmakes
      change s.Makes n _ (s.act (.turn t)) at hmakes
      rw [Solo.act_of_some (c := s.alone n e) hj, alone, heardOf_of_makes ht hmakes, hmakes.job,
        hmakes.disk]
      rfl
  | receive m =>
    have hwithdrawn : n ∈ s.withdrawn m ∧ o = .withdraw := by
      rw [own?] at ho
      split at ho
      · next hmem => exact ⟨hmem, (Option.some.inj ho).symm⟩
      · cases ho
    obtain ⟨hmem, rfl⟩ := hwithdrawn
    have hheard : s.heardOf n (.receive m) = [] := if_neg (by simp [Move.job?])
    have hhears : s.Hears (s.withdrawn m) (s.act (.receive m)) := hears_receive s m
    rw [alone, hheard, List.append_nil, hhears.disk]
    cases hj : s.job? n with
    | none =>
      rw [Solo.act_of_none (c := s.alone n e) hj, alone, hj]
      cases hj' : (s.act (.receive m)).job? n with
      | none => rfl
      | some j => exact absurd (hhears.new n j hj hj').1 (Nat.ne_of_lt hnext)
    | some j =>
      rw [Solo.act_of_some (c := s.alone n e) hj, hhears.jobs n j hj]
      simp [Job.moved, hmem, alone]
  | _ => cases ho

end Session

end FormatServer
