import FormatServer.Proofs.Session.Request
import FormatServer.Proofs.Session.Turns

/-!
Where requests come from, and that they do not come back. A number is given to a request when it arrives
(`arrival_of_new`), so every request has its identifier from a call (`arrived_run`), and of one that has been
answered nothing is heard any more (`gone_run`).
-/

namespace FormatServer

open Session

namespace Session

variable {s : Session} {j : Job} {n : Nat} {x : Move} {marks : List Mark}

/-! ## Requests that are no more -/

/-- Of a request that is no more nothing is heard, and it does not come back. -/
theorem gone_act (hj : s.job? n = none) (hnext : n < s.nextJob) (x : Move) :
    (s.act x).job? n = none ∧ s.heardOf n x = [] := by
  have hbegun : ∀ j, s.job? n = some j → j.begun = true := by simp [hj]
  cases ho : s.own? n x with
  | none => exact ⟨(job?_of_other hbegun hnext ho).trans hj, heardOf_of_other ho⟩
  | some o =>
    have hown := alone_own (e := []) hbegun hnext ho
    rw [Solo.act_of_none (c := s.alone n []) hj] at hown
    obtain ⟨hjob, -, hheard⟩ := Solo.mk.inj hown
    exact ⟨hjob.trans hj, hheard⟩

theorem gone_run (hj : s.job? n = none) (hnext : n < s.nextJob) (moves : List Move) :
    (s.run moves).job? n = none ∧ s.heard n moves = [] := by
  induction moves generalizing s with
  | nil => exact ⟨hj, rfl⟩
  | cons x rest ih =>
    obtain ⟨hgone, hheard⟩ := gone_act hj hnext x
    obtain ⟨hrun, hrest⟩ := ih hgone (Nat.lt_of_lt_of_le hnext (nextJob_le s x))
    exact ⟨hrun, by rw [heard, hheard, hrest]; rfl⟩

/-- A move changes neither the identifier of a request nor what it is about. -/
theorem Treats.same {j' : Job} {events : List SessionEvent} (h : s.Treats j x (some j') events) :
    j'.id = j.id ∧ j'.uri = j.uri ∧ j'.range = j.range := by
  cases h <;> exact ⟨rfl, rfl, rfl⟩

theorem same_run {j' : Job} (hj : s.job? n = some j) (hnext : n < s.nextJob) {moves : List Move}
    (hj' : (s.run moves).job? n = some j') : j'.id = j.id := by
  induction moves generalizing s j with
  | nil =>
    obtain rfl := Option.some.inj (hj.symm.trans hj')
    rfl
  | cons x rest ih =>
    have hnext' := Nat.lt_of_lt_of_le hnext (nextJob_le s x)
    have htreats := treats_act hj x
    cases hj₁ : (s.act x).job? n with
    | none =>
      rw [show (s.run (x :: rest)).job? n = none from (gone_run hj₁ hnext' rest).1] at hj'
      cases hj'
    | some j₁ =>
      rw [hj₁] at htreats
      exact (ih hj₁ hnext' hj').trans htreats.same.1

/-! ## Requests that arrive -/

private theorem turnwise_nextJob : Turnwise fun s s' => s'.nextJob = s.nextJob where
  refl _ := rfl
  trans h h' := h'.trans h
  does _ _ _ _ _ _ _ := rfl
  keep _ _ := rfl
  enqueue _ _ := rfl
  wait _ _ _ _ := rfl
  proceed _ _ _ := rfl
  finish _ _ _ := rfl

/-- A number is only given to a request that arrives. -/
private theorem arrived_of_lt_nextJob (h : History marks s) (hlt : s.nextJob < (s.act x).nextJob) :
    s.status = .running ∧ ∃ id uri range, x = .receive (.ok (.call id (.format uri range))) := by
  cases x with
  | turn t => exact absurd (turnwise_nextJob.take s t) (Nat.ne_of_gt hlt)
  | reorder ready timers now => exact absurd hlt (Nat.lt_irrefl _)
  | surround script reply disk => exact absurd hlt (Nat.lt_irrefl _)
  | receive m =>
    have hstep := work_act h.numbered.distinct (.receive m)
    have harrives : ∃ k u, s.observe (.receive m) = some (.arrived k u) := by
      by_contra hno
      simp only [not_exists] at hno
      exact absurd (hstep.nextTask hno) (Nat.ne_of_gt hlt)
    obtain ⟨k, u, hmark⟩ := harrives
    cases m with
    | error fault => cases hmark
    | ok m =>
      simp only [observe] at hmark
      split at hmark
      · next hrunning =>
        unfold observeMessage at hmark
        split at hmark
        · exact ⟨hrunning, _, _, _, rfl⟩
        · split at hmark <;> cases hmark
        · cases hmark
      · cases hmark

/-- The request that arrives with a formatting call. -/
theorem job?_arrival (hrunning : s.status = .running) (hnone : s.job? s.nextJob = none) (id : RequestId)
    (uri : String) (range : Option TextRange) :
    (s.act (.receive (.ok (.call id (.format uri range))))).job? s.nextJob =
      some { number := s.nextJob, id, uri, range } := by
  have hact : s.act (.receive (.ok (.call id (.format uri range)))) = s.accept id uri range :=
    receive_call hrunning id (.format uri range)
  rw [hact, accept, job?]
  change List.find? _ (s.jobs ++ [_]) = _
  rw [List.find?_append, show s.jobs.find? _ = none from hnone]
  simp

/-- A request that comes into being in a move is the one of a formatting call that arrives. -/
theorem arrival_of_new (h : History marks s) (hnone : s.job? n = none)
    (hj : (s.act x).job? n = some j) :
    x = .receive (.ok (.call j.id (.format j.uri j.range))) ∧ n = s.nextJob ∧ j.phase = .accepted := by
  have hge : s.nextJob ≤ n := by
    by_contra hlt
    rw [(gone_act hnone (Nat.lt_of_not_le hlt) x).1] at hj
    cases hj
  have hlt : s.nextJob < (s.act x).nextJob := Nat.lt_of_le_of_lt hge (lt_nextJob (h.move x) hj)
  obtain ⟨hrunning, id, uri, range, rfl⟩ := arrived_of_lt_nextJob h hlt
  have hn : n = s.nextJob := ((hears_receive s _).new n j hnone hj).1
  subst hn
  rw [job?_arrival hrunning hnone] at hj
  obtain rfl := Option.some.inj hj
  exact ⟨rfl, rfl, rfl⟩

/-- **Every request of a session came with a call**, from which it has its identifier and its number. -/
theorem arrived_run {overrides : Value} {directory : Path} {pids : Nat → Nat} {disk : Disk}
    {first : Session} (hstart : Session.start overrides directory pids disk = .ok first) {moves : List Move}
    (hj : (first.run moves).job? n = some j) :
    ∃ earlier later, moves = earlier ++ .receive (.ok (.call j.id (.format j.uri j.range))) :: later ∧
      n = (first.run earlier).nextJob := by
  induction moves using List.reverseRecOn generalizing j with
  | nil =>
    obtain ⟨globals, -, rfl⟩ := eq_of_start hstart
    cases hj
  | append_singleton moves x ih =>
    rw [run_append] at hj
    change ((first.run moves).act x).job? n = some j at hj
    cases hj₀ : (first.run moves).job? n with
    | none =>
      obtain ⟨rfl, hn, -⟩ := arrival_of_new ((History.start hstart).run moves) hj₀ hj
      exact ⟨moves, [], rfl, hn⟩
    | some j₀ =>
      have htreats := treats_act hj₀ x
      rw [hj] at htreats
      obtain ⟨hid, huri, hrange⟩ := htreats.same
      obtain ⟨earlier, later, hsplit, hn⟩ := ih hj₀
      rw [hid, huri, hrange]
      exact ⟨earlier, later ++ [x], by rw [hsplit, List.append_assoc, List.cons_append], hn⟩

end Session

end FormatServer
