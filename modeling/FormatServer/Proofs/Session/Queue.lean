import FormatServer.Proofs.Session.OpenDocuments
import FormatServer.Proofs.Session.Request

/-!
Requests that have ended, in a course. Turns queue the next turn of a request that they end (`queues_take`), so
in the course of a session a request that has ended waits for a turn (`Course.ended`), which is the one in which
it is answered. When all turns are taken, no request is left without its answer (`Course.answered`).
-/

namespace FormatServer

namespace Session

/-- A session goes on, no turn is lost, and a request that ends has its next turn in the queue. -/
structure Queues (s s' : Session) : Prop where
  ready : s.ready <+: s'.ready
  ended : ∀ k j r, s'.job? k = some j → j.phase = .done r →
    (∃ j₀, s.job? k = some j₀ ∧ j₀.phase = .done r) ∨ .advance k ∈ s'.ready

theorem Queues.trans {s₁ s₂ s₃ : Session} (h : s₁.Queues s₂) (h' : s₂.Queues s₃) : s₁.Queues s₃ := by
  refine ⟨h.ready.trans h'.ready, fun k j r hj hdone => ?_⟩
  rcases h'.ended k j r hj hdone with ⟨j₀, hj₀, hdone₀⟩ | hmem
  · exact (h.ended k j₀ r hj₀ hdone₀).imp_right fun hmem => h'.ready.subset hmem
  · exact .inr hmem

/-- Requests are not touched. -/
private theorem queues_of_jobs {s s' : Session} (hjobs : s'.jobs = s.jobs)
    (hready : s.ready <+: s'.ready) : s.Queues s' := by
  refine ⟨hready, fun k j r hj hdone => .inl ⟨j, ?_, hdone⟩⟩
  rwa [job?, hjobs] at hj

private theorem queues_wait (s : Session) {j : Job} (hdone : ∀ r, j.phase ≠ .done r) :
    s.Queues (s.setJob j) := by
  refine ⟨List.prefix_rfl, fun k j' r hj' hdone' => .inl ⟨j', ?_, hdone'⟩⟩
  rw [job?_setJob] at hj'
  split at hj'
  · obtain ⟨_, _, rfl⟩ := Option.map_eq_some_iff.mp hj'
    exact absurd hdone' (hdone r)
  · exact hj'

private theorem queues_proceed (s : Session) (j : Job) (p : Phase) : s.Queues (s.proceed j p) := by
  refine ⟨List.prefix_append _ _, fun k j' r hj' hdone' => ?_⟩
  have hset : (s.proceed j p).job? k = (s.setJob { j with phase := p }).job? k := rfl
  rw [hset, job?_setJob] at hj'
  split at hj'
  · next hk =>
    subst hk
    exact .inr (List.mem_append_right _ (List.mem_singleton.mpr rfl))
  · exact .inl ⟨j', hj', hdone'⟩

private theorem queues_finish (s : Session) (j : Job) (r : Response) : s.Queues (s.finish j r) := by
  refine ⟨List.prefix_rfl, fun k j' r' hj' hdone => .inl ⟨j', ?_, hdone⟩⟩
  have hjob : (s.finish j r).job? k = if k = j.number then none else s.job? k :=
    find?_filter_ne Job.number s.jobs j.number k
  rw [hjob] at hj'
  split at hj'
  · cases hj'
  · exact hj'

private theorem turnwise_queues : Turnwise Queues where
  refl _ := queues_of_jobs rfl List.prefix_rfl
  trans := .trans
  does _ _ _ _ _ _ _ := queues_of_jobs rfl List.prefix_rfl
  keep _ _ := queues_of_jobs rfl List.prefix_rfl
  enqueue _ _ := queues_of_jobs rfl (List.prefix_append _ _)
  wait s _ _ hdone := queues_wait s hdone
  proceed := queues_proceed
  finish := queues_finish

/-- **Turns queue the next turn of a request that they end.** -/
theorem queues_take (s : Session) (t : Turn) : s.Queues (s.take t) := turnwise_queues.take s t

/-- A request that has ended leaves in its next turn. -/
private theorem job?_of_answered {s : Session} {n : Nat} {j : Job} {r : Response} (hj : s.job? n = some j)
    (hdone : j.phase = .done r) : (s.take (.advance n)).job? n = none := by
  have hmakes := makes_moved hj (by rw [Job.begun, hdone]) .advance
  simp only [Job.moved, Job.advances, hdone] at hmakes
  exact hmakes.job

/-- Messages end no request. -/
private theorem done_of_receive {s : Session} {m : Except MessageFault Incoming} {n : Nat} {j : Job}
    {r : Response} (hj : (s.receive m).job? n = some j) (hdone : j.phase = .done r) :
    ∃ j₀, s.job? n = some j₀ ∧ j₀.phase = .done r := by
  have hhears := hears_receive s m
  cases hj₀ : s.job? n with
  | none =>
    obtain ⟨-, haccepted⟩ := hhears.new n j hj₀ hj
    rw [haccepted] at hdone
    cases hdone
  | some j₀ =>
    rw [hhears.jobs n j₀ hj₀] at hj
    obtain rfl := Option.some.inj hj
    exact ⟨j₀, rfl, hdone⟩

end Session

/-! ## Courses -/

variable {es : List Happening} {turns : List Turn} {s : Session} {n : Nat} {j : Job} {r : Response}

/-- **A request that has ended waits for the turn in which it is answered.** -/
theorem Course.ended (h : Course es turns s) (hgoing : s.status ≠ .ended) (hj : s.job? n = some j)
    (hdone : j.phase = .done r) : .advance n ∈ turns ++ s.ready := by
  induction h generalizing j with
  | start h =>
    obtain ⟨globals, -, rfl⟩ := Session.eq_of_start h
    cases hj
  | @receive es turns s _ m ih =>
    obtain ⟨hready, -⟩ := (Session.receives s m).turns hgoing
    obtain ⟨j₀, hj₀, hdone₀⟩ := Session.done_of_receive hj hdone
    rcases List.mem_append.mp (ih (Session.going_of_receive hgoing) hj₀ hdone₀) with hmem | hmem
    · exact List.mem_append_left _ hmem
    · exact List.mem_append_right _ (hready.subset hmem)
  | gather _ ih =>
    rw [List.append_nil]
    exact ih hgoing hj hdone
  | @take es before after t s _ ih =>
    have hqueues := Session.queues_take s t
    rcases hqueues.ended n j r hj hdone with ⟨j₀, hj₀, hdone₀⟩ | hmem
    · -- The turn in which the request is answered is not this one, for it is still there.
      have hother : t ≠ .advance n := by
        rintro rfl
        rw [Session.job?_of_answered hj₀ hdone₀] at hj
        cases hj
      have hmem := ih ((Session.carries_take s t).status ▸ hgoing) hj₀ hdone₀
      simp only [List.mem_append, List.mem_cons, hother.symm, false_or] at hmem ⊢
      exact hmem.imp id fun hmem => hqueues.ready.subset hmem
    · exact List.mem_append_right _ hmem
  | drift _ hdrift ih =>
    obtain ⟨more, timers, now, rfl⟩ := hdrift
    rw [← List.append_assoc]
    exact List.mem_append_left _ (ih hgoing hj hdone)
  | surround _ script reply disk ih => exact ih hgoing hj hdone

/-- **When no turn is left no request has ended without its answer.** -/
theorem Course.answered (h : Course es [] s) (hrest : s.ready = []) (hgoing : s.status ≠ .ended)
    (hj : s.job? n = some j) : ∀ r, j.phase ≠ .done r := by
  intro r hdone
  have hmem := h.ended hgoing hj hdone
  rw [hrest] at hmem
  cases hmem

end FormatServer
