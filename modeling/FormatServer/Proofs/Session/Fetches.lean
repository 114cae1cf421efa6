import Mathlib.Data.List.Induction
import FormatServer.Proofs.Lookup
import FormatServer.Proofs.Session.Simulation

/-!
Where the settings come from that requests go on with. What is kept for a document is what was kept for it last
and not dropped since (`latest`); what was kept was asked for before, once; and a process is started with the
settings that its request goes on with. Main statement (`kept_settings`): a request goes on with outdated
settings exactly when the change came while the client was being asked for them, after which they were kept all
the same.
-/

namespace FormatServer

namespace Mark

def invalidates (uri : String) : Mark → Bool
  | dropped u => u = uri
  | cleared => true
  | _ => false

/-- What is kept for a document, with the number of the request that asked for it, after a mark. -/
def keptAfter (uri : String) (kept : Option (Nat × Settings)) : Mark → Option (Nat × Settings)
  | .kept job u settings => if u = uri then some (job, settings) else kept
  | dropped u => if u = uri then none else kept
  | cleared => none
  | _ => kept

def fetcher? : Mark → Option Nat
  | asked job _ => some job
  | .kept job _ _ => some job
  | _ => none

def goer? (x : Mark) : Option Nat := x.goesOn?.map Prod.fst

end Mark

/-- What was kept for a document last and not dropped since, with the number of the request that asked for
it. -/
def latest (uri : String) (marks : List Mark) : Option (Nat × Settings) :=
  marks.foldl (Mark.keptAfter uri) none

def Ahead (before : List Mark) (job : Nat) : Prop := ∀ x ∈ before, x.goer? ≠ some job

/-- A mark that can follow after others: a request arrives once; it asks once, after it has arrived; an answer is
kept for a request that has asked; what a request goes on with otherwise is what was kept last, or the settings
of all documents; and it goes on once. -/
def Mark.Follows (before : List Mark) : Mark → Prop
  | arrived job _ => ∀ u, .arrived job u ∉ before
  | asked job uri => .arrived job uri ∈ before ∧ (∀ u, .asked job u ∉ before) ∧ Ahead before job
  | kept job uri _ => .asked job uri ∈ before ∧ Ahead before job
  | used job uri settings =>
    .arrived job uri ∈ before ∧ Ahead before job ∧ ∃ n, latest uri before = some (n, settings)
  | shared job uri _ => .arrived job uri ∈ before ∧ Ahead before job
  | _ => True

/-! ## What is kept -/

@[simp] theorem latest_concat (uri : String) (marks : List Mark) (x : Mark) :
    latest uri (marks ++ [x]) = x.keptAfter uri (latest uri marks) := by
  rw [latest, List.foldl_append]
  rfl

/-- **What is kept was kept by a mark after which no change came.** -/
theorem latest_split {uri : String} {marks : List Mark} {n : Nat} {v : Settings}
    (h : latest uri marks = some (n, v)) :
    ∃ a b, marks = a ++ .kept n uri v :: b ∧ ∀ x ∈ b, x.invalidates uri = false := by
  induction marks using List.reverseRecOn with
  | nil => exact absurd h (by simp [latest])
  | append_singleton marks x ih =>
    rw [latest_concat] at h
    have hold : x.invalidates uri = false → latest uri marks = some (n, v) →
        ∃ a b, marks ++ [x] = a ++ .kept n uri v :: b ∧ ∀ x ∈ b, x.invalidates uri = false := by
      intro hx hlatest
      obtain ⟨a, b, hsplit, hb⟩ := ih hlatest
      refine ⟨a, b ++ [x], by simp [hsplit], ?_⟩
      intro y hy
      rcases List.mem_append.mp hy with hy | hy
      · exact hb y hy
      · rwa [List.mem_singleton.mp hy]
    cases x with
    | kept job u settings =>
      by_cases hu : u = uri
      · simp only [Mark.keptAfter, hu, if_true, Option.some.injEq, Prod.mk.injEq] at h
        exact ⟨marks, [], by simp [hu, h.1, h.2], by simp⟩
      · exact hold rfl (by simpa [Mark.keptAfter, hu] using h)
    | dropped u =>
      by_cases hu : u = uri
      · simp [Mark.keptAfter, hu] at h
      · exact hold (by simp [Mark.invalidates, hu]) (by simpa [Mark.keptAfter, hu] using h)
    | cleared => simp [Mark.keptAfter] at h
    | arrived job u => exact hold rfl h
    | asked job u => exact hold rfl h
    | used job u settings => exact hold rfl h
    | shared job u settings => exact hold rfl h
    | ended pid how => exact hold rfl h

namespace Work

variable {w w' : Work} {x : Option Mark} {marks : List Mark}

/-! ## The invariant -/

structure Marked (marks : List Mark) (t : Task) : Prop where
  arrived : .arrived t.number t.uri ∈ marks
  fresh : t.standing = .fresh → ∀ u, .asked t.number u ∉ marks
  waiting : t.standing = .waiting → .asked t.number t.uri ∈ marks
  ahead : t.standing = .fresh ∨ t.standing = .waiting → Ahead marks t.number
  running : ∀ pid v, t.standing = .running pid v → ∃ x ∈ marks, x.goesOn? = some (t.number, t.uri, v)

structure Fetched (marks : List Mark) (w : Work) : Prop where
  follows : ∀ a x b, marks = a ++ x :: b → x.Follows a
  tasks : ∀ t ∈ w.tasks, Marked marks t
  below : ∀ n u, .arrived n u ∈ marks → n < w.nextTask
  settings : ∀ uri, w.settings.lookup uri = (latest uri marks).map Prod.snd

/-- A mark about other tasks changes nothing that the marks say of a task. -/
private theorem Marked.concat {t : Task} (h : Marked marks t) {x : Mark}
    (hfetcher : x.fetcher? ≠ some t.number) (hgoer : x.goer? ≠ some t.number) :
    Marked (marks ++ [x]) t where
  arrived := List.mem_append_left _ h.arrived
  fresh hfresh u := by
    have hasked : x ≠ .asked t.number u := by
      rintro rfl
      exact hfetcher rfl
    simpa [hasked.symm] using h.fresh hfresh u
  waiting hwaiting := List.mem_append_left _ (h.waiting hwaiting)
  ahead hstanding y hy := by
    rcases List.mem_append.mp hy with hy | hy
    · exact h.ahead hstanding y hy
    · rwa [List.mem_singleton.mp hy]
  running pid v hrunning := by
    obtain ⟨y, hy, hgoes⟩ := h.running pid v hrunning
    exact ⟨y, List.mem_append_left _ hy, hgoes⟩

private theorem Fetched.arrived_of_asked (h : w.Fetched marks) {n : Nat} {u : String}
    (hmem : .asked n u ∈ marks) : .arrived n u ∈ marks := by
  obtain ⟨a, b, hsplit⟩ := List.append_of_mem hmem
  exact hsplit ▸ List.mem_append_left _ (h.follows a _ b hsplit).1

/-- A request that goes on with settings has arrived. -/
private theorem Fetched.arrived_of_goer (h : w.Fetched marks) {x : Mark} {n : Nat} (hmem : x ∈ marks)
    (hx : x.goer? = some n) : ∃ u, .arrived n u ∈ marks := by
  obtain ⟨a, b, hsplit⟩ := List.append_of_mem hmem
  have hfollows := h.follows a x b hsplit
  cases x with
  | kept job u v =>
    obtain rfl := Option.some.inj hx
    exact ⟨u, h.arrived_of_asked (hsplit ▸ List.mem_append_left _ hfollows.1)⟩
  | used job u v | shared job u v =>
    obtain rfl := Option.some.inj hx
    exact ⟨u, hsplit ▸ List.mem_append_left _ hfollows.1⟩
  | _ => exact absurd hx (by simp [Mark.goer?, Mark.goesOn?])

/-! ## Steps -/

/-- A step that leaves no mark, changes nothing that is kept and lets no task ask or wait. -/
private theorem Fetched.of_tasks (h : w.Fetched marks)
    (htasks : ∀ t ∈ w'.tasks, Marked marks t) (hnext : w'.nextTask = w.nextTask)
    (hsettings : w'.settings = w.settings) : w'.Fetched (marks ++ Option.toList none) := by
  rw [Option.toList_none, List.append_nil]
  exact ⟨h.follows, htasks, hnext ▸ h.below, hsettings ▸ h.settings⟩

/-- A step that leaves a mark. -/
private theorem Fetched.of_mark (h : w.Fetched marks) {x : Mark} (hfollows : x.Follows marks)
    (htasks : ∀ t ∈ w'.tasks, Marked (marks ++ [x]) t)
    (hbelow : ∀ n u, .arrived n u ∈ marks ++ [x] → n < w'.nextTask)
    (hsettings : ∀ uri, w'.settings.lookup uri = (x.keptAfter uri (latest uri marks)).map Prod.snd) :
    w'.Fetched (marks ++ [x]) :=
  ⟨forall_split_concat (P := fun a (y : Mark) => y.Follows a) h.follows hfollows, htasks, hbelow,
    fun uri => by rw [latest_concat]; exact hsettings uri⟩

/-- No request arrives by a mark that is no arrival. -/
private theorem Fetched.below_concat (h : w.Fetched marks) {x : Mark}
    (hx : ∀ n u, x ≠ .arrived n u) (n : Nat) (u : String) (hmem : .arrived n u ∈ marks ++ [x]) :
    n < w.nextTask := by
  rcases List.mem_append.mp hmem with hmem | hmem
  · exact h.below n u hmem
  · exact absurd (List.mem_singleton.mp hmem).symm (hx n u)

/-- A task that is finished needs no more than to have arrived. -/
private theorem marked_finished {number : Nat} {uri : String} (h : .arrived number uri ∈ marks) :
    Marked marks ⟨number, uri, .finished⟩ where
  arrived := h
  fresh hfresh := absurd hfresh (by simp)
  waiting hwaiting := absurd hwaiting (by simp)
  ahead hstanding := absurd hstanding (by simp)
  running pid v hrunning := absurd hrunning (by simp)

private theorem marked_put_finished (h : w.Fetched marks) {number : Nat} {uri : String}
    {standing : Standing} (hmem : ⟨number, uri, standing⟩ ∈ w.tasks) :
    ∀ t ∈ (w.put ⟨number, uri, .finished⟩).tasks, Marked marks t := by
  intro t ht
  rcases mem_tasks_put ht with rfl | ⟨ht, _⟩
  · exact marked_finished (h.tasks _ hmem).arrived
  · exact h.tasks t ht

/-- A task goes on with settings, and a mark says so. -/
private theorem marked_launches (h : ∀ t ∈ w.tasks, Marked marks t) {number : Nat} {uri : String}
    {standing : Standing} {v : Settings} (hmem : ⟨number, uri, standing⟩ ∈ w.tasks)
    (hlaunch : w.Launches number uri v w') {x : Mark} (hx : x.goesOn? = some (number, uri, v))
    (hfetcher : ∀ n, x.fetcher? = some n → n = number) :
    ∀ t ∈ w'.tasks, Marked (marks ++ [x]) t := by
  intro t ht
  have hgoer : x.goer? = some number := by
    rw [Mark.goer?, hx]
    rfl
  rcases hlaunch.mem_tasks ht with ⟨rfl, rfl, hfresh, hwaiting, hrunning⟩ | ⟨ht, hother⟩
  · exact {
      arrived := List.mem_append_left _ (h _ hmem).arrived
      fresh := fun hstanding => absurd hstanding hfresh
      waiting := fun hstanding => absurd hstanding hwaiting
      ahead := fun hstanding => absurd hstanding (not_or.mpr ⟨hfresh, hwaiting⟩)
      running := fun pid v' hstanding =>
        ⟨x, List.mem_append_right _ List.mem_cons_self, hrunning pid v' hstanding ▸ hx⟩ }
  · refine (h t ht).concat (fun heq => hother (hfetcher _ heq)) fun heq => ?_
    exact hother (Option.some.inj (heq.symm.trans hgoer))

private theorem Fetched.arrive (h : w.Fetched marks) (uri : String) :
    Fetched (marks ++ [.arrived w.nextTask uri])
      { w with tasks := w.tasks ++ [⟨w.nextTask, uri, .fresh⟩], nextTask := w.nextTask + 1 } := by
  have hnew : ∀ u, .arrived w.nextTask u ∉ marks := fun u hmem => Nat.lt_irrefl _ (h.below _ u hmem)
  refine h.of_mark hnew (fun t ht => ?_) (fun n u hmem => ?_) h.settings
  · rcases List.mem_append.mp ht with ht | ht
    · exact (h.tasks t ht).concat (by simp [Mark.fetcher?]) (by simp [Mark.goer?, Mark.goesOn?])
    · rw [List.mem_singleton.mp ht]
      refine ⟨by simp, fun _ u hasked => ?_, by simp, fun _ x hx hgoer => ?_, by simp⟩
      · exact hnew u (h.arrived_of_asked (by simpa using hasked))
      · rcases List.mem_append.mp hx with hx | hx
        · obtain ⟨u, hmem⟩ := h.arrived_of_goer hx hgoer
          exact hnew u hmem
        · rw [List.mem_singleton.mp hx] at hgoer
          exact absurd hgoer (by simp [Mark.goer?, Mark.goesOn?])
  · rcases List.mem_append.mp hmem with hmem | hmem
    · exact Nat.lt_succ_of_lt (h.below n u hmem)
    · obtain ⟨rfl, _⟩ := Mark.arrived.inj (List.mem_singleton.mp hmem)
      exact Nat.lt_succ_self _

private theorem Fetched.ask (h : w.Fetched marks) {number : Nat} {uri : String}
    (hmem : ⟨number, uri, .fresh⟩ ∈ w.tasks) :
    (w.put ⟨number, uri, .waiting⟩).Fetched (marks ++ [.asked number uri]) := by
  have hmarked := h.tasks _ hmem
  have hahead := hmarked.ahead (.inl rfl)
  refine h.of_mark ⟨hmarked.arrived, hmarked.fresh rfl, hahead⟩ (fun t ht => ?_)
    (h.below_concat (by simp)) h.settings
  rcases mem_tasks_put ht with rfl | ⟨ht, hother⟩
  · refine ⟨List.mem_append_left _ hmarked.arrived, by simp, by simp, fun _ x hx => ?_, by simp⟩
    rcases List.mem_append.mp hx with hx | hx
    · exact hahead x hx
    · simp [List.mem_singleton.mp hx, Mark.goer?, Mark.goesOn?]
  · refine (h.tasks t ht).concat (fun heq => hother (Option.some.inj heq).symm) ?_
    simp [Mark.goer?, Mark.goesOn?]

private theorem Fetched.share (h : w.Fetched marks) {number : Nat} {uri : String} {v : Settings}
    (hmem : ⟨number, uri, .fresh⟩ ∈ w.tasks) (hlaunch : w.Launches number uri v w') :
    w'.Fetched (marks ++ [.shared number uri v]) := by
  have hmarked := h.tasks _ hmem
  refine h.of_mark ⟨hmarked.arrived, hmarked.ahead (.inl rfl)⟩
    (marked_launches h.tasks hmem hlaunch rfl (by simp [Mark.fetcher?])) ?_ ?_
  · rw [hlaunch.nextTask]
    exact h.below_concat (by simp)
  · rw [hlaunch.settings]
    exact h.settings

private theorem Fetched.use (h : w.Fetched marks) {number : Nat} {uri : String} {v : Settings}
    (hmem : ⟨number, uri, .fresh⟩ ∈ w.tasks) (hkept : w.settings.lookup uri = some v)
    (hlaunch : w.Launches number uri v w') : w'.Fetched (marks ++ [.used number uri v]) := by
  have hmarked := h.tasks _ hmem
  rw [h.settings uri, Option.map_eq_some_iff] at hkept
  obtain ⟨⟨n, _⟩, hlatest, rfl⟩ := hkept
  refine h.of_mark ⟨hmarked.arrived, hmarked.ahead (.inl rfl), n, hlatest⟩
    (marked_launches h.tasks hmem hlaunch rfl (by simp [Mark.fetcher?])) ?_ ?_
  · rw [hlaunch.nextTask]
    exact h.below_concat (by simp)
  · rw [hlaunch.settings]
    exact h.settings

private theorem Fetched.keep (h : w.Fetched marks) {number : Nat} {uri : String} {v : Settings}
    (hmem : ⟨number, uri, .waiting⟩ ∈ w.tasks)
    (hlaunch : (w.keep uri v).Launches number uri v w') :
    w'.Fetched (marks ++ [.kept number uri v]) := by
  have hmarked := h.tasks _ hmem
  have hkeep : ∀ t ∈ (w.keep uri v).tasks, Marked marks t := h.tasks
  refine h.of_mark ⟨hmarked.waiting rfl, hmarked.ahead (.inr rfl)⟩
    (marked_launches hkeep hmem hlaunch rfl fun n hn => (Option.some.inj hn).symm) ?_ fun u => ?_
  · rw [hlaunch.nextTask]
    exact h.below_concat (by simp)
  · rw [hlaunch.settings, Mark.keptAfter]
    refine (lookup_filter_ne_append w.settings uri u v).trans ?_
    by_cases hu : u = uri
    · simp [hu]
    · rw [if_neg hu, if_neg (Ne.symm hu), h.settings u]

/-- **Steps keep what the marks say of requests and settings.** -/
theorem Fetched.step (h : w.Fetched marks) (hstep : w.Step x w') :
    w'.Fetched (marks ++ x.toList) := by
  cases hstep with
  | arrive uri => exact h.arrive uri
  | ask hmem hnone => exact h.ask hmem
  | share hmem hlaunch => exact h.share hmem hlaunch
  | use hmem hkept hlaunch => exact h.use hmem hkept hlaunch
  | keep hmem hlaunch => exact h.keep hmem hlaunch
  | drop uri =>
    refine h.of_mark trivial (fun t ht => ?_) (h.below_concat (by simp)) fun u => ?_
    · exact (h.tasks t ht).concat (by simp [Mark.fetcher?]) (by simp [Mark.goer?, Mark.goesOn?])
    refine (lookup_filter_ne w.settings uri u).trans ?_
    by_cases hu : u = uri
    · simp [hu, Mark.keptAfter]
    · rw [if_neg hu, Mark.keptAfter, if_neg (Ne.symm hu), h.settings u]
  | clear =>
    refine h.of_mark trivial (fun t ht => ?_) (h.below_concat (by simp)) fun u => rfl
    exact (h.tasks t ht).concat (by simp [Mark.fetcher?]) (by simp [Mark.goer?, Mark.goesOn?])
  | part hmem how =>
    refine h.of_mark trivial (fun t ht => ?_) (h.below_concat (by simp)) h.settings
    exact (marked_put_finished h hmem t ht).concat (by simp [Mark.fetcher?])
      (by simp [Mark.goer?, Mark.goesOn?])
  | idle => exact h.of_tasks h.tasks rfl rfl
  | leave hmem => exact h.of_tasks (fun t ht => h.tasks t (List.mem_of_mem_filter ht)) rfl rfl
  | quit hmem hpid => exact h.of_tasks (marked_put_finished h hmem) rfl rfl
  | orphans hsub => exact h.of_tasks h.tasks rfl rfl

/-- **A step starts a process only with the words of the settings with which a request goes on.** -/
theorem Step.commands (h : w.Step x w') :
    ∃ commands, w'.commands = w.commands ++ commands ∧
      ∀ words ∈ commands, ∃ mark number uri v p, x = some mark ∧
        mark.goesOn? = some (number, uri, v) ∧ words = commandLine v p := by
  have hgoes : ∀ {w : Work} {number : Nat} {uri : String} {v : Settings} (mark : Mark),
      mark.goesOn? = some (number, uri, v) → w.Launches number uri v w' →
      ∃ commands, w'.commands = w.commands ++ commands ∧
        ∀ words ∈ commands, ∃ mark' number uri v p, some mark = some mark' ∧
          mark'.goesOn? = some (number, uri, v) ∧ words = commandLine v p := by
    intro w number uri v mark hmark hlaunch
    obtain ⟨commands, hcommands, hwords⟩ := hlaunch.commands
    refine ⟨commands, hcommands, fun words hmem => ?_⟩
    obtain ⟨p, hp⟩ := hwords words hmem
    exact ⟨mark, number, uri, v, p, rfl, hmark, hp⟩
  cases h with
  | share _ hlaunch => exact hgoes _ rfl hlaunch
  | use _ _ hlaunch => exact hgoes _ rfl hlaunch
  | @keep _ uri v _ _ hlaunch => exact hgoes (w := w.keep uri v) _ rfl hlaunch
  | _ => exact ⟨[], (List.append_nil _).symm, by simp⟩

end Work

/-! ## Histories -/

/-- **Settings are asked for, kept and used in every history as the marks say.** -/
theorem History.fetched {marks : List Mark} {s : Session} (h : History marks s) :
    s.work.Fetched marks := by
  refine (h.keeps (P := fun marks w => w.Fetched marks) ?_ ?_).2
  · exact fun pids => ⟨by simp, by simp [Work.first], by simp, fun uri => rfl⟩
  · exact fun marks w x w' _ hfetched hstep => hfetched.step hstep

/-- The client is asked, and its answer kept, when a request goes on. -/
theorem Session.observeAdvance_of_fetcher {s : Session} {m : Move} {x : Mark} (h : s.observe m = some x)
    (hx : x.fetcher? ≠ none) : ∃ n j, s.job? n = some j ∧ s.observeAdvance j = some x := by
  cases m with
  | receive m =>
    cases m with
    | error fault => cases h
    | ok m =>
      simp only [observe] at h
      split at h
      · unfold observeMessage at h
        split at h
        · obtain rfl := Option.some.inj h
          exact absurd rfl hx
        · split at h
          · obtain rfl := Option.some.inj h
            exact absurd rfl hx
          · cases h
        · cases h
      · cases h
  | turn t =>
    cases t with
    | advance number =>
      obtain ⟨j, hjob, hj⟩ := Option.bind_eq_some_iff.mp h
      exact ⟨number, j, hjob, hj⟩
    | wake number =>
      obtain ⟨j, _, hj⟩ := Option.bind_eq_some_iff.mp h
      unfold observeWake at hj
      split at hj
      · obtain ⟨_, _, rfl⟩ := Option.map_eq_some_iff.mp hj
        exact absurd rfl hx
      · cases hj
    | expire number =>
      obtain ⟨j, _, hj⟩ := Option.bind_eq_some_iff.mp h
      unfold observeExpire at hj
      split at hj
      · obtain rfl := Option.some.inj hj
        exact absurd rfl hx
      · obtain rfl := Option.some.inj hj
        exact absurd rfl hx
      · cases hj
    | closed u =>
      obtain rfl := Option.some.inj h
      exact absurd rfl hx
    | reply number r => cases h
    | orphan pid => cases h
    | opened u => cases h
  | reorder ready timers now => cases h
  | surround script reply disk => cases h

/-- Settings that request `n` asked for are outdated when request `job` arrives: in between came a change. -/
def Outdated (before : List Mark) (n job : Nat) (uri : String) : Prop :=
  ∃ p x q, before = p ++ x :: q ∧ x.invalidates uri = true ∧ .asked n uri ∈ p ∧ .arrived job uri ∈ q

/-- Settings were overtaken by a change while request `n` asked for them: they were kept after it, and after it
request `job` arrived. -/
def Overtaken (before : List Mark) (n job : Nat) (uri : String) : Prop :=
  ∃ p x q, before = p ++ x :: q ∧ x.invalidates uri = true ∧ .asked n uri ∈ p ∧
    (∃ settings, .kept n uri settings ∈ q) ∧ .arrived job uri ∈ q

/-- What was kept last is outdated only by a change that came before it was kept. -/
private theorem outdated_iff {before : List Mark} {n : Nat} {uri : String} {v : Settings}
    (hlatest : latest uri before = some (n, v)) (job : Nat) :
    Outdated before n job uri ↔ Overtaken before n job uri := by
  constructor
  · rintro ⟨p, x, q, hsplit, hx, hasked, harrived⟩
    obtain ⟨a, b, hkept, hb⟩ := latest_split hlatest
    refine ⟨p, x, q, hsplit, hx, hasked, ⟨v, ?_⟩, harrived⟩
    -- The change does not stand after the keeping, so the keeping stands after the change.
    have hne : x ≠ .kept n uri v := by
      rintro rfl
      exact absurd hx (by simp [Mark.invalidates])
    rcases split_cases (hsplit.symm.trans hkept) hne with ⟨c, _, rfl⟩ | ⟨c, _, rfl⟩
    · exact List.mem_append_right _ List.mem_cons_self
    · exact absurd hx (by simp [hb x (List.mem_append_right _ List.mem_cons_self)])
  · rintro ⟨p, x, q, hsplit, hx, hasked, _, harrived⟩
    exact ⟨p, x, q, hsplit, hx, hasked, harrived⟩

/-- A request's own settings are not outdated when it goes on with them: it asked after it had arrived. -/
private theorem not_outdated_self {marks a b : List Mark} {job : Nat} {uri : String} {v : Settings}
    (h : ∀ a x b, marks = a ++ x :: b → x.Follows a) (hsplit : marks = a ++ .kept job uri v :: b) :
    ¬ Outdated a job job uri := by
  rintro ⟨p, x, q, rfl, _, hasked, harrived⟩
  obtain ⟨c, d, rfl⟩ := List.append_of_mem harrived
  obtain ⟨e, f, rfl⟩ := List.append_of_mem hasked
  -- It arrived before it asked, so it would have arrived twice.
  have hfirst : marks = e ++ .asked job uri ::
      (f ++ x :: (c ++ .arrived job uri :: (d ++ .kept job uri v :: b))) := by
    simp [hsplit]
  have hsecond : marks = (e ++ .asked job uri :: (f ++ x :: c)) ++ .arrived job uri ::
      (d ++ .kept job uri v :: b) := by
    simp [hsplit]
  exact (h _ _ _ hsecond) uri (List.mem_append_left _ (h _ _ _ hfirst).1)

/-- **Where settings come from.** In every history:
the cache holds for each document what was kept for it last and not dropped since;
what it holds was asked for, then kept, and no change came after it was kept;
each mark follows from those before it: in particular, a request asks once, goes on once, and goes on with what was
kept last when it has not asked;
a request that goes on with what it asked for itself goes on with settings that are not outdated;
one that goes on with what was kept before goes on with outdated settings exactly when a change overtook them,
while the client was being asked for them;
a process runs with the settings with which its request went on;
and whatever the session does next, it starts a process only with the words of the settings with which a request
goes on in that move. -/
theorem kept_settings {marks : List Mark} {s : Session} (h : History marks s) :
    (∀ uri, s.cache.find? uri = (latest uri marks).map Prod.snd) ∧
    (∀ uri v, s.cache.find? uri = some v → ∃ n a b c,
      marks = a ++ .asked n uri :: (b ++ .kept n uri v :: c) ∧ ∀ x ∈ c, x.invalidates uri = false) ∧
    (∀ a x b, marks = a ++ x :: b → x.Follows a) ∧
    (∀ a job uri v b, marks = a ++ .kept job uri v :: b → ¬ Outdated a job job uri) ∧
    (∀ a job uri v b, marks = a ++ .used job uri v :: b →
      ∃ n, latest uri a = some (n, v) ∧ (Outdated a n job uri ↔ Overtaken a n job uri)) ∧
    (∀ j ∈ s.jobs, ∀ run, j.awaits? = some run →
      ∃ x ∈ marks, x.goesOn? = some (j.number, j.uri, run.request.settings)) ∧
    ∀ m, ∃ commands, commandsIn (s.act m).trace = commandsIn s.trace ++ commands ∧
      ∀ words ∈ commands, ∃ x job uri v p, s.observe m = some x ∧
        x.goesOn? = some (job, uri, v) ∧ words = commandLine v p := by
  have hfetched := h.fetched
  refine ⟨hfetched.settings, ?_, hfetched.follows, ?_, ?_, ?_, ?_⟩
  · intro uri v hfind
    obtain ⟨⟨n, _⟩, hlatest, rfl⟩ := Option.map_eq_some_iff.mp ((hfetched.settings uri).symm.trans hfind)
    obtain ⟨before, c, hsplit, hc⟩ := latest_split hlatest
    obtain ⟨a, b, rfl⟩ := List.append_of_mem (hfetched.follows before _ c hsplit).1
    exact ⟨n, a, b, c, by rw [hsplit]; simp, hc⟩
  · exact fun a job uri v b hsplit => not_outdated_self hfetched.follows hsplit
  · intro a job uri v b hsplit
    obtain ⟨_, _, n, hlatest⟩ := hfetched.follows a _ b hsplit
    exact ⟨n, hlatest, outdated_iff hlatest job⟩
  · intro j hj run hrun
    have hmarked := hfetched.tasks _ (List.mem_map_of_mem hj)
    exact hmarked.running _ _ (standing_of_awaits hrun)
  · exact fun m => (Session.work_act h.numbered.distinct m).commands

/-- A change comes while the client is asked, the old settings are kept all the same, and the next request
goes on with them. -/
theorem kept_settings_overtaken :
    let uri := "file:///a.src"
    let disk : Disk := ⟨[([['t', 'm', 'p']], .directory)]⟩
    let first : Session := { directory := .ofString "/tmp", disk, cache := {} }
    let moves : List Session.Move := [
      .surround {} .never disk,
      .receive (.ok (.call (.number 1) (.handshake ⟨none, [], [], true, false⟩))),
      .receive (.ok (.notice (.opened ⟨uri, "text", 1, "a"⟩))),
      .receive (.ok (.call (.number 2) (.format uri none))), .turn (.advance 0),
      .receive (.ok (.notice (.configured .null))),
      .turn (.reply 0 (.result (.list [.map [(.text "command", .list [.text "old"])]]))),
      .turn (.advance 0),
      .receive (.ok (.call (.number 3) (.format uri none))), .turn (.advance 1)]
    let before : List Mark := [.arrived 0 uri, .asked 0 uri, .cleared,
      .kept 0 uri { command := ["old"] }, .arrived 1 uri]
    first.marks moves = before ++ [.used 1 uri { command := ["old"] }] ∧ Outdated before 0 1 uri := by
  intro uri disk first moves before
  have hmarks : first.marks moves = before ++ [.used 1 uri { command := ["old"] }] := by
    decide +kernel
  have hstart : Session.start .null first.directory id disk = .ok first := rfl
  obtain ⟨_, _, _, _, hused, _⟩ := kept_settings ((History.start hstart).run moves)
  obtain ⟨n, hlatest, hiff⟩ :=
    hused before 1 uri { command := ["old"] } [] ((List.nil_append _).trans hmarks)
  have hzero : latest uri before = some (0, { command := ["old"] }) := by
    decide +kernel
  obtain rfl : n = 0 := (Prod.mk.inj (Option.some.inj (hlatest.symm.trans hzero))).1
  refine ⟨hmarks, hiff.mpr ⟨[.arrived 0 uri, .asked 0 uri], .cleared,
    [.kept 0 uri { command := ["old"] }, .arrived 1 uri], rfl, rfl, ?_, ?_, ?_⟩⟩
  · exact .tail _ (.head _)
  · exact ⟨{ command := ["old"] }, .head _⟩
  · exact .tail _ (.head _)

end FormatServer
