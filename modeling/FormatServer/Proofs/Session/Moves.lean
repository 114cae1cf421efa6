import FormatServer.Proofs.Session.Alone

/-!
What the moves of a session do to requests. A message brings a new request, or withdraws some, and touches no
request and no file in any other way (`hears_receive`). A turn is of one request, or of a process whose request
has ended, or of none (`does_act`).
-/

namespace FormatServer

namespace Session

/-! ## Messages -/

def withdrawn (s : Session) : Except MessageFault Incoming → List Nat
  | .ok (.notice (.cancel id)) =>
    if s.status = .running then (s.withdrawable.lookup id).toList else []
  | .ok (.call _ .shutdown) => if s.status = .running then s.withdrawable.map Prod.snd else []
  | _ => []

/-- Requests are withdrawn, or a new one arrives, and nothing else happens to requests and files. -/
structure Hears (s : Session) (numbers : List Nat) (s' : Session) : Prop where
  jobs : ∀ k j, s.job? k = some j →
    s'.job? k = some { j with cancelled := j.cancelled || decide (k ∈ numbers) }
  new : ∀ k j, s.job? k = none → s'.job? k = some j → k = s.nextJob ∧ j.phase = .accepted
  orphans : s'.orphans = s.orphans
  disk : s'.disk = s.disk
  nextJob : s.nextJob ≤ s'.nextJob

variable {s s' : Session}

private theorem hears_of_jobs (hjobs : s'.jobs = s.jobs) (horphans : s'.orphans = s.orphans)
    (hdisk : s'.disk = s.disk) (hnext : s'.nextJob = s.nextJob) : s.Hears [] s' := by
  have hjob : ∀ k, s'.job? k = s.job? k := by
    intro k
    rw [job?, job?, hjobs]
  refine ⟨fun k j hj => ?_, fun k j hnone hj => ?_, horphans, hdisk, Nat.le_of_eq hnext.symm⟩
  · rw [hjob, hj]
    simp
  · rw [hjob, hnone] at hj
    cases hj

private theorem Hears.trans {s₁ s₂ s₃ : Session} {a b : List Nat} (h : s₁.Hears a s₂)
    (hsame : ∀ k, s₁.job? k = none → s₂.job? k = none) (h' : s₂.Hears b s₃)
    (hnext : s₂.nextJob = s₁.nextJob) : s₁.Hears (a ++ b) s₃ := by
  refine ⟨fun k j hj => ?_, fun k j hnone hj => ?_, h'.orphans.trans h.orphans,
    h'.disk.trans h.disk, Nat.le_trans h.nextJob h'.nextJob⟩
  · rw [h'.jobs k _ (h.jobs k j hj)]
    simp [Bool.or_assoc]
  · exact hnext ▸ h'.new k j (hsame k hnone) hj

private theorem job?_withdraw (s : Session) (number k : Nat) : (s.withdraw number).job? k =
    (s.job? k).map fun j => { j with cancelled := j.cancelled || decide (k ∈ [number]) } := by
  unfold withdraw
  cases hj : s.job? number with
  | none =>
    cases hk : s.job? k with
    | none => rfl
    | some j =>
      have hne : k ≠ number := by
        rintro rfl
        rw [hj] at hk
        cases hk
      simp [hne]
  | some j =>
    obtain rfl := number_of_job? hj
    have hset : (s.setJob { j with cancelled := true }).job? k =
        (s.job? k).map fun j' => { j' with cancelled := j'.cancelled || decide (k ∈ [j.number]) } := by
      rw [job?_setJob]
      by_cases hk : k = j.number
      · subst hk
        simp [hj]
      · simp [hk]
    dsimp only
    split <;> exact hset

theorem hears_withdraw (s : Session) (number : Nat) :
    s.Hears [number] (s.withdraw number) := by
  have hfields : (s.withdraw number).orphans = s.orphans ∧ (s.withdraw number).disk = s.disk ∧
      (s.withdraw number).nextJob = s.nextJob := by
    unfold withdraw
    split
    · exact ⟨rfl, rfl, rfl⟩
    · dsimp only
      split <;> exact ⟨rfl, rfl, rfl⟩
  obtain ⟨horphans, hdisk, hnext⟩ := hfields
  refine ⟨fun k j hj => ?_, fun k j hnone hj => ?_, horphans, hdisk, Nat.le_of_eq hnext.symm⟩
  · rw [job?_withdraw, hj, Option.map_some]
  · rw [job?_withdraw, hnone] at hj
    cases hj

private theorem hears_cancelAll (s : Session) : s.Hears (s.withdrawable.map Prod.snd) s.cancelAll := by
  unfold cancelAll
  generalize s.withdrawable = pairs
  induction pairs generalizing s with
  | nil => exact hears_of_jobs rfl rfl rfl rfl
  | cons pair rest ih =>
    have hfirst := hears_withdraw s pair.2
    have hnext : (s.withdraw pair.2).nextJob = s.nextJob := by
      unfold withdraw
      split
      · rfl
      · dsimp only
        split <;> rfl
    refine hfirst.trans (fun k hk => ?_) (ih (s.withdraw pair.2)) hnext
    rw [job?_withdraw, hk]
    rfl

/-- What is left alone by a message that is about neither requests nor files. -/
private theorem Hears.of_withdrawn {s₁ : Session} {numbers : List Nat} (h : s₁.Hears numbers s')
    (hjobs : s₁.jobs = s.jobs) (horphans : s₁.orphans = s.orphans) (hdisk : s₁.disk = s.disk)
    (hnext : s₁.nextJob = s.nextJob) : s.Hears numbers s' := by
  have hjob : ∀ k, s₁.job? k = s.job? k := by
    intro k
    rw [job?, job?, hjobs]
  refine ⟨fun k j hj => h.jobs k j ((hjob k).trans hj), fun k j hnone hj => ?_,
    h.orphans.trans horphans, h.disk.trans hdisk, hnext ▸ h.nextJob⟩
  exact hnext ▸ h.new k j ((hjob k).trans hnone) hj

private theorem hears_accept (s : Session) (id : RequestId) (uri : String)
    (range : Option TextRange) : s.Hears [] (s.accept id uri range) := by
  have hjob : ∀ k, (s.accept id uri range).job? k =
      (s.job? k).or (if k = s.nextJob then some { number := s.nextJob, id, uri, range } else none) := by
    intro k
    unfold accept job? enqueue
    dsimp only
    rw [List.find?_append]
    by_cases hk : k = s.nextJob
    · simp [hk]
    · simp [hk, Ne.symm hk]
  refine ⟨fun k j hj => ?_, fun k j hnone hj => ?_, rfl, rfl, Nat.le_succ _⟩
  · rw [hjob, hj]
    simp
  · rw [hjob, hnone, Option.none_or] at hj
    split at hj
    · next hk =>
      obtain rfl := Option.some.inj hj
      exact ⟨hk, rfl⟩
    · cases hj

private theorem hears_withStore (f : DocumentStore → Session → Session)
    (hf : ∀ store, s.Hears [] (f store s)) : s.Hears [] (s.withStore f) := by
  unfold withStore
  split
  · exact hears_of_jobs rfl rfl rfl rfl
  · exact hf _

private theorem hears_documentOpened (s : Session) (d : Document) :
    s.Hears [] (s.documentOpened d) := by
  refine hears_withStore _ fun store => ?_
  split <;> exact hears_of_jobs rfl rfl rfl rfl

private theorem hears_documentChanged (s : Session) (uri : String) (version : Int)
    (texts : List String) : s.Hears [] (s.documentChanged uri version texts) := by
  refine hears_withStore _ fun store => ?_
  split <;> exact hears_of_jobs rfl rfl rfl rfl

private theorem hears_documentClosed (s : Session) (uri : String) :
    s.Hears [] (s.documentClosed uri) := by
  refine hears_withStore _ fun store => ?_
  exact hears_of_jobs rfl rfl rfl rfl

private theorem hears_handshake (s : Session) (id : RequestId) (c : ClientProfile) :
    s.Hears [] (s.handshake id c) := by
  have hload : ∀ {root : Path} {s₁ s₂ : Session}, s₁.loadWorkspace root = .ok s₂ →
      s₂.jobs = s₁.jobs ∧ s₂.orphans = s₁.orphans ∧ s₂.disk = s₁.disk ∧ s₂.nextJob = s₁.nextJob := by
    intro root s₁ s₂ h
    unfold loadWorkspace at h
    split at h
    · next settings found _ =>
      obtain rfl := Except.ok.inj h
      cases found <;> exact ⟨rfl, rfl, rfl, rfl⟩
    · split at h
      · obtain rfl := Except.ok.inj h
        exact ⟨rfl, rfl, rfl, rfl⟩
      · cases h
  unfold handshake
  dsimp only
  split
  · exact hears_of_jobs rfl rfl rfl rfl
  · split
    · exact hears_of_jobs rfl rfl rfl rfl
    · split
      · exact hears_of_jobs rfl rfl rfl rfl
      · split
        · exact hears_of_jobs rfl rfl rfl rfl
        · exact hears_of_jobs rfl rfl rfl rfl
        · split
          · next h =>
            obtain ⟨hjobs, horphans, hdisk, hnext⟩ := hload h
            exact hears_of_jobs hjobs horphans hdisk hnext
          · exact hears_of_jobs rfl rfl rfl rfl

private theorem hears_handleCall (hrunning : s.status = .running) (id : RequestId) (c : Call) :
    s.Hears (s.withdrawn (.ok (.call id c))) (s.handleCall id c) := by
  cases c with
  | handshake client => exact hears_handshake s id client
  | shutdown =>
    simp only [withdrawn, hrunning, if_true]
    have h := hears_cancelAll s
    exact ⟨h.jobs, h.new, h.orphans, h.disk, h.nextJob⟩
  | format uri range => exact hears_accept s id uri range
  | command name => exact hears_of_jobs rfl rfl rfl rfl
  | other method => exact hears_of_jobs rfl rfl rfl rfl

private theorem hears_cancel (hrunning : s.status = .running) (id : RequestId) :
    s.Hears (s.withdrawn (.ok (.notice (.cancel id)))) (s.cancel id) := by
  simp only [withdrawn, hrunning, if_true]
  unfold cancel
  cases s.withdrawable.lookup id with
  | none => exact hears_of_jobs rfl rfl rfl rfl
  | some number =>
    exact (hears_withdraw { s with withdrawable := s.withdrawableBut id } number).of_withdrawn
      rfl rfl rfl rfl

private theorem hears_configured (s : Session) (pushed : Value) : s.Hears [] (s.configured pushed) := by
  unfold configured
  split
  · exact hears_of_jobs rfl rfl rfl rfl
  · split
    · exact hears_of_jobs rfl rfl rfl rfl
    · split <;> exact hears_of_jobs rfl rfl rfl rfl

private theorem hears_clientReady (s : Session) : s.Hears [] s.clientReady := by
  unfold clientReady
  dsimp only
  split
  · split <;> exact hears_of_jobs rfl rfl rfl rfl
  · split <;> exact hears_of_jobs rfl rfl rfl rfl

private theorem hears_foldersChanged (s : Session) (changed : Bool) :
    s.Hears [] (s.foldersChanged changed) := by
  unfold foldersChanged
  split
  · exact hears_of_jobs rfl rfl rfl rfl
  · split <;> exact hears_of_jobs rfl rfl rfl rfl

private theorem hears_handleNotice (hrunning : s.status = .running) (n : Notice) :
    s.Hears (s.withdrawn (.ok (.notice n))) (s.handleNotice n) := by
  cases n with
  | cancel id => exact hears_cancel hrunning id
  | opened d => exact hears_documentOpened s d
  | changed uri version texts => exact hears_documentChanged s uri version texts
  | closed uri => exact hears_documentClosed s uri
  | configured settings => exact hears_configured s settings
  | ready => exact hears_clientReady s
  | folders changed => exact hears_foldersChanged s changed
  | exit => exact hears_of_jobs rfl rfl rfl rfl
  | other => exact hears_of_jobs rfl rfl rfl rfl

/-- **Messages withdraw requests and bring new ones**, and touch no request and no file in any other way. -/
theorem hears_receive (s : Session) (m : Except MessageFault Incoming) :
    s.Hears (s.withdrawn m) (s.receive m) := by
  have hnothing : s.status ≠ .running → s.withdrawn m = [] := by
    intro hstatus
    unfold withdrawn
    split
    · exact if_neg hstatus
    · exact if_neg hstatus
    · rfl
  have hhandles := handles_receive s m
  generalize s.receive m = s' at hhandles
  cases hhandles with
  | finished hended =>
    rw [hnothing (by simp [hended])]
    exact hears_of_jobs rfl rfl rfl rfl
  | call hrunning id c => exact hears_handleCall hrunning id c
  | notice hrunning n => exact hears_handleNotice hrunning n
  | exit _ hstopped | unhandled hstopped =>
    rw [hnothing hstopped]
    exact hears_of_jobs rfl rfl rfl rfl
  | fault | ignored => exact hears_of_jobs rfl rfl rfl rfl

end Session

/-! ## Turns -/

def Turn.own? : Turn → Option (Nat × OwnMove)
  | .advance number => some (number, .advance)
  | .wake number => some (number, .wake)
  | .expire number => some (number, .expire)
  | _ => none

namespace Session

variable {s s' : Session} {j : Job} {n : Nat}

theorem take_of_own? {t : Turn} {o : OwnMove} (ht : t.own? = some (n, o)) :
    s.take t = s.move n o := by
  cases t with
  | advance number | wake number | expire number =>
    obtain ⟨rfl, rfl⟩ := Prod.mk.inj (Option.some.inj ht)
    rfl
  | _ => cases ht

/-- A session takes the next step of a process without a request. The process comes back, or not. -/
structure Plays (s : Session) (o : Orphan) (s' : Session) : Prop where
  jobs : s'.jobs = s.jobs
  orphans : ∃ back : List Orphan,
    s'.orphans = s.orphans.filter (·.process.pid ≠ o.process.pid) ++ back ∧
      ∀ x ∈ back, x.process.pid = o.process.pid ∧ x.process.path = o.process.path
  disk : ∃ step, s'.disk = (o.process.perform s.disk step).disk
  nextJob : s'.nextJob = s.nextJob

theorem plays_playOrphan (s : Session) (o : Orphan) : s.Plays o (s.playOrphan o) := by
  have hends : ∀ x ∈ ([] : List Orphan),
      x.process.pid = o.process.pid ∧ x.process.path = o.process.path := by
    simp
  have hback : ∀ (d : Disk) (step : ScriptStep) (steps : List ScriptStep),
      ∀ x ∈ [{ o with process := (o.process.perform d step).process, steps }],
        x.process.pid = o.process.pid ∧ x.process.path = o.process.path := by
    intro d step steps x hx
    obtain rfl := List.mem_singleton.mp hx
    exact ⟨pid_perform .., Process.path_perform ..⟩
  unfold playOrphan
  cases o.steps with
  | nil => exact ⟨rfl, ⟨[], (List.append_nil _).symm, hends⟩, ⟨.hang, rfl⟩, rfl⟩
  | cons step steps =>
    cases step with
    | hang => exact ⟨rfl, ⟨[], (List.append_nil _).symm, hends⟩, ⟨.hang, rfl⟩, rfl⟩
    | sleep ticks => exact ⟨rfl, ⟨_, rfl, hback s.disk (.sleep ticks) steps⟩, ⟨.hang, rfl⟩, rfl⟩
    | output stream bytes => exact ⟨rfl, ⟨_, rfl, hback _ _ _⟩, ⟨.output stream bytes, rfl⟩, rfl⟩
    | change c => exact ⟨rfl, ⟨_, rfl, hback _ (.change c) _⟩, ⟨.change c, rfl⟩, rfl⟩
    | exit code => exact ⟨rfl, ⟨_, rfl, hback _ (.exit code) _⟩, ⟨.exit code, rfl⟩, rfl⟩

inductive Does (s : Session) : Move → Session → Prop where
  /-- a request whose run has begun makes a move -/
  | moves {t : Turn} {n : Nat} {j : Job} {o : OwnMove} {s' : Session} (ht : t.own? = some (n, o))
      (hj : s.job? n = some j) (hbegun : j.begun = true) (h : s.Makes n (j.moved s.disk o) s') :
      Does s (.turn t) s'
  /-- a run starts -/
  | starts {n : Nat} {j : Job} {w : Workspace} {settings : Settings} {s' : Session}
      (hj : s.job? n = some j) (hbegun : j.begun = false)
      (hsettings : s.settingsFor j = some settings)
      (h : s.Makes n (j.starts (s.context w) settings s.disk) s') : Does s (.turn (.advance n)) s'
  /-- a request whose run has not begun goes on, or ends -/
  | idles {t : Turn} {n : Nat} {j : Job} {s' : Session} (hj : s.job? n = some j)
      (hbegun : j.begun = false) (h : s.Idles n s') : Does s (.turn t) s'
  | hears {m : Except MessageFault Incoming} {s' : Session} (h : s.Hears (s.withdrawn m) s') :
      Does s (.receive m) s'
  /-- a process without a request takes its next step -/
  | plays {o : Orphan} {s' : Session}
      (ho : s.orphans.find? (·.process.pid = o.process.pid) = some o) (h : s.Plays o s') :
      Does s (.turn (.orphan o.process.pid)) s'
  | surrounds (script : Script) (reply : ClientReply) (disk : Disk) :
      Does s (.surround script reply disk) { s with script, reply, disk }
  /-- nothing happens to requests and files -/
  | rests {x : Move} {s' : Session} (hjobs : s'.jobs = s.jobs) (horphans : s'.orphans = s.orphans)
      (hdisk : s'.disk = s.disk) (hnext : s'.nextJob = s.nextJob) : Does s x s'

private theorem does_nothing (x : Move) : s.Does x s := .rests rfl rfl rfl rfl

private theorem does_advance (n : Nat) : s.Does (.turn (.advance n)) (s.take (.advance n)) := by
  cases hj : s.job? n with
  | none =>
    rw [take, withJob, hj]
    exact does_nothing _
  | some j =>
    cases hbegun : j.begun with
    | true => exact .moves rfl hj hbegun (makes_moved hj hbegun .advance)
    | false =>
      obtain rfl := number_of_job? hj
      cases hsettings : s.settingsFor j with
      | none =>
        rw [take_advance hj]
        exact .idles hj hbegun (idles_advance hj hbegun hsettings)
      | some settings =>
        obtain ⟨w, -, hmakes⟩ := makes_starts hj hsettings
        exact .starts hj hbegun hsettings hmakes

/-- A turn at the end of a pause, or of a request's time, does nothing before its run has begun. -/
private theorem does_later (n : Nat) : s.Does (.turn (.wake n)) (s.take (.wake n)) ∧
    s.Does (.turn (.expire n)) (s.take (.expire n)) := by
  cases hj : s.job? n with
  | none =>
    rw [take, take, withJob, withJob, hj]
    exact ⟨does_nothing _, does_nothing _⟩
  | some j =>
    cases hbegun : j.begun with
    | true =>
      exact ⟨.moves rfl hj hbegun (makes_moved hj hbegun .wake),
        .moves rfl hj hbegun (makes_moved hj hbegun .expire)⟩
    | false =>
      have hnothing : s.take (.wake n) = s ∧ s.take (.expire n) = s := by
        unfold Job.begun at hbegun
        simp only [take, withJob, hj, wake, expire]
        split at hbegun <;> simp_all
      rw [hnothing.1, hnothing.2]
      exact ⟨does_nothing _, does_nothing _⟩

private theorem does_reply (n : Nat) (r : ClientReply) :
    s.Does (.turn (.reply n r)) (s.take (.reply n r)) := by
  cases hj : s.job? n with
  | none =>
    rw [take, withJob, hj]
    exact does_nothing _
  | some j =>
    obtain rfl := number_of_job? hj
    rw [take, withJob, hj]
    have htaken := makes_takeReply hj r
    cases hbegun : j.begun with
    | true =>
      rw [if_pos hbegun] at htaken
      dsimp only
      rw [htaken]
      exact does_nothing _
    | false =>
      rw [if_neg (by simp [hbegun])] at htaken
      exact .idles hj hbegun htaken

/-- **What moves do.** -/
theorem does_act (s : Session) (x : Move) : s.Does x (s.act x) := by
  cases x with
  | receive m => exact .hears (hears_receive s m)
  | reorder ready timers now => exact .rests rfl rfl rfl rfl
  | surround script reply disk => exact .surrounds script reply disk
  | turn t =>
    cases t with
    | advance number => exact does_advance number
    | wake number => exact (does_later number).1
    | expire number => exact (does_later number).2
    | reply number r => exact does_reply number r
    | opened uri => exact .rests rfl rfl rfl rfl
    | closed uri => exact .rests rfl rfl rfl rfl
    | orphan pid =>
      change s.Does _ (s.take (.orphan pid))
      unfold take
      dsimp only
      split
      · exact does_nothing _
      · next o ho =>
        obtain rfl : o.process.pid = pid := by simpa using List.find?_some ho
        exact .plays ho (plays_playOrphan s o)

end Session

end FormatServer
