import FormatServer.Proofs.Session.Request

/-!
What a session says, and in which moves. What is said in a move that is no turn of a request is about none
(`foreign_act`), and what is said in the turn of a request is about that one. So all that is ever said is one of
few things (`says_act`): formatters are started with settings that there are for a request, the client is asked
for settings only if it answers such requests, and what is reported or answered is how a request has ended.
-/

namespace FormatServer

namespace Session

/-! ## Moves that are no turns of requests -/

/-- What a session says in a move that is no turn of a request. -/
inductive Foreign : Move → SessionEvent → Prop where
  /-- a call that is no formatting request is answered at once -/
  | response {id : RequestId} {c : Call} (r : Response) (hc : ∀ uri range, c ≠ .format uri range) :
      Foreign (.receive (.ok (.call id c))) (.sent (.response id r))
  | report (m : Except MessageFault Incoming) (text : String) :
      Foreign (.receive m) (.sent (.log .error text))
  | log (x : Move) {level : LogLevel} (hlevel : level ≠ .error) (text : String) :
      Foreign x (.sent (.log level text))
  | alert (x : Move) (text : String) : Foreign x (.sent (.alert text))
  | registration (x : Move) (token name : String) : Foreign x (.sent (.registration token name))
  | ended (x : Move) (code : Nat) : Foreign x (.ended code)

def Talks (s : Session) (x : Move) (s' : Session) : Prop :=
  ∃ events, s'.trace = s.trace ++ events ∧ ∀ e ∈ events, Foreign x e

variable {s s' s₁ s₂ s₃ : Session} {x : Move} {e : SessionEvent}

private theorem talks_nothing (h : s'.trace = s.trace) : s.Talks x s' :=
  ⟨[], by rw [h, List.append_nil], by simp⟩

private theorem talks_once (h : s'.trace = s.trace ++ [e]) (he : Foreign x e) : s.Talks x s' :=
  ⟨[e], h, by simpa using he⟩

private theorem Talks.trans (h : s₁.Talks x s₂) (h' : s₂.Talks x s₃) : s₁.Talks x s₃ := by
  obtain ⟨events, htrace, hevents⟩ := h
  obtain ⟨more, htrace', hmore⟩ := h'
  refine ⟨events ++ more, by rw [htrace', htrace, List.append_assoc], fun e he => ?_⟩
  exact (List.mem_append.mp he).elim (hevents e) (hmore e)

private theorem talks_withStore {f : DocumentStore → Session → Session}
    (hf : ∀ store, s.Talks x (f store s)) : s.Talks x (s.withStore f) := by
  unfold withStore
  split
  · exact talks_once rfl (.alert x _)
  · exact hf _

private theorem trace_withdraw (s : Session) (number : Nat) : (s.withdraw number).trace = s.trace := by
  unfold withdraw
  split
  · rfl
  · dsimp only
    split <;> rfl

private theorem trace_cancelAll (s : Session) : s.cancelAll.trace = s.trace := by
  unfold cancelAll
  generalize s.withdrawable = pairs
  induction pairs generalizing s with
  | nil => rfl
  | cons pair rest ih => exact (ih _).trans (trace_withdraw s pair.2)

private theorem talks_loadWorkspace {m : Except MessageFault Incoming} {root : Path}
    (h : s.loadWorkspace root = .ok s') : s.Talks (.receive m) s' := by
  unfold loadWorkspace at h
  split at h
  · next settings found _ =>
    obtain rfl := Except.ok.inj h
    cases found with
    | true => exact talks_once rfl (.log _ (by decide) _)
    | false => exact talks_nothing rfl
  · split at h
    · obtain rfl := Except.ok.inj h
      exact talks_once rfl (.report m _)
    · cases h

private theorem talks_handshake (id : RequestId) (c : ClientProfile) :
    s.Talks (.receive (.ok (.call id (.handshake c)))) (s.handshake id c) := by
  have hanswers : ∀ {s₁ : Session} (r : Response), s.Talks (.receive (.ok (.call id (.handshake c)))) s₁ →
      s.Talks (.receive (.ok (.call id (.handshake c)))) (s₁.respond id r) :=
    fun r h => h.trans (talks_once rfl (.response r nofun))
  have hmeet : s.Talks (.receive (.ok (.call id (.handshake c)))) (s.meet c) := talks_nothing rfl
  unfold handshake
  dsimp only
  split
  · exact hanswers _ (talks_nothing rfl)
  · split
    · exact hanswers _ hmeet
    · split
      · exact hanswers _ hmeet
      · split
        · exact hanswers _ hmeet
        · exact hanswers _ hmeet
        · split
          · next h => exact hanswers _ (hmeet.trans (talks_loadWorkspace h))
          · exact hanswers _ hmeet

private theorem talks_handleCall (id : RequestId) (c : Call) :
    s.Talks (.receive (.ok (.call id c))) (s.handleCall id c) := by
  cases c with
  | handshake client => exact talks_handshake id client
  | shutdown =>
    refine talks_once ?_ (.response .nothing nofun)
    exact congrArg (· ++ _) (trace_cancelAll s)
  | format uri range => exact talks_nothing rfl
  | command name => exact talks_once rfl (.response _ nofun)
  | other method => exact talks_once rfl (.response _ nofun)

private theorem talks_configured (m : Except MessageFault Incoming) (pushed : Value) :
    s.Talks (.receive m) (s.configured pushed) := by
  unfold configured
  split
  · exact talks_nothing rfl
  · split
    · exact talks_nothing rfl
    · split
      · exact talks_once rfl (.report m _)
      · exact talks_once rfl (.alert _ _)

private theorem talks_clientReady (x : Move) : s.Talks x s.clientReady := by
  have hwatches : ∀ {s₁ : Session}, s.Talks x s₁ →
      s.Talks x (if s₁.folderEvents then { s₁ with watchesFolders := true } else s₁) := by
    intro s₁ h
    split <;> exact h
  refine hwatches ?_
  split
  · exact talks_once rfl (.registration x _ _)
  · exact talks_nothing rfl

private theorem talks_handleNotice (n : Notice) :
    s.Talks (.receive (.ok (.notice n))) (s.handleNotice n) := by
  cases n with
  | opened d =>
    refine talks_withStore fun store => ?_
    split
    · exact talks_once rfl (.alert _ _)
    · exact talks_nothing rfl
  | changed uri version texts =>
    refine talks_withStore fun store => ?_
    split
    · exact talks_once rfl (.alert _ _)
    · exact talks_nothing rfl
  | closed uri => exact talks_withStore fun store => talks_nothing rfl
  | configured settings => exact talks_configured _ settings
  | ready => exact talks_clientReady _
  | folders changed =>
    simp only [handleNotice, foldersChanged]
    split
    · exact talks_once rfl (.alert _ _)
    · split
      · exact talks_once rfl (.log _ (by decide) _)
      · exact talks_nothing rfl
  | cancel id =>
    simp only [handleNotice, cancel]
    split
    · exact talks_nothing rfl
    · exact talks_nothing (trace_withdraw _ _)
  | exit => exact talks_once rfl (.ended _ _)
  | other => exact talks_nothing rfl

private theorem talks_receive (m : Except MessageFault Incoming) :
    s.Talks (.receive m) (s.receive m) := by
  have hhandles := handles_receive s m
  generalize s.receive m = s' at hhandles
  cases hhandles with
  | fault _ fault => exact talks_once rfl (.alert _ _)
  | call _ id c => exact talks_handleCall id c
  | notice _ n => exact talks_handleNotice n
  | exit => exact talks_once rfl (.ended _ _)
  | finished | ignored | unhandled => exact talks_nothing rfl

private theorem talks_outputs {logs : List String} (h : s'.trace = s.trace ++ (outputEvents logs).map eventOf) :
    s.Talks x s' := by
  refine ⟨_, h, fun e he => ?_⟩
  obtain ⟨_, hrun, rfl⟩ := List.mem_map.mp he
  obtain ⟨text, _, rfl⟩ := List.mem_map.mp hrun
  exact .log x (by decide) text

private theorem talks_playOrphan (o : Orphan) : s.Talks x (s.playOrphan o) := by
  unfold playOrphan
  dsimp only
  split
  · exact talks_outputs rfl
  · exact talks_nothing rfl
  · exact talks_nothing rfl
  · exact talks_outputs rfl

private theorem talks_act (s : Session) (hx : x.job? = none) : s.Talks x (s.act x) := by
  cases x with
  | receive m => exact talks_receive m
  | reorder ready timers now => exact talks_nothing rfl
  | surround script reply disk => exact talks_nothing rfl
  | turn t =>
    cases t with
    | advance n | wake n | expire n => cases hx
    | reply n r =>
      simp only [act, take, withJob]
      split
      · exact talks_nothing rfl
      · unfold takeReply
        split
        · exact talks_nothing rfl
        · exact talks_once rfl (.alert _ _)
        · exact talks_nothing rfl
    | orphan pid =>
      simp only [act, take]
      split
      · exact talks_nothing rfl
      · exact talks_playOrphan _
    | opened uri => exact talks_once rfl (.log _ (by decide) _)
    | closed uri => exact talks_once rfl (.log _ (by decide) _)

/-- **What is said in a move that is no turn of a request is about none.** -/
theorem foreign_act (s : Session) (hx : x.job? = none) : ∀ e ∈ (s.act x).since s, Foreign x e := by
  obtain ⟨events, htrace, hevents⟩ := talks_act s hx
  rwa [since_of_trace htrace]

/-- A move takes back nothing of what was said. -/
theorem trace_act (s : Session) (x : Move) : (s.act x).trace = s.trace ++ (s.act x).since s := by
  suffices h : ∃ events, (s.act x).trace = s.trace ++ events by
    obtain ⟨events, htrace⟩ := h
    rw [since_of_trace htrace, htrace]
  cases hx : x.job? with
  | none =>
    obtain ⟨events, htrace, -⟩ := talks_act s hx
    exact ⟨events, htrace⟩
  | some n =>
    obtain ⟨t, o, rfl, ht⟩ := exists_own? hx
    cases hj : s.job? n with
    | none => exact ⟨[], by rw [act, take_of_own?_none ht hj, List.append_nil]⟩
    | some j =>
      obtain ⟨m, hmakes⟩ := exists_makes hj ht
      exact ⟨_, hmakes.trace⟩

/-! ## Runs -/

theorem trace_run (s : Session) (moves : List Move) :
    (s.run moves).trace = s.trace ++ (s.run moves).since s := by
  suffices h : ∃ events, (s.run moves).trace = s.trace ++ events by
    obtain ⟨events, htrace⟩ := h
    rw [since_of_trace htrace, htrace]
  induction moves generalizing s with
  | nil => exact ⟨[], (List.append_nil _).symm⟩
  | cons x rest ih =>
    obtain ⟨events, htrace⟩ := ih (s.act x)
    exact ⟨(s.act x).since s ++ events, htrace.trans (by rw [trace_act, List.append_assoc])⟩

/-- What is said in a run is said in its moves, one after another. -/
theorem since_cons (s : Session) (x : Move) (rest : List Move) :
    (s.run (x :: rest)).since s =
      (s.act x).since s ++ ((s.act x).run rest).since (s.act x) := by
  refine since_of_trace ?_
  change ((s.act x).run rest).trace = _
  rw [trace_run, trace_act, List.append_assoc]

theorem mem_since {moves : List Move} (h : e ∈ (s.run moves).since s) :
    ∃ earlier x later, moves = earlier ++ x :: later ∧
      e ∈ ((s.run earlier).act x).since (s.run earlier) := by
  induction moves generalizing s with
  | nil =>
    rw [show (s.run []).since s = s.trace.drop s.trace.length from rfl, List.drop_length] at h
    cases h
  | cons x rest ih =>
    rw [since_cons] at h
    rcases List.mem_append.mp h with h | h
    · exact ⟨[], x, rest, rfl, h⟩
    · obtain ⟨earlier, y, later, rfl, hy⟩ := ih h
      exact ⟨x :: earlier, y, later, rfl, hy⟩

/-- **Whatever a session has said, it has said in one of its moves.** -/
theorem mem_trace {overrides : Value} {directory : Path} {pids : Nat → Nat} {disk : Disk}
    {first : Session} (hstart : Session.start overrides directory pids disk = .ok first) {moves : List Move}
    (h : e ∈ (first.run moves).trace) :
    ∃ earlier x later, moves = earlier ++ x :: later ∧
      e ∈ ((first.run earlier).act x).since (first.run earlier) := by
  have hfresh : first.trace = [] := by
    obtain ⟨globals, -, rfl⟩ := eq_of_start hstart
    rfl
  rw [trace_run, hfresh, List.nil_append] at h
  exact mem_since h

/-! ## All moves -/

inductive Says (s : Session) : Move → SessionEvent → Prop where
  /-- something that is about no request, or an entry of the log that is no error -/
  | foreign {x : Move} {e : SessionEvent} (h : Foreign x e) : Says s x e
  | kills (x : Move) (pid : Nat) : Says s x (.killed pid)
  | stops (x : Move) (pid : Nat) : Says s x (.stopped pid)
  | spares (x : Move) (pid : Nat) (group : Bool) : Says s x (.spared pid group)
  /-- the client is asked for the settings of a request's document -/
  | asks {j : Job} {w : Workspace} (token : String) (hj : s.job? j.number = some j)
      (hw : s.workspace = some w) (hconfiguration : s.configuration = true) :
      Says s (.turn (.advance j.number)) (.sent (.configuration token j.uri))
  /-- the formatter of a request is started with settings that there are for it -/
  | starts {j : Job} {w : Workspace} {t : Settings} {command : List String} {content : List UInt8}
      (hj : s.job? j.number = some j) (hw : s.workspace = some w) (hsettings : s.settingsFor j = some t)
      (hstart : .spawned command content ∈ (FormatServer.start (s.context w)
        { uri := j.uri, range := j.range, settings := t } s.disk).events) :
      Says s (.turn (.advance j.number)) (.spawned command content)
  /-- a request ends with a formatting error -/
  | reports {j : Job} {t : Turn} {e : FormatError} (hj : s.job? j.number = some j)
      (h : s.Concludes j t (.failed e)) : Says s (.turn t) (.sent (.log .error e.message))
  /-- a request is answered that has ended -/
  | answers {j : Job} {r : Response} (hj : s.job? j.number = some j) (hphase : j.phase = .done r) :
      Says s (.turn (.advance j.number)) (.sent (.response j.id r))

/-- What a run says is no more than a start, the end of its process or an entry of the log. -/
private theorem says_run {events : List RunEvent} (herrorless : Errorless events)
    (hspawns : ∀ command content, .spawned command content ∈ events → s.Says x (.spawned command content)) :
    ∀ e ∈ events.map eventOf, s.Says x e := by
  intro e he
  obtain ⟨event, hevent, rfl⟩ := List.mem_map.mp he
  cases event with
  | logged level text =>
    refine .foreign (.log x ?_ text)
    rintro rfl
    exact herrorless text hevent
  | spawned command content => exact hspawns command content hevent
  | killed pid => exact .kills x pid
  | stopped pid => exact .stops x pid
  | spared pid group => exact .spares x pid group

private theorem says_of_treats {j : Job} {j' : Option Job} {events : List SessionEvent}
    (hj : s.job? j.number = some j) (h : s.Treats j x j' events) : ∀ e ∈ events, s.Says x e := by
  cases h with
  | spares => simp
  | asks token hw _ hconfiguration => simpa using .asks token hj hw hconfiguration
  | hears => simp
  | starts _ _ _ hw hsettings =>
    exact says_run (errorless_start _ _ _) fun command content => .starts hj hw hsettings
  | plays => exact says_run (errorless_outputEvents _) fun command content h => by simp [outputEvents] at h
  | @dismisses run why turns h =>
    refine says_run (errorless_signal run why) fun command content hmem => ?_
    rw [mem_spawns, spawns_signal] at hmem
    cases hmem
  | buries => simp
  | @ends t c events h _ herrorless hspawns =>
    intro e he
    rcases List.mem_append.mp he with he | he
    · refine says_run herrorless (fun command content hmem => ?_) e he
      obtain ⟨w, settings, rfl, hw, hsettings, hstart⟩ := hspawns command content hmem
      exact .starts hj hw hsettings hstart
    · cases c with
      | failed error =>
        obtain rfl := List.mem_singleton.mp he
        exact .reports hj h
      | _ => cases he
  | leaves hphase => simpa using .answers hj hphase

/-- **What a session says.** -/
theorem says_act (s : Session) (x : Move) : ∀ e ∈ (s.act x).since s, s.Says x e := by
  intro e he
  cases hx : x.job? with
  | none => exact .foreign (foreign_act s hx e he)
  | some n =>
    cases hj : s.job? n with
    | none =>
      obtain ⟨t, o, rfl, ht⟩ := exists_own? hx
      rw [act, take_of_own?_none ht hj, since, List.drop_length] at he
      cases he
    | some j =>
      have htreats := treats_act hj x
      rw [heardOf, if_pos hx] at htreats
      obtain rfl := number_of_job? hj
      exact says_of_treats hj htreats e he

end Session

end FormatServer
