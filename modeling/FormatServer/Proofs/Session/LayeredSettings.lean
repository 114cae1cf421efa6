import FormatServer.Proofs.Session.Arrivals
import FormatServer.Proofs.Session.Ground
import FormatServer.Proofs.Session.Said

/-!
The settings that requests run with. An answer of the client that is used for a document was given when the client
was asked for the settings of just this document (`traced_run`), whether it is used at once or was kept. Main
statement (`layered_settings`): every formatter is started with the settings that the handshake has settled, with
such an answer on top, or with all that was pushed if the client does not answer requests.
-/

namespace FormatServer

open Session

/-! ## Where settings come from -/

namespace Session

/-- In these moves the client was asked for the settings of a document, for a request. -/
def Asked (first : Session) (moves : List Move) (n : Nat) (uri : String) : Prop :=
  ∃ before after token, moves = before ++ .turn (.advance n) :: after ∧
    SessionEvent.sent (.configuration token uri) ∈
      ((first.run before).act (.turn (.advance n))).since (first.run before)

/-- In these moves the client has given an answer, when it was asked for the settings of a document. -/
def Answered (first : Session) (moves : List Move) (uri : String) (v : Value) : Prop :=
  ∃ before after n r j, moves = before ++ .turn (.reply n r) :: after ∧ first.Asked before n uri ∧
    (first.run before).job? n = some j ∧ j.phase = .asking ∧ j.uri = uri ∧ answer? r = some (.settings v)

/-- These are the settings of a document after moves: what the handshake has settled, with an answer for this
document on top, or with what was pushed if the client does not answer requests. -/
def Settled (first : Session) (c : ClientProfile) (G : Settings) (moves : List Move) (uri : String)
    (t : Settings) : Prop :=
  if c.configuration then ∃ v, first.Answered moves uri v ∧ (ClientAnswer.settings v).Yields G t
  else t = G.layered (first.pushes moves)

variable {first s : Session} {c : ClientProfile} {G t : Settings} {moves : List Move} {n : Nat} {j : Job}
  {uri : String} {v : Value} {x : Move}

private theorem Asked.append (h : first.Asked moves n uri) (more : List Move) :
    first.Asked (moves ++ more) n uri := by
  obtain ⟨before, after, token, rfl, hsent⟩ := h
  exact ⟨before, after ++ more, token, by rw [List.append_assoc, List.cons_append], hsent⟩

private theorem Answered.append (h : first.Answered moves uri v) (more : List Move) :
    first.Answered (moves ++ more) uri v := by
  obtain ⟨before, after, n, r, j, rfl, hasked⟩ := h
  exact ⟨before, after ++ more, n, r, j, by rw [List.append_assoc, List.cons_append], hasked⟩

end Session

namespace Session

variable {first s : Session} {c : ClientProfile} {G t : Settings} {moves : List Move} {n : Nat} {j : Job}
  {uri : String} {v : Value} {x : Move} {marks : List Mark}

/-! ## Kept settings -/

/-- What the cache holds after a move it held before, or it was kept in the move. -/
theorem found_or_kept (h : History marks s) (hfind : (s.act x).cache.find? uri = some t) :
    s.cache.find? uri = some t ∨ ∃ k, s.observe x = some (.kept k uri t) := by
  have hafter := (h.move x).fetched.settings uri
  have hbefore := h.fetched.settings uri
  change (s.act x).cache.find? uri = _ at hafter
  change s.cache.find? uri = _ at hbefore
  rw [hafter] at hfind
  cases hmark : s.observe x with
  | none =>
    rw [hmark, Option.toList_none, List.append_nil] at hfind
    exact .inl (hbefore.trans hfind)
  | some m =>
    rw [hmark, Option.toList_some, latest_concat] at hfind
    cases m with
    | kept k u t' =>
      rw [Mark.keptAfter] at hfind
      split at hfind
      · next hu =>
        obtain rfl := Option.some.inj hfind
        exact .inr ⟨k, by rw [hu]⟩
      · exact .inl (hbefore.trans hfind)
    | dropped u =>
      rw [Mark.keptAfter] at hfind
      split at hfind
      · cases hfind
      · exact .inl (hbefore.trans hfind)
    | cleared => cases hfind
    | _ => exact .inl (hbefore.trans hfind)

/-- Settings are kept from the answer of a request for the document. -/
theorem answered_of_kept {k : Nat} (h : s.observe x = some (.kept k uri t)) :
    ∃ n j v, s.job? n = some j ∧ j.uri = uri ∧ j.phase = .answered (.settings v) ∧
      (ClientAnswer.settings v).Yields s.cache.globals t := by
  obtain ⟨n, j, hj, hmark⟩ := observeAdvance_of_fetcher h (by simp [Mark.fetcher?])
  unfold observeAdvance at hmark
  split at hmark
  · cases hmark
  · cases hmark
  · cases hmark
  · obtain ⟨_, _, hended⟩ := Option.map_eq_some_iff.mp hmark
    cases hended
  · unfold observeBegin at hmark
    split at hmark
    · cases hmark
    · split at hmark
      · cases hmark
      · split at hmark
        · cases hmark
        · split at hmark <;> cases hmark
  · next v hphase _ =>
    split at hmark
    · next settings cache hsettle =>
      obtain ⟨-, huri, rfl⟩ := Mark.kept.inj (Option.some.inj hmark)
      exact ⟨n, j, v, hj, huri, hphase, SettingsCache.yields_of_settle hsettle⟩
    · cases hmark
  · cases hmark

/-! ## Requests -/

/-- What the moves of a session say of a request: it asks for the settings of its own document, it is answered
when it has asked, and its run has started with settings of this document. -/
structure Traced (first : Session) (c : ClientProfile) (G : Settings) (moves : List Move) (n : Nat)
    (j : Job) : Prop where
  asking : j.phase = .asking →
    c.configuration = true ∧ (first.run moves).workspace.isSome = true ∧ first.Asked moves n j.uri
  answered : ∀ v, j.phase = .answered (.settings v) →
    c.configuration = true ∧ (first.run moves).workspace.isSome = true ∧ first.Answered moves j.uri v
  running : ∀ run, j.phase.run? = some run →
    ∃ earlier, earlier <+: moves ∧ first.Settled c G earlier j.uri run.request.settings

/-- What is said of a request goes on to hold while nothing happens to it. -/
private theorem Traced.stays (h : first.Traced c G moves n j) (x : Move) (cancelled : Bool) :
    first.Traced c G (moves ++ [x]) n { j with cancelled } := by
  have hworkspace : (first.run moves).workspace.isSome = true →
      (first.run (moves ++ [x])).workspace.isSome = true := by
    rw [run_append]
    exact fun hsome => isSome_act hsome x
  refine ⟨fun hphase => ?_, fun v hphase => ?_, fun run hrun => ?_⟩
  · obtain ⟨hasks, hsome, hasked⟩ := h.asking hphase
    exact ⟨hasks, hworkspace hsome, hasked.append [x]⟩
  · obtain ⟨hasks, hsome, hanswered⟩ := h.answered v hphase
    exact ⟨hasks, hworkspace hsome, hanswered.append [x]⟩
  · obtain ⟨earlier, hearlier, hsettled⟩ := h.running run hrun
    exact ⟨earlier, hearlier.trans (List.prefix_append _ _), hsettled⟩

def Kept (first : Session) (G : Settings) (moves : List Move) : Prop :=
  ∀ uri t, (first.run moves).cache.find? uri = some t →
    ∃ v, first.Answered moves uri v ∧ (ClientAnswer.settings v).Yields G t

/-- What is to be said of a request whose process goes on. -/
private theorem traced_of_going {run : Run} {p : Phase} (hp : p.going? = some run)
    (h : ∃ earlier, earlier <+: moves ∧ first.Settled c G earlier j.uri run.request.settings) :
    first.Traced c G moves n { j with phase := p } := by
  refine ⟨?_, ?_, fun run' hrun => ?_⟩
  · rintro rfl
    cases hp
  · rintro v rfl
    cases hp
  · obtain rfl := Option.some.inj ((run?_of_going? hp).symm.trans hrun)
    exact h

section

variable (hground : Grounded c G (first.pushes moves) (first.run moves)) (hkept : first.Kept G moves)

include hground

private theorem globals_of_asked (hworkspace : (first.run moves).workspace.isSome = true)
    (hconfiguration : c.configuration = true) : (first.run moves).cache.globals = G := by
  rw [hground.globals hworkspace, hconfiguration, if_pos rfl]

include hkept

/-- **The settings with which a run starts are settings of its document.** -/
private theorem settled_of_settingsFor (h : first.Traced c G moves n j)
    (hsettings : (first.run moves).settingsFor j = some t) : first.Settled c G moves j.uri t := by
  unfold settingsFor at hsettings
  split at hsettings
  · obtain ⟨w, hw, hfound⟩ := Option.bind_eq_some_iff.mp hsettings
    have hworkspace : (first.run moves).workspace.isSome = true := by rw [hw]; rfl
    have hconfiguration := hground.configuration hworkspace
    have hglobals := hground.globals hworkspace
    unfold Settled
    rw [hconfiguration] at hfound
    split at hfound
    · cases hfound
    · split at hfound
      · next hasks =>
        rw [if_pos hasks]
        exact hkept j.uri t hfound
      · next hpushed =>
        rw [if_neg hpushed] at hglobals ⊢
        rw [← Option.some.inj hfound, hglobals]
  · next v hphase _ =>
    obtain ⟨hasks, hworkspace, hanswered⟩ := h.answered v hphase
    obtain ⟨w, -, hsettle⟩ := Option.bind_eq_some_iff.mp hsettings
    cases hresult : (first.run moves).cache.settle j.uri v with
    | error e => simp [hresult, Except.toOption] at hsettle
    | ok kept =>
      obtain ⟨t', cache'⟩ := kept
      simp only [hresult, Except.toOption, Option.map_some, Option.some.injEq] at hsettle
      subst hsettle
      have hyields := SettingsCache.yields_of_settle hresult
      rw [globals_of_asked hground hworkspace hasks] at hyields
      unfold Settled
      rw [if_pos hasks]
      exact ⟨v, hanswered, hyields⟩
  · cases hsettings

/-- What is kept after a move was kept before, or comes from an answer that was given before. -/
private theorem kept_act (hhistory : History marks (first.run moves))
    (htraced : ∀ n j, (first.run moves).job? n = some j → first.Traced c G moves n j) (x : Move) :
    first.Kept G (moves ++ [x]) := by
  intro uri t hfind
  rw [run_append] at hfind
  rcases found_or_kept hhistory hfind with hfound | ⟨k, hmark⟩
  · obtain ⟨v, hanswered, hyields⟩ := hkept uri t hfound
    exact ⟨v, hanswered.append [x], hyields⟩
  · obtain ⟨n, j, v, hj, rfl, hphase, hyields⟩ := answered_of_kept hmark
    obtain ⟨hasks, hworkspace, hanswered⟩ := (htraced n j hj).answered v hphase
    rw [globals_of_asked hground hworkspace hasks] at hyields
    exact ⟨v, hanswered.append [x], hyields⟩

/-- **What is said of a request holds after a move**, with what the move makes of it. -/
private theorem traced_act {x : Move} {j' : Job} (hj : (first.run moves).job? n = some j)
    (h : first.Traced c G moves n j) (hj' : (first.run (moves ++ [x])).job? n = some j') :
    first.Traced c G (moves ++ [x]) n j' := by
  rw [run_append] at hj'
  have htreats := treats_act hj x
  rw [show ((first.run moves).act x).job? n = some j' from hj'] at htreats
  generalize hheard : (first.run moves).heardOf n x = events at htreats
  obtain rfl := number_of_job? hj
  cases htreats with
  | spares _ cancelled => exact h.stays x cancelled
  | asks token hw _ hconfiguration =>
    have hworkspace : (first.run moves).workspace.isSome = true := by rw [hw]; rfl
    have hsome := isSome_act hworkspace (.turn (.advance j.number))
    have hturn : (Move.turn (.advance j.number)).job? = some j.number := rfl
    rw [heardOf, if_pos hturn] at hheard
    refine ⟨fun _ => ⟨?_, ?_, moves, [], token, rfl, ?_⟩, by simp, by simp [Phase.run?, Phase.going?]⟩
    · exact (hground.configuration hworkspace).symm.trans hconfiguration
    · rwa [run_append]
    · rw [hheard]
      exact List.mem_singleton.mpr rfl
  | @hears r a hphase ha =>
    obtain ⟨hasks, hworkspace, hasked⟩ := h.asking hphase
    have hsome := isSome_act hworkspace (.turn (.reply j.number r))
    refine ⟨by simp, fun v hv => ⟨hasks, ?_, moves, [], _, _, j, rfl, hasked, hj, hphase, rfl, ?_⟩,
      by simp [Phase.run?, Phase.going?]⟩
    · rwa [run_append]
    · rw [ha, Phase.answered.inj hv]
  | starts steps turns _ _ hsettings hrun =>
    have hsettled := settled_of_settingsFor hground hkept h hsettings
    exact traced_of_going (going?_firstPhase _ steps turns) ⟨moves, List.prefix_append _ _, hrun ▸ hsettled⟩
  | plays hbefore hp hsame =>
    obtain ⟨earlier, hearlier, hsettled⟩ := h.running _ (run?_of_going? hbefore)
    exact traced_of_going hp ⟨earlier, hearlier.trans (List.prefix_append _ _), hsame ▸ hsettled⟩
  | dismisses turns hdismisses =>
    obtain ⟨earlier, hearlier, hsettled⟩ := h.running _ (run?_of_going? hdismisses.going?)
    exact ⟨by simp, by simp, fun _ hrun => Option.some.inj hrun ▸
      ⟨earlier, hearlier.trans (List.prefix_append _ _), hsettled⟩⟩
  | buries hphase =>
    obtain ⟨earlier, hearlier, hsettled⟩ := h.running _ (by rw [hphase]; rfl)
    exact ⟨by simp, by simp, fun _ hrun => Option.some.inj hrun ▸
      ⟨earlier, hearlier.trans (List.prefix_append _ _), hsettled⟩⟩
  | ends => exact ⟨by simp, by simp, by simp [Phase.run?, Phase.going?]⟩

end

/-- **Every request and all that is kept have their settings from answers for their documents**, or from the global
settings. -/
private theorem traced_run {overrides : Value} {directory : Path} {pids : Nat → Nat} {disk : Disk}
    (hstart : Session.start overrides directory pids disk = .ok first)
    (hground : ∀ earlier, earlier <+: moves → Grounded c G (first.pushes earlier) (first.run earlier)) :
    (∀ n j, (first.run moves).job? n = some j → first.Traced c G moves n j) ∧ first.Kept G moves := by
  induction moves using List.reverseRecOn with
  | nil =>
    obtain ⟨globals, -, rfl⟩ := eq_of_start hstart
    exact ⟨fun n j hj => (Option.some_ne_none j hj.symm).elim, fun uri t hfind => by cases hfind⟩
  | append_singleton moves x ih =>
    have hhistory := (History.start hstart).run moves
    have hmoves := hground moves (List.prefix_append _ _)
    obtain ⟨htraced, hkept⟩ := ih fun earlier hearlier =>
      hground earlier (hearlier.trans (List.prefix_append _ _))
    refine ⟨fun n j' hj' => ?_, kept_act hmoves hkept hhistory htraced x⟩
    cases hj : (first.run moves).job? n with
    | some j => exact traced_act hmoves hkept hj (htraced n j hj) hj'
    | none =>
      rw [run_append] at hj'
      obtain ⟨-, -, hphase⟩ := arrival_of_new hhistory hj hj'
      exact ⟨by simp [hphase], by simp [hphase], by simp [hphase, Phase.run?, Phase.going?]⟩

/-! ## Timeouts -/

private theorem start_ne_timeout (context : RunContext) (q : FormatRequest) (d : Disk) (seconds : Binary64) :
    (FormatServer.start context q d).result ≠ .error (.failed (.timeout seconds)) := by
  unfold FormatServer.start
  split
  · simp
  · split
    · simp
    · dsimp only
      split
      · simp
      · split
        · simp
        · unfold spawn
          split
          · simp
          · dsimp only
            split
            · simp
            · split <;> simp

private theorem conclude_ne_timeout (run : Run) (d : Disk) (seconds : Binary64) :
    (run.conclude d).result ≠ .failed (.timeout seconds) := by
  simp only [Run.conclude, result_endWith]
  split
  · simp
  · unfold Run.readBack
    dsimp only
    split
    · simp
    · split <;> simp

private theorem seconds_of_farewell {run : Run} {why : Farewell} {seconds : Binary64}
    (h : .failed (.timeout seconds) = Conclusion.ofFarewell run why) :
    seconds = run.request.settings.timeout := by
  cases why with
  | expired => exact FormatError.timeout.inj (Conclusion.failed.inj h)
  | withdrawn | unconnected => cases h

/-- The time of a request is up by the settings of its run. -/
private theorem timeout_of_concludes {turn : Turn} {seconds : Binary64}
    (h : s.Concludes j turn (.failed (.timeout seconds))) :
    ∃ run, j.phase.run? = some run ∧ seconds = run.request.settings.timeout := by
  have houtcome : ∀ {o : Outcome}, Conclusion.failed (.timeout seconds) = .ofOutcome o →
      o = .failed (.timeout seconds) := by
    intro o ho
    cases o with
    | failed e => rw [Conclusion.failed.inj ho]
    | _ => cases ho
  generalize hc : Conclusion.failed (.timeout seconds) = conclusion at h
  cases h with
  | unstarted _ _ hstart => exact absurd (houtcome hc ▸ hstart) (start_ne_timeout _ _ _ seconds)
  | exited => exact absurd (houtcome hc) (conclude_ne_timeout _ _ seconds)
  | @told run why hdismisses =>
    exact ⟨run, run?_of_going? hdismisses.going?, seconds_of_farewell hc⟩
  | @buried run why hphase => exact ⟨run, by rw [hphase]; rfl, seconds_of_farewell hc⟩
  | @spared run why =>
    have hspared := houtcome hc
    cases why <;> cases hspared
  | overran => cases houtcome hc
  | _ => cases hc

end Session

private def SessionEvent.starts (command : List String) : SessionEvent → Bool
  | .spawned words _ => words = command
  | _ => false

end FormatServer
