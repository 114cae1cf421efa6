import FormatServer.Proofs.Session.Fetches
import FormatServer.Proofs.Session.Own
import FormatServer.Proofs.Settings.Answer

/-!
The client's settings of single documents. An answer gives settings, which are kept and with which the request
goes on, or it gives none (`yields_or_refused`). Then nothing is kept or started, and whatever happens in between,
the request is answered with an error and the client is asked again (`document_settings`). One kind of value is
refused like a failure of the server's own: a timeout that is an integer past all floating-point numbers.
-/

namespace FormatServer

open Session

/-! ## Turns -/

namespace Session

structure Keeps (s : Session) (j : Job) (t : Settings) (s' : Session) : Prop where
  globals : s'.cache.globals = s.cache.globals
  found : ∀ uri, s'.cache.find? uri = if uri = j.uri then some t else s.cache.find? uri
  starts : ∀ w, s.workspace = some w → s.Makes j.number (j.starts (s.context w) t s.disk) s'

/-- A request ends without a process: nothing is kept or started, and its answer is its next turn. -/
structure EndsUnstarted (s : Session) (j : Job) (said : List SessionEvent) (r : Response)
    (s' : Session) : Prop where
  makes : s.Makes j.number
    { job := some { j with phase := .done r }, disk := s.disk, events := said } s'
  cache : s'.cache = s.cache
  launched : s'.launched = s.launched
  ready : s'.ready = s.ready ++ [.advance j.number]

variable {s : Session} {j j₀ : Job} {n : Nat} {x : Move} {r : Response} {marks : List Mark}

theorem endsUnstarted_conclude (hj : s.job? j.number = some j₀) (r : Response) :
    s.EndsUnstarted j [] r (s.conclude j r) :=
  ⟨makes_proceed hj (.done r), rfl, rfl, rfl⟩

theorem endsUnstarted_settle (hj : s.job? j.number = some j₀) (e : FormatError) :
    s.EndsUnstarted j [.sent (.log .error e.message)] (.error (.formatting e))
      (s.settle j (.failed e)) :=
  ⟨makes_settle hj (.failed e), rfl, rfl, rfl⟩

private theorem cache_settle (s : Session) (j : Job) (o : Outcome) :
    (s.settle j o).cache = s.cache := by
  cases o <;> rfl

private theorem cache_connect (s : Session) (j : Job) (run : Run) (steps : List ScriptStep)
    (turns : Nat) : (s.connect j run steps turns).cache = s.cache := by
  cases turns with
  | zero =>
    rw [connect, launch]
    split <;> rfl
  | succ turns => rfl

private theorem cache_startRun (s : Session) (j : Job) (settings : Settings) :
    (s.startRun j settings).cache = s.cache := by
  unfold startRun
  split
  · rfl
  · dsimp only
    split
    · exact cache_settle ..
    · exact cache_connect ..

/-- **A request that waits goes on with the client's answer**, as soon as one arrives that can be read. -/
theorem makes_answered (hj : s.job? n = some j) (hphase : j.phase = .asking) {reply : ClientReply}
    {a : ClientAnswer} (ha : answer? reply = some a) :
    s.Makes n (j.enters (.answered a) s.disk []) (s.take (.reply n reply)) := by
  obtain rfl := number_of_job? hj
  have htake : s.take (.reply j.number reply) = s.proceed j (.answered a) := by
    simp only [take, withJob, hj, takeReply, hphase, ha]
  rw [htake]
  exact makes_proceed hj _

private theorem take_answered {a : ClientAnswer} (hj : s.job? j.number = some j)
    (hcancelled : j.cancelled = false) (hphase : j.phase = .answered a) :
    s.take (.advance j.number) = s.takeAnswer j a := by
  simp only [take_advance hj, advance, hphase, hcancelled]

/-- **Settings that an answer gives are kept**, and the request goes on with them. -/
theorem keeps_of_yields (hj : s.job? j.number = some j) (hcancelled : j.cancelled = false)
    {a : ClientAnswer} {t : Settings} (hphase : j.phase = .answered a)
    (h : a.Yields s.cache.globals t) : s.Keeps j t (s.take (.advance j.number)) := by
  obtain ⟨v, rfl⟩ : ∃ v, a = .settings v := by
    cases h <;> exact ⟨_, rfl⟩
  have hsettle := SettingsCache.settle_of_yields h j.uri
  have hsettings : ∀ w, s.workspace = some w → s.settingsFor j = some t := by
    intro w hw
    simp [settingsFor, hphase, hcancelled, hw, hsettle, Except.toOption]
  have hcache : (s.take (.advance j.number)).cache = s.cache.keep j.uri t := by
    rw [take_answered hj hcancelled hphase, takeAnswer, hsettle]
    exact cache_startRun ..
  refine ⟨by rw [hcache]; rfl, fun uri => ?_, fun w hw => ?_⟩
  · rw [hcache, SettingsCache.find?_keep]
  · obtain ⟨w', hw', hmakes⟩ := makes_starts hj (hsettings w hw)
    obtain rfl := Option.some.inj (hw.symm.trans hw')
    exact hmakes

/-- **A refused answer ends the request.** -/
theorem endsUnstarted_of_refused (hj : s.job? j.number = some j) (hcancelled : j.cancelled = false)
    {a : ClientAnswer} {said : List SessionEvent} {e : ResponseError}
    (hphase : j.phase = .answered a) (h : a.Refused s.cache.globals j.uri said e) :
    s.EndsUnstarted j said (.error e) (s.take (.advance j.number)) := by
  rw [take_answered hj hcancelled hphase]
  cases h with
  | byClient e => exact endsUnstarted_conclude hj _
  | @invalid entries e _ hmerged hsize htext =>
    subst htext
    have hrefusal : e.isRefusal = true := by
      by_contra hforeign
      exact hsize ((Settings.isRefusal_of_merged hmerged).mp (Bool.eq_false_iff.mpr hforeign)).1
    rw [takeAnswer, SettingsCache.settle_map, hmerged]
    simp only [Except.map, hrefusal, if_true]
    exact endsUnstarted_settle hj (.invalidSettings j.uri e.message)
  | @oversized entries hsize =>
    have hmerged : s.cache.globals.merged (.map entries) = .error .tooLarge := by
      rw [Settings.merged_map, Settings.changes_of_oversized hsize]
      rfl
    rw [takeAnswer, SettingsCache.settle_map, hmerged]
    exact endsUnstarted_conclude hj _

/-! ## Afterwards -/

/-- Until its turn a request that is done says nothing, and it is still to be answered so. -/
private theorem done_act (hj : s.job? n = some j) (hdone : j.phase = .done r) (hnext : n < s.nextJob)
    (hturn : x ≠ .turn (.advance n)) :
    (∃ j', (s.act x).job? n = some j' ∧ j'.phase = .done r ∧ j'.id = j.id) ∧ s.heardOf n x = [] := by
  have hbegun : ∀ j', s.job? n = some j' → j'.begun = true := by
    intro j' hj'
    obtain rfl := Option.some.inj (hj.symm.trans hj')
    rw [Job.begun, hdone]
  cases ho : s.own? n x with
  | none =>
    refine ⟨⟨j, (job?_of_other hbegun hnext ho).trans hj, hdone, rfl⟩, ?_⟩
    exact heardOf_of_other ho
  | some o =>
    have hown := alone_own (e := []) hbegun hnext ho
    rw [Solo.act_of_some (c := s.alone n []) hj] at hown
    obtain ⟨hjob, -, hheard⟩ := Solo.mk.inj hown
    simp only [alone, List.nil_append] at hjob hheard
    rw [hjob, hheard]
    cases o with
    | advance =>
      exfalso
      cases x with
      | turn t =>
        have ht := own?_turn.mp ho
        cases t <;> simp_all [Turn.own?]
      | receive m => simp [own?] at ho
      | _ => cases ho
    | wake => simp [Job.moved, hdone]
    | expire => simp [Job.moved, hdone]
    | withdraw => exact ⟨⟨_, rfl, hdone, rfl⟩, rfl⟩

/-- **A request that is done says nothing until its turn**, whatever happens, and then it is answered. -/
theorem answered_of_done (hj : s.job? n = some j) (hdone : j.phase = .done r) (hnext : n < s.nextJob)
    {moves : List Move} (hturn : .turn (.advance n) ∉ moves) :
    let s₁ := s.run moves
    s.heard n moves = [] ∧ s₁.Makes n (j.leaves r s₁.disk) (s₁.take (.advance n)) := by
  induction moves generalizing s j with
  | nil =>
    obtain rfl := number_of_job? hj
    have hmakes := makes_moved hj (by rw [Job.begun, hdone]) .advance
    simp only [Job.moved, Job.advances, hdone] at hmakes
    exact ⟨rfl, hmakes⟩
  | cons x rest ih =>
    rw [List.mem_cons, not_or] at hturn
    obtain ⟨⟨j', hj', hdone', hid⟩, hheard⟩ := done_act hj hdone hnext (Ne.symm hturn.1)
    have hrest := ih hj' hdone' (Nat.lt_of_lt_of_le hnext (nextJob_le s x)) hturn.2
    simp only [Job.leaves, hid] at hrest
    rw [heard, hheard]
    exact hrest

private theorem latest_append_none {uri : String} {more : List Mark} (hnone : latest uri marks = none)
    (hkept : ∀ n t, .kept n uri t ∉ more) : latest uri (marks ++ more) = none := by
  induction more using List.reverseRecOn with
  | nil => rwa [List.append_nil]
  | append_singleton more x ih =>
    simp only [List.mem_append, List.mem_singleton, not_or] at hkept
    rw [← List.append_assoc, latest_concat, ih fun n t => (hkept n t).1]
    cases x with
    | kept n u t =>
      have hne : u ≠ uri := by
        rintro rfl
        exact (hkept n t).2 rfl
      exact if_neg hne
    | dropped u => simp [Mark.keptAfter]
    | _ => rfl

/-- As long as no answer is kept for a document there is nothing for it. -/
theorem find?_run_of_not_kept (h : History marks s) {uri : String} (hnone : s.cache.find? uri = none)
    {moves : List Move} (hkept : ∀ n t, .kept n uri t ∉ s.marks moves) :
    (s.run moves).cache.find? uri = none := by
  have hlatest : latest uri marks = none := by
    have hmap := (h.fetched.settings uri).symm.trans hnone
    rwa [Option.map_eq_none_iff] at hmap
  have hfound : (s.run moves).cache.find? uri = _ := (h.run moves).fetched.settings uri
  rw [hfound, latest_append_none hlatest hkept, Option.map_none]

/-- A request is about to begin for which the client has to be asked, unless settings are kept. -/
structure Begins (s : Session) (j : Job) : Prop where
  job : s.job? j.number = some j
  phase : j.phase = .accepted
  going : j.cancelled = false
  configuration : s.configuration = true
  isOpen : ∃ w, s.workspace = some w ∧ w.store.contains j.uri = true

/-- **A document for which nothing is kept is asked for.** -/
theorem asks_of_begins (h : s.Begins j) (hnone : s.cache.find? j.uri = none) :
    s.Makes j.number (j.asks (tokenOf s.nextToken) s.disk) (s.take (.advance j.number)) := by
  obtain ⟨w, hw, hopen⟩ := h.isOpen
  have hask : s.take (.advance j.number) = s.ask j := by
    simp [take_advance h.job, advance, h.phase, h.going, begin, hw, hopen, h.configuration, hnone]
  rw [hask]
  exact makes_ask h.job

end Session

/-- **The client's settings of a document.** When a request goes on with an answer of the client:
the answer gives settings or is refused;
settings that it gives are the global ones with the answer on top, they are kept for the document, and the request
starts its run with them;
when it is refused, no process is started and nothing is kept; the request is answered with the error in its next
turn, whatever happens before, and as long as no other answer is kept the client is asked again. -/
theorem document_settings (s : Session) (j : Job) (hj : s.job? j.number = some j)
    (hcancelled : j.cancelled = false) (a : ClientAnswer) (hphase : j.phase = .answered a) :
    let s' := s.take (.advance j.number)
    ((∃ t, a.Yields s.cache.globals t) ∨ ∃ said e, a.Refused s.cache.globals j.uri said e) ∧
    (∀ t, a.Yields s.cache.globals t → s.Keeps j t s') ∧
    ∀ said e, a.Refused s.cache.globals j.uri said e →
      s.EndsUnstarted j said (.error e) s' ∧
      ∀ marks, History marks s → ∀ moves : List Move,
        let s₁ := s'.run moves
        (.turn (.advance j.number) ∉ moves →
          s'.heard j.number moves = [] ∧
            s₁.Makes j.number (j.leaves (.error e) s₁.disk) (s₁.take (.advance j.number))) ∧
        (s.cache.find? j.uri = none → (∀ n t, .kept n j.uri t ∉ s'.marks moves) →
          ∀ next : Job, next.uri = j.uri → s₁.Begins next →
            s₁.Makes next.number (next.asks (tokenOf s₁.nextToken) s₁.disk)
              (s₁.take (.advance next.number))) := by
  intro s'
  refine ⟨a.yields_or_refused _ _, fun t => keeps_of_yields hj hcancelled hphase, ?_⟩
  intro said e hrefused
  have hends := endsUnstarted_of_refused hj hcancelled hphase hrefused
  refine ⟨hends, fun marks h moves => ⟨fun hturn => ?_, fun hnone hkept next huri hbegins => ?_⟩⟩
  · have hnext : j.number < s'.nextJob := hends.makes.nextJob ▸ lt_nextJob h hj
    exact answered_of_done hends.makes.job rfl hnext hturn
  · refine asks_of_begins hbegins ?_
    rw [huri]
    exact find?_run_of_not_kept (h.move (.turn (.advance j.number)))
      ((congrArg (·.find? j.uri) hends.cache).trans hnone) hkept

/-- A word for a timeout is refused and logged; the first integer past all floating-point numbers makes the request
fail as if the server had. -/
theorem document_settings_refused :
    let disk : Disk := ⟨[([['t', 'm', 'p']], .directory)]⟩
    let empty : Session := { directory := .ofString "/tmp", disk, cache := {} }
    let before : List Session.Move := [
      .surround {} .never disk,
      .receive (.ok (.call (.number 1) (.handshake ⟨none, [], [], true, false⟩))),
      .receive (.ok (.notice (.opened ⟨"file:///a.src", "text", 1, "a"⟩))),
      .receive (.ok (.call (.number 2) (.format "file:///a.src" none)))]
    let requested := empty.run before
    let layer := fun timeout : Value => [(Value.text "timeout", timeout)]
    let answered := fun timeout : Value => (requested.act (.turn (.advance 0))).act
      (.turn (.reply 0 (.result (.list [.map (layer timeout)]))))
    let first : Job := { number := 0, id := .number 2, uri := "file:///a.src", range := none }
    let closing : List Session.Move := [.receive (.ok (.notice (.closed "file:///a.src")))]
    let EndsBy := fun (timeout : Value) (said : List SessionEvent) (e : ResponseError) =>
      let j := { first with phase := .answered (.settings (.map (layer timeout))) }
      let s := answered timeout
      let s₁ := (s.take (.advance 0)).run closing
      s.job? 0 = some j ∧ s.EndsUnstarted j said (.error e) (s.take (.advance 0)) ∧
        s₁.Makes 0 (j.leaves (.error e) s₁.disk) (s₁.take (.advance 0))
    let text := "Invalid formatter settings for file:///a.src: " ++
      "timeout must be a number of seconds, got 'soon'"
    EndsBy (.text "soon") [.sent (.log .error text)] ⟨-32803, text, none⟩ ∧
      EndsBy (.int Binary64.integerLimit) []
        (.unforeseen "OverflowError" "int too large to convert to float") := by
  intro disk empty before requested layer answered first closing EndsBy text
  have hstart : Session.start .null empty.directory id disk = .ok empty := rfl
  have hbegins : requested.Begins first := ⟨rfl, rfl, rfl, rfl, _, rfl, by decide +kernel⟩
  have hnone : requested.cache.find? "file:///a.src" = none := by decide +kernel
  have hasked : (requested.act (.turn (.advance 0))).job? 0 = some { first with phase := .asking } :=
    (asks_of_begins hbegins hnone).job
  have hends : ∀ {timeout said e}, ClientAnswer.Refused (answered timeout).cache.globals first.uri
      (.settings (.map (layer timeout))) said e → EndsBy timeout said e := by
    intro timeout said e h
    let j := { first with phase := .answered (.settings (.map (layer timeout))) }
    have hj : (answered timeout).job? 0 = some j := (makes_answered hasked rfl rfl).job
    obtain ⟨-, -, hrefused⟩ := document_settings (answered timeout) j hj rfl _ rfl
    obtain ⟨hunstarted, hlater⟩ := hrefused said e h
    have hhistory := (((History.start hstart).run before).move (.turn (.advance 0))).move
      (.turn (.reply 0 (.result (.list [.map (layer timeout)]))))
    obtain ⟨hanswer, -⟩ := hlater _ hhistory closing
    exact ⟨hj, hunstarted, (hanswer (by simp [closing])).2⟩
  constructor
  · have hchanges : Settings.changes (layer (.text "soon")) = .error (.notNumber (.text "soon")) := rfl
    refine hends (.invalid (e := .notNumber (.text "soon")) ?_ (fun hsize => ?_) (by decide +kernel))
    · rw [Settings.merged_map, hchanges]
      rfl
    · cases hchanges.symm.trans (Settings.changes_of_oversized hsize)
  · refine hends (.oversized
      ⟨[], _, [], "timeout", .timeout, rfl, by simp, ⟨rfl, rfl, nofun⟩, rfl, _, rfl, ?_⟩)
    rw [Int.natAbs_natCast]

end FormatServer
