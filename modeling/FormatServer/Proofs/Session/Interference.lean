import FormatServer.Proofs.Session.Files

/-!
Requests that are under way at the same time. What others do leaves a request alone and the entry in the place
of its file (`alike_of_other`), so whatever happens in between, a request stands as it would by itself with the
same moves of its own (`alike_run`). By itself also means on a disk without the files of others, as long as the
path of its file leads to the same place.
-/

namespace FormatServer

open Session

/-! ## Requests that stand the same -/

namespace Solo

/-- Two requests stand the same: they have done the same, and the entries in the places of their files are the
same. -/
structure Alike (c c' : Solo) : Prop where
  job : c'.job = c.job
  events : c'.events = c.events
  begun : ∀ j, c.job = some j → j.begun = true
  file : ∀ j p, c.job = some j → j.path? = some p →
    ∃ l, c.disk.Leads p l ∧ c'.disk.Leads p l ∧ c'.disk.find? l = c.disk.find? l

variable {c c' c₁ c₂ c₃ : Solo}

theorem Alike.trans (h : Alike c₁ c₂) (h' : Alike c₂ c₃) : Alike c₁ c₃ where
  job := h'.job.trans h.job
  events := h'.events.trans h.events
  begun := h.begun
  file j p hj hp := by
    obtain ⟨l, hl₁, hl₂, hentry⟩ := h.file j p hj hp
    obtain ⟨l', hl₂', hl₃, hentry'⟩ := h'.file j p (h.job.trans hj) hp
    obtain rfl := hl₂.unique hl₂'
    exact ⟨l, hl₁, hl₃, hentry'.trans hentry⟩

/-- **A request depends on the entry in the place of its file alone.** -/
theorem Alike.act (h : Alike c c') (o : OwnMove) : Alike (c.act o) (c'.act o) := by
  cases hj : c.job with
  | none => rwa [act_of_none hj, act_of_none (h.job.trans hj)]
  | some j =>
    rw [act_of_some hj, act_of_some (h.job.trans hj)]
    have hbegun := h.begun j hj
    cases hpath : j.path? with
    | none =>
      obtain ⟨job, events, hjob, -, hmoved⟩ := Job.moved_without_file hpath hbegun o
      rw [hmoved, hmoved]
      refine ⟨rfl, congrArg (· ++ events) h.events, fun j' hj' => (hjob j' hj').2, ?_⟩
      intro j' p hj' hp
      rw [(hjob j' hj').1] at hp
      cases hp
    | some p =>
      obtain ⟨l, hl, hl', hentry⟩ := h.file j p hj hpath
      have hsame := Job.sameAt_moved hpath hl hl' hentry o
      have hevents : c'.events ++ (j.moved c'.disk o).events =
          c.events ++ (j.moved c.disk o).events := by
        rw [h.events, hsame.events]
      have hstay := (Job.fate_moved hpath c.disk o).touched.stay
      have hstay' := (Job.fate_moved hpath c'.disk o).touched.stay
      cases Job.fate_moved hpath c.disk o with
      | @goesOn j₁ hjob hpath' hleft htouched hsilent =>
        refine ⟨hsame.job, hevents, fun j' hj' => ?_, fun j' p' hj' hp' => ?_⟩
        · obtain rfl := Option.some.inj (hjob.symm.trans hj')
          exact Job.begun_of_path? hpath'
        · obtain rfl := Option.some.inj (hjob.symm.trans hj')
          obtain rfl := Option.some.inj (hpath'.symm.trans hp')
          exact ⟨l, hl.of_directoriesStay hstay, hl'.of_directoriesStay hstay', hsame.entry⟩
      | @ended r hjob hr hleft htouched hvacated =>
        refine ⟨hsame.job, hevents, fun j' hj' => ?_, fun j' p' hj' hp' => ?_⟩
        · obtain rfl := Option.some.inj (hjob.symm.trans hj')
          rfl
        · obtain rfl := Option.some.inj (hjob.symm.trans hj')
          cases hp'

/-- **A run starts the same on every disk on which the path of its file leads to the same.** -/
theorem alike_begin {j : Job} {c : RunContext} {settings : Settings} {d d' : Disk}
    (h : ∀ p, temporaryPath c.directory settings c.token j.uri = .ok p → Disk.AlikeAt p d d') :
    Alike (begin j c settings d) (begin j c settings d') := by
  have hsame := sameStart_of_alike (r := { uri := j.uri, range := j.range, settings }) h
  cases hresult : (FormatServer.start c { uri := j.uri, range := j.range, settings } d).result with
  | error o =>
    rw [begin, begin, Job.starts_error hresult, Job.starts_error (hsame.result.trans hresult)]
    refine ⟨rfl, ?_, ?_, ?_⟩
    · simp only [Job.ends, hsame.events]
    · rintro j' ⟨⟩
      rfl
    · rintro j' p ⟨⟩ ⟨⟩
  | ok run =>
    obtain ⟨hstarts, hpath⟩ := Job.starts_ok hresult
    obtain ⟨hstarts', -⟩ := Job.starts_ok (hsame.result.trans hresult)
    obtain ⟨l, hl, hl', hentry⟩ := hsame.file run hresult
    rw [begin, begin, hstarts, hstarts']
    refine ⟨rfl, ?_, ?_, ?_⟩
    · simp only [Job.enters, hsame.events]
    · rintro j' ⟨⟩
      exact Job.begun_of_path? hpath
    · rintro j' p ⟨⟩ hp
      obtain rfl := Option.some.inj (hpath.symm.trans hp)
      exact ⟨l, hl, hl', hentry⟩

end Solo

/-! ## Requests in sessions -/

namespace Session

variable {s : Session} {n : Nat} {x : Move} {marks : List Mark} {e : List SessionEvent}

/-- A move that is not a request's own is none of a holder of its file. -/
private theorem holder?_of_other (ho : s.own? n x = none) : x.holder? ≠ some (.job n) := by
  intro hholder
  unfold Move.holder? at hholder
  split at hholder
  · cases hholder
  · obtain ⟨k, hk, hn⟩ := Option.map_eq_some_iff.mp hholder
    obtain rfl := Holder.job.inj hn
    exact job?_ne_of_other ho hk

/-- **What others do leaves a request alone and the entry in the place of its file.** -/
theorem alike_of_other (hs : s.files.Housed) (hcalm : s.Calm x)
    (hbegun : ∀ j, s.job? n = some j → j.begun = true) (hnext : n < s.nextJob)
    (ho : s.own? n x = none) :
    Solo.Alike (s.alone n e) ((s.act x).alone n (e ++ s.heardOf n x)) := by
  have hholder := holder?_of_other ho
  refine ⟨job?_of_other hbegun hnext ho, ?_, hbegun, fun j p hj hp => ?_⟩
  · rw [alone, heardOf_of_other ho]
    exact List.append_nil e
  · have hpath : s.path? (.job n) = some p := by
      rw [path?, show s.job? n = some j from hj]
      exact hp
    obtain ⟨l, hl⟩ := hs.leads (.job n) p hpath
    obtain ⟨hl', hentry⟩ := (files_act hcalm).spares hs hholder hpath hl
    exact ⟨l, hl, hl', hentry⟩

/-- **Whatever happens in between, a request stands as it would by itself.** -/
theorem alike_run (h : Undisturbed marks s) (hnext : n < s.nextJob) {c : Solo}
    (hc : c.Alike (s.alone n e)) {moves : List Move} (hcalm : s.CalmRun moves) :
    (c.run (s.owned n moves)).Alike ((s.run moves).alone n (e ++ s.heard n moves)) := by
  induction moves generalizing marks s c e with
  | nil => rwa [heard, List.append_nil]
  | cons x rest ih =>
    have hbegun : ∀ j, s.job? n = some j → j.begun = true := fun j hj =>
      hc.begun j (hc.job.symm.trans hj)
    have hnext' : n < (s.act x).nextJob := Nat.lt_of_lt_of_le hnext (nextJob_le s x)
    have hstep : (c.run (s.own? n x).toList).Alike
        ((s.act x).alone n (e ++ s.heardOf n x)) := by
      cases ho : s.own? n x with
      | none => exact hc.trans (alike_of_other h.housed hcalm.1 hbegun hnext ho)
      | some o =>
        rw [alone_own hbegun hnext ho]
        exact hc.act o
    have hrest := ih (h.move hcalm.1) hnext' hstep hcalm.2
    rw [heard, owned, ← List.append_assoc, Solo.run, List.foldl_append]
    exact hrest

/-- A run that starts in a session starts as by itself. -/
private theorem begin_eq_alone {j : Job} {settings : Settings} (hj : s.job? n = some j)
    (hsettings : s.settingsFor j = some settings) :
    ∃ w, s.workspace = some w ∧ Solo.begin j (s.context w) settings s.disk =
      (s.act (.turn (.advance n))).alone n (s.heardOf n (.turn (.advance n))) := by
  obtain rfl := number_of_job? hj
  obtain ⟨w, hw, hmakes⟩ := makes_starts hj hsettings
  refine ⟨w, hw, ?_⟩
  change s.Makes j.number _ (s.act (.turn (.advance j.number))) at hmakes
  rw [alone, heardOf_of_makes rfl hmakes, hmakes.job, hmakes.disk]
  rfl

end Session

/-- **Requests do not interfere.** In every session whose files are left alone from outside:
no move of others changes a request whose run has begun, nor the entry in the place of its file, and files of
different requests are in different places;
whatever happens after its run has started, a request stands as it would by itself with the same moves of its
own, has done the same that others see, and this also on any disk on which the path of its file leads to the
same; when its moves come as the clock has them, it ends as a run with nothing else going on, on the document as
it was at the start. -/
theorem requests_do_not_interfere {marks : List Mark} {s : Session} (h : Undisturbed marks s) :
    (∀ n j x, s.job? n = some j → j.begun = true → s.Calm x → s.own? n x = none →
      (s.act x).job? n = some j ∧
        ∀ p, j.path? = some p → ∃ l, s.disk.Leads p l ∧ (s.act x).disk.Leads p l ∧
          (s.act x).disk.find? l = s.disk.find? l) ∧
    (∀ n n' p p' l l', s.path? (.job n) = some p → s.path? (.job n') = some p' → n ≠ n' →
      s.disk.Leads p l → s.disk.Leads p' l' → l ≠ l') ∧
    ∀ n j settings, s.job? n = some j → s.settingsFor j = some settings →
      ∃ w, s.workspace = some w ∧ ∀ (d : Disk) (moves : List Move),
        let first := Move.turn (.advance n)
        let c := s.context w
        s.CalmRun (first :: moves) →
        (∀ p, temporaryPath c.directory settings c.token j.uri = .ok p → Disk.AlikeAt p d s.disk) →
          let own := (s.act first).owned n moves
          let byItself := (Solo.begin j c settings d).run own
          (s.run (first :: moves)).job? n = byItself.job ∧
          s.heard n (first :: moves) = byItself.events ∧
          ((Solo.begin j c settings d).job.map Job.schedule = some own →
            Solo.Completes j [] (format c { uri := j.uri, range := j.range, settings } d) byItself) := by
  refine ⟨fun n j x hj hbegun hcalm ho => ?_, fun n n' p p' l l' hp hp' hne hl hl' => ?_,
    fun n j settings hj hsettings => ?_⟩
  · have halike := alike_of_other (e := []) h.housed hcalm
      (fun j' hj' => Option.some.inj (hj.symm.trans hj') ▸ hbegun) (lt_nextJob h.history hj) ho
    exact ⟨halike.job.trans hj, fun p hp => halike.file j p hj hp⟩
  · rintro rfl
    have hsame := h.housed.apart (.job n) (.job n') p p' l hp hp' hl hl'
    exact hne (by simpa using hsame)
  · obtain ⟨w, hw, hbegin⟩ := begin_eq_alone hj hsettings
    refine ⟨w, hw, ?_⟩
    intro d moves first c hcalm halike own byItself
    have hstart : (Solo.begin j c settings d).Alike
        ((s.act first).alone n (s.heardOf n first)) := by
      rw [← hbegin]
      exact Solo.alike_begin halike
    have hnext : n < (s.act first).nextJob :=
      Nat.lt_of_lt_of_le (lt_nextJob h.history hj) (nextJob_le s first)
    have hrun := alike_run (h.move hcalm.1) hnext hstart hcalm.2
    refine ⟨hrun.job, hrun.events, fun hown => ?_⟩
    obtain ⟨j₁, hj₁, hcompletes⟩ :=
      run_schedule j c settings d (not_cancelled_of_settingsFor hsettings)
    rw [hj₁, Option.map_some, Option.some.injEq] at hown
    rwa [show byItself = (Solo.begin j c settings d).run j₁.schedule by rw [hown]]

/-- One request is withdrawn before the output of its process is connected, and its document is closed, while
another one of the same document is under way. -/
theorem requests_do_not_interfere_withdrawn :
    let tmp : Location × FileEntry := ([['t', 'm', 'p']], .directory)
    let disk : Disk := ⟨[tmp, ([['t', 'm', 'p'], ['b']], .file [])]⟩
    let empty : Session := {
      overrides := .map [(.text "command", .list [.text "fmt"])], directory := .ofString "/tmp", disk
      cache := { globals := { command := ["fmt"] } } }
    let before : List Session.Move := [
      .surround { startup := 1, steps := [.change (.write [98])] } .never disk,
      .receive (.ok (.call (.number 1) (.handshake ⟨none, [], [], false, false⟩))),
      .receive (.ok (.notice (.opened ⟨"file:///a.src", "text", 1, "a"⟩))),
      .receive (.ok (.call (.number 2) (.format "file:///a.src" none))),
      .receive (.ok (.call (.number 3) (.format "file:///a.src" none)))]
    let s := empty.run before
    let j : Job := { number := 0, id := .number 2, uri := "file:///a.src", range := none }
    let moves : List Session.Move := [
      .turn (.advance 1), .receive (.ok (.notice (.closed "file:///a.src"))), .turn (.advance 0),
      .receive (.ok (.notice (.cancel (.number 3)))), .turn (.advance 1), .turn (.advance 0),
      .turn (.advance 1), .turn (.advance 0), .turn (.advance 0)]
    s.job? 0 = some j ∧ s.settingsFor j = some { command := ["fmt"] } ∧
    s.CalmRun (.turn (.advance 0) :: moves) ∧
    (s.run (.turn (.advance 0) :: moves)).job? 0 =
      some { j with phase := .done (.edits [⟨⟨⟨0, 0⟩, ⟨0, 1⟩⟩, "b"⟩]) } := by
  intro tmp disk empty before s j moves
  have hstart : Session.start empty.overrides empty.directory id disk = .ok empty := rfl
  have hbefore : empty.CalmRun before :=
    ⟨⟨.refl _, fun _ _ _ _ _ => rfl⟩, trivial, trivial, trivial, trivial, trivial⟩
  have hj : s.job? 0 = some j := rfl
  have hsettings : s.settingsFor j = some { command := ["fmt"] } := by decide +kernel
  have hcalm : s.CalmRun (.turn (.advance 0) :: moves) := by
    simp only [moves, CalmRun, Calm]
    decide +kernel
  obtain ⟨-, -, hruns⟩ := requests_do_not_interfere ((Undisturbed.start hstart).run hbefore)
  obtain ⟨w, hw, hruns⟩ := hruns 0 j { command := ["fmt"] } hj hsettings
  obtain rfl : s.workspace.getD { units := .utf16 } = w := by
    rw [show s.workspace = some w from hw, Option.getD_some]
  -- By itself the request also runs on a disk without the other file.
  let c := s.context (s.workspace.getD { units := .utf16 })
  have halike : ∀ p, temporaryPath c.directory { command := ["fmt"] } c.token j.uri = .ok p →
      Disk.AlikeAt p ⟨[tmp]⟩ disk := by
    intro p hp
    let name := "fmtbridge-00000000-0000-4000-8000-000000000000.src"
    have hpath : temporaryPath c.directory { command := ["fmt"] } c.token j.uri =
        .ok (.ofString ("/tmp/" ++ name)) := by
      decide +kernel
    obtain rfl := Except.ok.inj (hpath.symm.trans hp)
    have hlocate : (⟨[tmp]⟩ : Disk).locate (.ofString ("/tmp/" ++ name)) =
        .ok [['t', 'm', 'p'], name.toList] := by
      decide +kernel
    refine ⟨by decide +kernel, fun l hl => ?_⟩
    obtain rfl := Except.ok.inj (hlocate.symm.trans hl)
    decide +kernel
  obtain ⟨hjob, -, hcompletes⟩ := hruns ⟨[tmp]⟩ moves hcalm halike
  have hown : (Solo.begin j c { command := ["fmt"] } ⟨[tmp]⟩).job.map Job.schedule =
      some ((s.act (.turn (.advance 0))).owned 0 moves) := by
    decide +kernel
  have hformat : (format c { uri := j.uri, range := j.range, settings := { command := ["fmt"] } }
      ⟨[tmp]⟩).result = .edits [⟨⟨⟨0, 0⟩, ⟨0, 1⟩⟩, "b"⟩] := by
    decide +kernel
  have hdone := (hcompletes hown).job
  rw [hformat] at hdone
  exact ⟨hj, hsettings, hcalm, hjob.trans hdone⟩

end FormatServer
