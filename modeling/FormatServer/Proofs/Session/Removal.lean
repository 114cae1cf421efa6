import FormatServer.Proofs.Session.Own

/-!
The temporary files of requests from their beginning to their end, whatever else happens in a session. While a
request is under way it works on the entry in the place of its file and on no other; in the move in which it ends,
however it ends, the file is removed (`fileAfter_run`). A process that is told to end keeps its file until it has
ended, or until its request no longer waits for that.
-/

namespace FormatServer

open Session

/-- What has become of the file of a request after moves of a session. -/
inductive FileAfter (s : Session) (number : Nat) (p : Path) (moves : List Move) : Prop where
  /-- the request is under way and works on its file -/
  | held (hpath : ((s.run moves).job? number).bind Job.path? = some p)
      (hsilent : Silent (s.heard number moves))
  /-- the request ended in one of the moves, and its file was removed, or there is one warning -/
  | removed {before after : List Move} {x : Move} {j : Job} {o : OwnMove} {r : Response}
      (hsplit : moves = before ++ x :: after) (hj : (s.run before).job? number = some j)
      (hpath : j.path? = some p) (hown : (s.run before).own? number x = some o)
      (hr : j.EndsBy (s.run before).disk o r)
      (hdone : ((s.run before).act x).job? number = some { j with phase := .done r })
      (hvacated : Vacated p ((s.run before).act x).disk (s.heard number moves))
      (hover : ∀ j', (s.run moves).job? number = some j' → j'.path? = none ∧ j'.begun = true)

private theorem FileAfter.cons {s : Session} {n : Nat} {p : Path} {x : Move} {moves : List Move}
    (h : FileAfter (s.act x) n p moves) (hsilent : Silent (s.heardOf n x)) :
    FileAfter s n p (x :: moves) := by
  cases h with
  | held hpath hheard => exact .held hpath (by simp [heard, hsilent, hheard])
  | @removed before after y j o r hsplit hj hpath hown hr hdone hvacated hover =>
    have hsplit' : x :: moves = (x :: before) ++ y :: after := congrArg (x :: ·) hsplit
    exact .removed hsplit' hj hpath hown hr hdone (hvacated.prepend hsilent) hover

namespace Session

variable {s : Session} {n : Nat} {j : Job} {p : Path} {x : Move} {moves : List Move} {marks : List Mark}

/-! ## Requests without a file -/

/-- **A request that has no file, and whose run does not start, does nothing on the disk.** -/
theorem disk_act_without_file (hx : x.job? = some n)
    (h : ∀ j, s.job? n = some j →
      j.path? = none ∧ (x = .turn (.advance n) → s.settingsFor j = none)) :
    (s.act x).disk = s.disk := by
  have hdoes := does_act s x
  generalize s.act x = s' at hdoes
  cases hdoes with
  | @moves t k j o _ ht hj hbegun hmakes =>
    obtain rfl : k = n := by simpa [Move.job?, ht] using hx
    obtain ⟨job, events, -, -, hmoved⟩ := Job.moved_without_file (h j hj).1 hbegun o
    rw [hmakes.disk, hmoved]
  | @starts k j w settings _ hj hbegun hsettings hmakes =>
    obtain rfl : k = n := by simpa [Move.job?, Turn.own?] using hx
    rw [(h j hj).2 rfl] at hsettings
    cases hsettings
  | idles hj hbegun hidles =>
    obtain ⟨j', events, -, hmakes⟩ := hidles
    exact hmakes.disk
  | hears hhears => exact hhears.disk
  | plays ho hplays => cases hx
  | surrounds script reply disk => cases hx
  | rests hjobs horphans hdisk hnext => exact hdisk

def Over (s : Session) (number : Nat) : Prop :=
  ∀ j, s.job? number = some j → j.path? = none ∧ j.begun = true

theorem over_of_done {r : Response} (h : s.job? n = some { j with phase := .done r }) : s.Over n := by
  intro j' hj'
  obtain rfl := Option.some.inj (hj'.symm.trans h)
  exact ⟨rfl, rfl⟩

theorem Over.disk (h : s.Over n) (hx : x.job? = some n) : (s.act x).disk = s.disk := by
  refine disk_act_without_file hx fun j hj => ⟨(h j hj).1, fun _ => ?_⟩
  have hbegun := (h j hj).2
  unfold Job.begun at hbegun
  unfold settingsFor
  split at hbegun <;> simp_all

/-- A request that has ended says nothing of files any more. -/
theorem Over.act (h : s.Over n) (hnext : n < s.nextJob) (x : Move) :
    (s.act x).Over n ∧ Silent (s.heardOf n x) := by
  have hbegun : ∀ j, s.job? n = some j → j.begun = true := fun j hj => (h j hj).2
  cases ho : s.own? n x with
  | none =>
    rw [heardOf_of_other ho]
    refine ⟨fun j hj => h j ?_, silent_nil⟩
    rwa [job?_of_other hbegun hnext ho] at hj
  | some o =>
    have hown := alone_own (e := []) hbegun hnext ho
    cases hj : s.job? n with
    | none =>
      rw [Solo.act_of_none (c := s.alone n []) hj] at hown
      obtain ⟨hjob, -, hheard⟩ := Solo.mk.inj hown
      rw [List.nil_append] at hheard
      rw [hheard]
      exact ⟨fun j' hj' => h j' (hjob.symm.trans hj'), silent_nil⟩
    | some j =>
      obtain ⟨hpath, hb⟩ := h j hj
      obtain ⟨job, events, hover, hsilent, hmoved⟩ := Job.moved_without_file hpath hb o
      rw [Solo.act_of_some (c := s.alone n []) hj, hmoved] at hown
      obtain ⟨hjob, -, hheard⟩ := Solo.mk.inj hown
      rw [List.nil_append] at hheard
      rw [hheard]
      exact ⟨fun j' hj' => hover j' (hjob.symm.trans hj'), hsilent⟩

theorem Over.run (h : s.Over n) (hnext : n < s.nextJob) (moves : List Move) :
    (s.run moves).Over n ∧ Silent (s.heard n moves) := by
  induction moves generalizing s with
  | nil => exact ⟨h, silent_nil⟩
  | cons x rest ih =>
    obtain ⟨hover, hfirst⟩ := h.act hnext x
    obtain ⟨hrun, hrest⟩ := ih hover (Nat.lt_of_lt_of_le hnext (nextJob_le s x))
    exact ⟨hrun, by simp [heard, hfirst, hrest]⟩

/-! ## The file of a request -/

/-- What a request with a file does in one of its own moves. -/
private theorem fate_own (hj : s.job? n = some j) (hpath : j.path? = some p) (hnext : n < s.nextJob)
    {o : OwnMove} (ho : s.own? n x = some o) :
    ∃ m, j.Fate s.disk p o m ∧ (s.act x).job? n = m.job ∧ (s.act x).disk = m.disk ∧
      s.heardOf n x = m.events := by
  have hbegun : ∀ j', s.job? n = some j' → j'.begun = true := by
    intro j' hj'
    obtain rfl := Option.some.inj (hj.symm.trans hj')
    exact Job.begun_of_path? hpath
  have hown := alone_own (e := []) hbegun hnext ho
  rw [Solo.act_of_some (c := s.alone n []) hj] at hown
  obtain ⟨hjob, hdisk, hheard⟩ := Solo.mk.inj hown
  exact ⟨j.moved s.disk o, Job.fate_moved hpath s.disk o, hjob, hdisk, hheard⟩

/-- **What becomes of the file of a request**, whatever happens. -/
theorem fileAfter_run (hj : s.job? n = some j) (hpath : j.path? = some p) (hnext : n < s.nextJob)
    (moves : List Move) : FileAfter s n p moves := by
  induction moves generalizing s j with
  | nil => exact .held (by rw [show s.run [] = s from rfl, hj]; exact hpath) silent_nil
  | cons x rest ih =>
    have hnext' : n < (s.act x).nextJob := Nat.lt_of_lt_of_le hnext (nextJob_le s x)
    cases ho : s.own? n x with
    | none =>
      have hbegun : ∀ j', s.job? n = some j' → j'.begun = true := by
        intro j' hj'
        obtain rfl := Option.some.inj (hj.symm.trans hj')
        exact Job.begun_of_path? hpath
      have hafter := ih ((job?_of_other hbegun hnext ho).trans hj) hpath hnext'
      exact hafter.cons (by simp [heardOf_of_other ho])
    | some o =>
      obtain ⟨m, hfate, hjob, hdisk, hheard⟩ := fate_own hj hpath hnext ho
      cases hfate with
      | @goesOn j' hjob' hpath' hleft htouched hsilent =>
        exact (ih (hjob.trans hjob') hpath' hnext').cons (hheard ▸ hsilent)
      | @ended r hjob' hr hleft htouched hvacated =>
        have hdone := hjob.trans hjob'
        obtain ⟨hover, hquiet⟩ := (over_of_done hdone).run hnext' rest
        rw [← hdisk, ← hheard] at hvacated
        exact .removed (List.nil_append (x :: rest)).symm hj hpath ho hr hdone
          (hvacated.append hquiet) hover

/-- While a request is under way, and after it has ended, its moves change no other entry. -/
private theorem touched_of_fileAfter (h : FileAfter s n p moves) (hnext : n < s.nextJob)
    (hx : x.job? = some n) : Disk.Touched p (s.run moves).disk ((s.run moves).act x).disk := by
  have hnext' : n < (s.run moves).nextJob := Nat.lt_of_lt_of_le hnext (nextJob_le_run s moves)
  cases h with
  | held hpath hsilent =>
    obtain ⟨j, hj, hpath⟩ := Option.bind_eq_some_iff.mp hpath
    obtain ⟨t, o, rfl, ht⟩ := exists_own? hx
    obtain ⟨m, hfate, -, hdisk, -⟩ := fate_own hj hpath hnext' (own?_turn.mpr ht)
    rw [hdisk]
    exact hfate.touched
  | removed hsplit hj hpath hown hr hdone hvacated hover =>
    rw [Over.disk hover hx]
    exact .refl p _

/-! ## Starts -/

inductive FileBegins (s : Session) (j : Job) (c : RunContext) (settings : Settings) (s' : Session)
    (said : List SessionEvent) : Prop where
  | starts {run : Run}
      (h : Starts c { uri := j.uri, range := j.range, settings } s.disk run s'.disk said)
      (hpath : (s'.job? j.number).bind Job.path? = some run.process.path)
  | never {o : Outcome}
      (h : NeverStarts c { uri := j.uri, range := j.range, settings } s.disk o s'.disk said)
      (hdone : s'.job? j.number = some { j with phase := .done o.answer })

/-- **A run starts with a file, or leaves none behind.** -/
private theorem fileBegins {settings : Settings} (hj : s.job? j.number = some j)
    (hsettings : s.settingsFor j = some settings) :
    let first := Move.turn (.advance j.number)
    ∃ w, s.workspace = some w ∧
      s.FileBegins j (s.context w) settings (s.act first) (s.heardOf j.number first) := by
  intro first
  obtain ⟨w, hw, hmakes⟩ := makes_starts hj hsettings
  refine ⟨w, hw, ?_⟩
  change s.Makes j.number _ (s.act first) at hmakes
  have hsaid : s.heardOf j.number first = _ := heardOf_of_makes rfl hmakes
  cases hresult : (FormatServer.start (s.context w)
      { uri := j.uri, range := j.range, settings } s.disk).result with
  | error o =>
    rw [Job.starts_error hresult] at hmakes hsaid
    refine .never ?_ hmakes.job
    rw [hsaid, hmakes.disk]
    exact (start_error hresult).append o.silent_entries
  | ok run =>
    obtain ⟨hstarts, hpath⟩ := Job.starts_ok hresult
    rw [hstarts] at hmakes hsaid
    have hstarted : Starts (s.context w) { uri := j.uri, range := j.range, settings } s.disk run
        (s.act first).disk (s.heardOf j.number first) := by
      rw [hsaid, hmakes.disk]
      exact start_ok hresult
    refine .starts hstarted ?_
    rw [hmakes.job]
    simp only [Job.enters, Option.bind_some, hpath]

end Session

/-- **Temporary files are removed.** In every session, whatever other requests, processes and the client do and
whatever happens to the disk from outside:
the turn of a request that has no file, and whose run does not start, changes nothing on the disk;
when a run starts, either it ends at once and leaves no file behind, or it has a file. Its moves then change no
other entry, and in the move in which it ends nothing is left at the path of its file: by itself; when the process
that was told to end has, as the time was up or the client has withdrawn the request, before its output was
connected or later; withdrawn while the end of its process is awaited; when the process may not be told to end; or
because a line is too long. Only if what is there cannot be removed there is one warning, and the request is
answered all the same. -/
theorem temporary_files_removed {marks : List Mark} {s : Session} (h : History marks s) :
    (∀ n x, x.job? = some n →
      (∀ j, s.job? n = some j → j.path? = none ∧ (x = .turn (.advance n) → s.settingsFor j = none)) →
      (s.act x).disk = s.disk) ∧
    ∀ j settings, s.job? j.number = some j → s.settingsFor j = some settings →
      ∃ w, s.workspace = some w ∧ ∀ moves,
        let c := s.context w
        let r : FormatRequest := { uri := j.uri, range := j.range, settings }
        let first := Move.turn (.advance j.number)
        let s₁ := s.act first
        (∃ o, s₁.job? j.number = some { j with phase := .done o.answer } ∧
          NeverStarts c r s.disk o s₁.disk (s.heard j.number (first :: moves))) ∨
        ∃ p, temporaryPath c.directory settings c.token j.uri = .ok p ∧
          (s₁.job? j.number).bind Job.path? = some p ∧ FileAfter s j.number p (first :: moves) ∧
          ∀ before x after, first :: moves = before ++ x :: after → x.job? = some j.number →
            Disk.Touched p (s.run before).disk ((s.run before).act x).disk := by
  refine ⟨fun n x hx hnone => disk_act_without_file hx hnone, fun j settings hj hsettings => ?_⟩
  obtain ⟨w, hw, hbegins⟩ := fileBegins hj hsettings
  refine ⟨w, hw, ?_⟩
  intro moves c r first s₁
  have hnext : j.number < s₁.nextJob :=
    Nat.lt_of_lt_of_le (lt_nextJob h hj) (nextJob_le s first)
  cases hbegins with
  | @never o hnever hdone =>
    obtain ⟨-, hquiet⟩ := (over_of_done hdone).run hnext moves
    exact .inl ⟨o, hdone, hnever.append hquiet⟩
  | @starts run hstarts hpath =>
    obtain ⟨j₁, hj₁, hpath₁⟩ := Option.bind_eq_some_iff.mp hpath
    refine .inr ⟨run.process.path, hstarts.path, hpath,
      (fileAfter_run hj₁ hpath₁ hnext moves).cons hstarts.silent, ?_⟩
    intro before x after hsplit hx
    cases before with
    | nil =>
      obtain ⟨rfl, -⟩ := List.cons.inj hsplit
      exact hstarts.touched
    | cons y before =>
      obtain ⟨rfl, -⟩ := List.cons.inj hsplit
      have hlater := touched_of_fileAfter (fileAfter_run hj₁ hpath₁ hnext before) hnext hx
      exact hlater

def SessionEvent.warning? : SessionEvent → Option String
  | .sent (.log .warning text) => some text
  | _ => none

/-- A formatter puts a directory in the place of its file and goes on until its time is up; the request is withdrawn
while the process comes to its end. Another request is under way. -/
theorem temporary_files_removed_directory :
    let empty : Session := {
      overrides := .map [(.text "command", .list [.text "fmt"])], directory := .ofString "/tmp"
      disk := ⟨[([['t', 'm', 'p']], .directory)]⟩
      cache := { globals := { command := ["fmt"] } } }
    let before : List Session.Move := [
      .surround { startup := 1, steps := [.change .delete, .change .makeDirectory, .hang], killing := ⟨.sent, 2⟩ }
        .never empty.disk,
      .receive (.ok (.call (.number 1) (.handshake ⟨none, [], [], false, false⟩))),
      .receive (.ok (.notice (.opened ⟨"file:///a.src", "text", 1, "a"⟩))),
      .receive (.ok (.call (.number 2) (.format "file:///a.src" none))),
      .receive (.ok (.call (.number 3) (.format "file:///a.src" none)))]
    let s := empty.run before
    let j : Job := { number := 0, id := .number 2, uri := "file:///a.src", range := none }
    let path := Path.ofString "/tmp/fmtbridge-00000000-0000-4000-8000-000000000000.src"
    let moves : List Session.Move := [
      .turn (.advance 0), .turn (.advance 1), .turn (.advance 0), .turn (.advance 0),
      .turn (.advance 1), .turn (.advance 0), .turn (.advance 0), .turn (.expire 0),
      .receive (.ok (.notice (.cancel (.number 2)))), .turn (.advance 0)]
    s.job? 0 = some j ∧ s.settingsFor j = some { command := ["fmt"] } ∧
      WarnsOnce path .isDirectory (s.heard 0 moves) := by
  intro empty before s j path moves
  have hstart : Session.start empty.overrides empty.directory id empty.disk = .ok empty := rfl
  have hj : s.job? j.number = some j := rfl
  have hsettings : s.settingsFor j = some { command := ["fmt"] } := by decide +kernel
  refine ⟨hj, hsettings, ?_⟩
  obtain ⟨-, hremoved⟩ := temporary_files_removed ((History.start hstart).run before)
  obtain ⟨w, -, hremoved⟩ := hremoved j { command := ["fmt"] } hj hsettings
  rcases hremoved moves.tail with ⟨o, hdone, -⟩ | ⟨p, hpath, -, hfile, -⟩
  · have hunder : ((s.act (.turn (.advance 0))).job? 0).bind Job.path? ≠ none := by decide +kernel
    rw [show j.number = 0 from rfl] at hdone
    rw [hdone] at hunder
    exact absurd rfl hunder
  · have hpath' : temporaryPath s.directory { command := ["fmt"] } (tokenOf s.nextToken) j.uri =
        .ok path := by
      decide +kernel
    obtain rfl := Except.ok.inj (hpath'.symm.trans hpath)
    -- The warning is there.
    have hsaid : eventOf (unremoved path .isDirectory) ∈ s.heard 0 moves := by
      have hwarnings : (s.heard 0 moves).filterMap SessionEvent.warning? =
          ["Could not remove " ++ path.toString ++ ": " ++ DiskError.isDirectory.message path] := by
        decide +kernel
      obtain ⟨event, hmem, hevent⟩ := List.mem_filterMap.mp
        (hwarnings ▸ List.mem_singleton_self _)
      unfold SessionEvent.warning? at hevent
      split at hevent
      · obtain rfl := Option.some.inj hevent
        exact hmem
      · cases hevent
    cases hfile with
    | held hunder hsilent => exact absurd hsaid (hsilent path .isDirectory)
    | removed hsplit hj hpath hown hr hdone hvacated hover =>
      cases hvacated with
      | gone hentry hsilent => exact absurd hsaid (hsilent path .isDirectory)
      | @refused e hremove he hwarns =>
        obtain ⟨earlier, later, hheard, hearlier, hlater⟩ := hwarns
        have hheard : s.heard 0 moves = earlier ++ eventOf (unremoved path e) :: later := hheard
        rw [hheard] at hsaid
        rcases List.mem_append.mp hsaid with hmem | hmem
        · exact absurd hmem (hearlier path .isDirectory)
        · rcases List.mem_cons.mp hmem with heq | hmem
          · exact ⟨earlier, later, by rw [heq]; exact hheard, hearlier, hlater⟩
          · exact absurd hmem (hlater path .isDirectory)

end FormatServer
