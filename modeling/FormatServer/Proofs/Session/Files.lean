import FormatServer.Proofs.Session.Own

/-!
The temporary files of a session. A file is held by the request whose process works on it, or by a process whose
request has ended without it. Every move of a session works on the file of one holder at most, starts a new file
in a place of its own, or leaves the files alone (`Files.Step`, `files_act`). So while what comes from outside
leaves them alone too, and no token is in a name already, the files are at places of their own
(`Undisturbed.housed`).
-/

namespace FormatServer

open Session

/-! ## Holders of files -/

inductive Holder where
  /-- the process of a request -/
  | job (number : Nat)
  /-- a process whose request has ended without it -/
  | orphan (pid : Nat)
  deriving DecidableEq, Repr

structure Files where
  path? : Holder → Option Path
  disk : Disk

namespace Files

inductive Step (f f' : Files) : Option Holder → Prop where
  /-- all entries stay as they are -/
  | rest {x : Option Holder} (hpaths : ∀ h p, f'.path? h = some p → f.path? h = some p)
      (hdisk : ∀ k, f'.disk.find? k = f.disk.find? k) : Step f f' x
  /-- a holder works on its file, and may leave it -/
  | work {h : Holder} {p : Path} (hp : f.path? h = some p)
      (hpaths : ∀ h' q, f'.path? h' = some q → f.path? h' = some q)
      (htouched : Disk.Touched p f.disk f'.disk) : Step f f' (some h)
  /-- a request ends without its process, which keeps the file -/
  | passes {number pid : Nat} {p : Path} (hp : f.path? (.job number) = some p)
      (hgone : f'.path? (.job number) = none)
      (hpaths : ∀ h q, f'.path? h = some q → f.path? h = some q ∨ h = .orphan pid ∧ q = p)
      (htouched : Disk.Touched p f.disk f'.disk) : Step f f' (some (.job number))
  /-- a holder gets a new file, in a place of its own -/
  | opens {h : Holder} {p : Path} {l : Location} (hnone : f.path? h = none)
      (hnew : f'.path? h = some p)
      (hpaths : ∀ h' q, f'.path? h' = some q → f.path? h' = some q ∨ h' = h ∧ q = p)
      (hlocate : f.disk.locate p = .ok l) (hleads : f'.disk.Leads p l)
      (htouched : Disk.Touched p f.disk f'.disk)
      (hapart : ∀ h' q k, f.path? h' = some q → f.disk.Leads q k → k ≠ l) : Step f f' (some h)
  /-- something else happens to the disk, which leaves directories and files that are held -/
  | outside (hpaths : ∀ h p, f'.path? h = some p → f.path? h = some p)
      (hstay : f.disk.DirectoriesStay f'.disk)
      (hheld : ∀ h p l, f.path? h = some p → f.disk.Leads p l → f'.disk.find? l = f.disk.find? l) :
      Step f f' none

/-- Files that are held are at places of their own. -/
structure Housed (f : Files) : Prop where
  leads : ∀ h p, f.path? h = some p → ∃ l, f.disk.Leads p l
  apart : ∀ h h' p p' l, f.path? h = some p → f.path? h' = some p' → f.disk.Leads p l →
    f.disk.Leads p' l → h = h'

variable {f f' : Files} {x : Option Holder}

private theorem Step.stay (h : Step f f' x) : f.disk.DirectoriesStay f'.disk := by
  cases h with
  | rest hpaths hdisk => exact fun k hk => (hdisk k).trans hk
  | work hp hpaths htouched => exact htouched.stay
  | passes hp hgone hpaths htouched => exact htouched.stay
  | opens hnone hnew hpaths hlocate hleads htouched hapart => exact htouched.stay
  | outside hpaths hstay hheld => exact hstay

/-- The places of paths that were in use are the same after a step. -/
private theorem leads_of_stay (hf : f.Housed) (hstay : f.disk.DirectoriesStay f'.disk) {h : Holder}
    {p : Path} (hp : f.path? h = some p) {l : Location} (hl : f'.disk.Leads p l) :
    f.disk.Leads p l := by
  obtain ⟨l₀, hl₀⟩ := hf.leads h p hp
  rwa [(hl₀.of_directoriesStay hstay).unique hl] at hl₀

/-- **Steps keep the files at places of their own.** -/
theorem Housed.step (hf : f.Housed) (h : Step f f' x) : f'.Housed := by
  have hstay := h.stay
  have hleads : ∀ {h p}, f.path? h = some p → ∃ l, f'.disk.Leads p l := by
    intro h p hp
    obtain ⟨l, hl⟩ := hf.leads h p hp
    exact ⟨l, hl.of_directoriesStay hstay⟩
  have hback : ∀ {h p l}, f.path? h = some p → f'.disk.Leads p l → f.disk.Leads p l :=
    fun hp hl => leads_of_stay hf hstay hp hl
  have hold : (∀ h p, f'.path? h = some p → f.path? h = some p) → f'.Housed := by
    intro hpaths
    refine ⟨fun h p hp => hleads (hpaths h p hp), fun h h' p p' l hp hp' hl hl' => ?_⟩
    have hp := hpaths h p hp
    have hp' := hpaths h' p' hp'
    exact hf.apart h h' p p' l hp hp' (hback hp hl) (hback hp' hl')
  cases h with
  | rest hpaths hdisk => exact hold hpaths
  | work hp hpaths htouched => exact hold hpaths
  | outside hpaths hstay hheld => exact hold hpaths
  | @passes number pid p₀ hp₀ hgone hpaths htouched =>
    -- Where the process was left with the file, the request has it no more.
    have hleft : ∀ h p l, f'.path? h = some p → f.path? h = some p → f'.disk.Leads p l →
        f'.disk.Leads p₀ l → False := by
      intro h p l hp hp' hl hl₀
      have hjob := hf.apart h _ p p₀ l hp' hp₀ (hback hp' hl) (hback hp₀ hl₀)
      rw [hjob, hgone] at hp
      cases hp
    refine ⟨fun h p hp => ?_, fun h h' p p' l hp hp' hl hl' => ?_⟩
    · rcases hpaths h p hp with hp | ⟨-, rfl⟩
      · exact hleads hp
      · exact hleads hp₀
    · rcases hpaths h p hp with hq | ⟨rfl, rfl⟩ <;> rcases hpaths h' p' hp' with hq' | ⟨rfl, rfl⟩
      · exact hf.apart h h' p p' l hq hq' (hback hq hl) (hback hq' hl')
      · exact (hleft h p l hp hq hl hl').elim
      · exact (hleft h' p' l hp' hq' hl' hl).elim
      · rfl
  | @opens h₀ p₀ l₀ hnone hnew₀ hpaths hlocate hl₀ htouched hapart =>
    have hnew : ∀ h p l, f.path? h = some p → f'.disk.Leads p l → f'.disk.Leads p₀ l → False := by
      intro h p l hp hl hl'
      exact hapart h p l hp (hback hp hl) (hl'.unique hl₀)
    refine ⟨fun h p hp => ?_, fun h h' p p' l hp hp' hl hl' => ?_⟩
    · rcases hpaths h p hp with hp | ⟨rfl, rfl⟩
      · exact hleads hp
      · exact ⟨l₀, hl₀⟩
    · rcases hpaths h p hp with hq | ⟨rfl, rfl⟩ <;> rcases hpaths h' p' hp' with hq' | ⟨rfl, rfl⟩
      · exact hf.apart h h' p p' l hq hq' (hback hq hl) (hback hq' hl')
      · exact (hnew h p l hq hl hl').elim
      · exact (hnew h' p' l hq' hl' hl).elim
      · rfl

/-- **No move touches the file of another holder.** -/
theorem Step.spares (hf : f.Housed) (h : Step f f' x) {holder : Holder} (hx : x ≠ some holder)
    {p : Path} (hp : f.path? holder = some p) {l : Location} (hl : f.disk.Leads p l) :
    f'.disk.Leads p l ∧ f'.disk.find? l = f.disk.find? l := by
  refine ⟨hl.of_directoriesStay h.stay, ?_⟩
  -- A holder that works on its file works at another place.
  have hworks : ∀ {h₀ p₀}, some h₀ ≠ some holder → f.path? h₀ = some p₀ →
      Disk.Touched p₀ f.disk f'.disk → f'.disk.find? l = f.disk.find? l := by
    intro h₀ p₀ hne hp₀ htouched
    obtain ⟨l₀, hl₀⟩ := hf.leads h₀ p₀ hp₀
    refine htouched.sameBut hl₀.locate_self l ?_
    rintro rfl
    exact hne (congrArg some (hf.apart h₀ holder p₀ p l hp₀ hp hl₀ hl))
  cases h with
  | rest hpaths hdisk => exact hdisk l
  | work hp₀ hpaths htouched => exact hworks hx hp₀ htouched
  | passes hp₀ hgone hpaths htouched => exact hworks hx hp₀ htouched
  | opens hnone hnew hpaths hlocate hleads htouched hapart =>
    exact htouched.sameBut hlocate l (hapart holder p l hp hl)
  | outside hpaths hstay hheld => exact hheld holder p l hp hl

end Files

/-! ## The files of a session -/

namespace Session

def path? (s : Session) : Holder → Option Path
  | .job number => (s.job? number).bind Job.path?
  | .orphan pid => (s.orphans.find? (·.process.pid = pid)).map (·.process.path)

def files (s : Session) : Files := ⟨s.path?, s.disk⟩

def Move.holder? : Move → Option Holder
  | .turn (.orphan pid) => some (.orphan pid)
  | x => x.job?.map Holder.job

def paths (s : Session) : List Path :=
  s.jobs.filterMap Job.path? ++ s.orphans.map (·.process.path)

/-- The next token is in no name, neither on the disk nor of a file that is held. -/
structure FreshToken (s : Session) : Prop where
  disk : s.disk.Lacks (tokenOf s.nextToken).toList
  paths : ∀ p ∈ s.paths, ∀ part ∈ p.parts, ¬ (tokenOf s.nextToken).toList <:+: part

instance (s : Session) : Decidable s.FreshToken :=
  decidable_of_iff (s.disk.Lacks (tokenOf s.nextToken).toList ∧
      ∀ p ∈ s.paths, ∀ part ∈ p.parts, ¬ (tokenOf s.nextToken).toList <:+: part)
    ⟨fun h => ⟨h.1, h.2⟩, fun h => ⟨h.disk, h.paths⟩⟩

variable {s s' : Session} {n : Nat} {j : Job} {m : Moved}

private theorem mem_paths {h : Holder} {p : Path} (hp : s.path? h = some p) : p ∈ s.paths := by
  cases h with
  | job number =>
    obtain ⟨j, hj, hpath⟩ := Option.bind_eq_some_iff.mp hp
    exact List.mem_append_left _ (List.mem_filterMap.mpr ⟨j, List.mem_of_find?_eq_some hj, hpath⟩)
  | orphan pid =>
    obtain ⟨o, ho, rfl⟩ := Option.map_eq_some_iff.mp hp
    exact List.mem_append_right _ (List.mem_map_of_mem (List.mem_of_find?_eq_some ho))

/-! ### Moves of a request -/

/-- Who holds files after a move of a request. -/
private theorem path?_of_makes (h : s.Makes n m s') {holder : Holder} {q : Path}
    (hq : s'.path? holder = some q) :
    holder = .job n ∧ m.job.bind Job.path? = some q ∨ holder ≠ .job n ∧ s.path? holder = some q ∨
      ∃ x, m.left = some x ∧ holder = .orphan x.process.pid ∧ q = x.process.path := by
  cases holder with
  | job k =>
    by_cases hk : k = n
    · subst hk
      refine .inl ⟨rfl, ?_⟩
      rw [← h.job]
      exact hq
    · refine .inr (.inl ⟨by simpa using hk, ?_⟩)
      rw [path?, ← h.others k hk]
      exact hq
  | orphan pid =>
    rw [path?, h.orphans, List.find?_append, Option.map_or] at hq
    rcases Option.or_eq_some_iff.mp hq with hold | ⟨-, hnew⟩
    · exact .inr (.inl ⟨by simp, hold⟩)
    · obtain ⟨x, hx, rfl⟩ := Option.map_eq_some_iff.mp hnew
      cases hleft : m.left with
      | none => simp [hleft] at hx
      | some y =>
        rw [hleft, Option.toList_some, List.find?_singleton] at hx
        split at hx
        · next hpid =>
          obtain rfl := Option.some.inj hx
          exact .inr (.inr ⟨y, rfl, by simpa using (of_decide_eq_true hpid).symm, rfl⟩)
        · cases hx

theorem path?_of_job (hj : s.job? n = some j) : s.path? (.job n) = j.path? := by
  rw [path?, hj, Option.bind_some]

/-- A request that works on no file goes on. -/
private theorem step_without_file {x : Option Holder} (h : s.Makes n m s')
    (hdisk : ∀ k, m.disk.find? k = s.disk.find? k) (hpath : ∀ j', m.job = some j' → j'.path? = none)
    (hleft : m.left = none) : Files.Step s.files s'.files x := by
  refine .rest (fun holder q hq => ?_) fun k => (congrArg (·.find? k) h.disk).trans (hdisk k)
  rcases path?_of_makes h hq with ⟨-, hnew⟩ | ⟨-, hold⟩ | ⟨x, hx, -⟩
  · obtain ⟨j', hj', hsome⟩ := Option.bind_eq_some_iff.mp hnew
    rw [hpath j' hj'] at hsome
    cases hsome
  · exact hold
  · rw [hleft] at hx
    cases hx

private theorem step_moved (hj : s.job? n = some j) (hbegun : j.begun = true)
    (o : OwnMove) (h : s.Makes n (j.moved s.disk o) s') :
    Files.Step s.files s'.files (some (.job n)) := by
  cases hpath : j.path? with
  | none =>
    obtain ⟨job, events, hjob, -, hmoved⟩ := Job.moved_without_file hpath hbegun o
    rw [hmoved] at h
    exact step_without_file h (fun _ => rfl) (fun j' hj' => (hjob j' hj').1) rfl
  | some p =>
    have hp : s.path? (.job n) = some p := (path?_of_job hj).trans hpath
    have htouched : Disk.Touched p s.disk s'.disk :=
      h.disk ▸ (Job.fate_moved hpath s.disk o).touched
    cases Job.fate_moved hpath s.disk o with
    | @goesOn j' hjob hsame hleft _ hsilent =>
      refine .work hp (fun holder q hq => ?_) htouched
      rcases path?_of_makes h hq with ⟨rfl, hnew⟩ | ⟨-, hold⟩ | ⟨x, hx, -⟩
      · rw [hjob, Option.bind_some, hsame] at hnew
        exact hnew ▸ hp
      · exact hold
      · rw [hleft] at hx
        cases hx
    | @ended r hjob hr hleft _ hvacated =>
      have hgone : s'.path? (.job n) = none := by
        rw [path?, h.job, hjob]
        rfl
      have hstays : ∀ holder q, s'.path? holder = some q → s.path? holder = some q ∨
          ∃ x, (j.moved s.disk o).left = some x ∧ holder = .orphan x.process.pid ∧ q = p := by
        intro holder q hq
        rcases path?_of_makes h hq with ⟨rfl, -⟩ | ⟨-, hold⟩ | ⟨x, hx, hholder, hq⟩
        · rw [hgone] at hq
          cases hq
        · exact .inl hold
        · exact .inr ⟨x, hx, hholder, hq.trans (hleft x hx)⟩
      cases hx : (j.moved s.disk o).left with
      | none =>
        refine .work hp (fun holder q hq => ?_) htouched
        exact (hstays holder q hq).resolve_right (by simp [hx])
      | some x =>
        have hpaths : ∀ holder q, s'.path? holder = some q →
            s.path? holder = some q ∨ holder = .orphan x.process.pid ∧ q = p := by
          intro holder q hq
          rcases hstays holder q hq with hold | ⟨y, hy, hpassed⟩
          · exact .inl hold
          · obtain rfl := Option.some.inj (hx.symm.trans hy)
            exact .inr hpassed
        exact .passes hp hgone hpaths htouched

/-- A run that starts has its file in a place of its own. -/
private theorem step_starts (hfresh : s.FreshToken) (hj : s.job? n = some j) (hnone : j.path? = none)
    {w : Workspace} {settings : Settings}
    (h : s.Makes n (j.starts (s.context w) settings s.disk) s') :
    Files.Step s.files s'.files (some (.job n)) := by
  cases hresult : (FormatServer.start (s.context w)
    { uri := j.uri, range := j.range, settings } s.disk).result with
  | error o =>
    rw [Job.starts_error hresult] at h
    have hsame := (start_error hresult).find?_of_token rfl hfresh.disk
    exact step_without_file h hsame (by rintro j' ⟨⟩; rfl) rfl
  | ok run =>
    obtain ⟨hstarts, hpath⟩ := Job.starts_ok hresult
    rw [hstarts] at h
    have hstart := start_ok hresult
    obtain ⟨document, l, -, hlocate, hleads, -⟩ := hstart.file
    have hdisk : s'.files.disk = _ := h.disk
    have hnew : s'.path? (.job n) = some run.process.path := by
      rw [path?, h.job]
      simp only [Job.enters, Option.bind_some, hpath]
    obtain ⟨-, hapart⟩ :=
      Disk.place_of_token hfresh.disk (exists_part_of_token hstart.path) hlocate
    refine .opens ((path?_of_job hj).trans hnone) hnew (fun holder q hq => ?_) hlocate
      (by rw [hdisk]; exact hleads) (by rw [hdisk]; exact hstart.touched)
      fun holder q k hq hk => hapart q s.disk k (hfresh.paths q (mem_paths hq)) hk.locate_self
    rcases path?_of_makes h hq with ⟨rfl, -⟩ | ⟨-, hold⟩ | ⟨x, hx, -⟩
    · exact .inr ⟨rfl, Option.some.inj (hq.symm.trans hnew)⟩
    · exact .inl hold
    · cases hx

private theorem path?_of_unbegun (h : j.begun = false) : j.path? = none := by
  unfold Job.begun at h
  unfold Job.path?
  split <;> simp_all

private theorem step_idles {x : Option Holder} (h : s.Idles n s') :
    Files.Step s.files s'.files x := by
  obtain ⟨j', events, hpath, hmakes⟩ := h
  exact step_without_file hmakes (fun _ => rfl) (by rintro _ ⟨⟩; exact hpath) rfl

/-! ### Other moves -/

private theorem step_rests {x : Option Holder} (hjobs : s'.jobs = s.jobs)
    (horphans : s'.orphans = s.orphans) (hdisk : s'.disk = s.disk) :
    Files.Step s.files s'.files x := by
  refine .rest (fun holder q hq => ?_) fun k => congrArg (·.find? k) hdisk
  have hpath : s'.path? = s.path? := by
    funext holder
    cases holder with
    | job number => rw [path?, path?, job?, job?, hjobs]
    | orphan pid => rw [path?, path?, horphans]
  exact (congrFun hpath holder).symm.trans hq

private theorem step_hears {x : Option Holder} {numbers : List Nat} (h : s.Hears numbers s') :
    Files.Step s.files s'.files x := by
  refine .rest (fun holder q hq => ?_) fun k => congrArg (·.find? k) h.disk
  change s'.path? holder = some q at hq
  cases holder with
  | orphan pid => rwa [path?, h.orphans] at hq
  | job number =>
    cases hj : s.job? number with
    | some j =>
      rw [path?, h.jobs number j hj] at hq
      exact (path?_of_job hj).trans hq
    | none =>
      -- A new request works on no file.
      obtain ⟨j', hj', hpath⟩ := Option.bind_eq_some_iff.mp hq
      have hnone : j'.path? = none := by rw [Job.path?, (h.new number j' hj hj').2]
      rw [hnone] at hpath
      cases hpath

/-- The process comes back with its path, or not at all. -/
private theorem step_plays {o : Orphan}
    (ho : s.orphans.find? (·.process.pid = o.process.pid) = some o) (h : s.Plays o s') :
    Files.Step s.files s'.files (some (.orphan o.process.pid)) := by
  have hp : s.path? (.orphan o.process.pid) = some o.process.path := by
    rw [path?, ho, Option.map_some]
  obtain ⟨back, horphans, hback⟩ := h.orphans
  obtain ⟨step, hdisk⟩ : ∃ step, s'.files.disk = (o.process.perform s.disk step).disk := h.disk
  refine .work hp (fun holder q hq => ?_) (hdisk ▸ o.process.touched_perform s.disk step)
  change s'.path? holder = some q at hq
  cases holder with
  | job number => rwa [path?, job?, h.jobs] at hq
  | orphan pid =>
    rw [path?, horphans, List.find?_append,
      find?_filter_ne (fun x : Orphan => x.process.pid) s.orphans, Option.map_or] at hq
    rcases Option.or_eq_some_iff.mp hq with hold | ⟨-, hnew⟩
    · split at hold
      · cases hold
      · exact hold
    · obtain ⟨x, hx, rfl⟩ := Option.map_eq_some_iff.mp hnew
      obtain ⟨hpid, hpath⟩ := hback x (List.mem_of_find?_eq_some hx)
      obtain rfl : x.process.pid = pid := by simpa using List.find?_some hx
      rw [hpid, hpath]
      exact hp

/-! ## Undisturbed sessions -/

/-- What comes from outside leaves directories and files that are held, and when a run starts its token is in no
name. -/
def Calm (s : Session) : Move → Prop
  | .turn (.advance number) => ((s.job? number).bind s.settingsFor).isSome → s.FreshToken
  | .surround _ _ disk => s.disk.DirectoriesStay disk ∧
      ∀ h p l, s.path? h = some p → s.disk.Leads p l → disk.find? l = s.disk.find? l
  | _ => True

def CalmRun (s : Session) : List Move → Prop
  | [] => True
  | m :: rest => s.Calm m ∧ (s.act m).CalmRun rest

/-- **What a calm move does to files.** -/
theorem files_act {x : Move} (hcalm : s.Calm x) :
    Files.Step s.files (s.act x).files x.holder? := by
  have hdoes := does_act s x
  generalize s.act x = s' at hdoes
  cases hdoes with
  | @moves t n j o _ ht hj hbegun h =>
    have hholder : (Move.turn t).holder? = some (.job n) := by
      cases t <;> simp_all [Turn.own?, Move.holder?, Move.job?]
    exact hholder ▸ step_moved hj hbegun o h
  | @starts n j w settings _ hj hbegun hsettings h =>
    have hfresh : s.FreshToken := hcalm (by rw [hj, Option.bind_some, hsettings]; rfl)
    exact step_starts hfresh hj (path?_of_unbegun hbegun) h
  | idles hj hbegun h => exact step_idles h
  | hears h => exact step_hears h
  | plays ho h => exact step_plays ho h
  | surrounds script reply disk => exact .outside (fun _ _ h => h) hcalm.1 hcalm.2
  | rests hjobs horphans hdisk hnext => exact step_rests hjobs horphans hdisk

/-- A session that has come to a state by calm moves, and what they have done. -/
inductive Undisturbed : List Mark → Session → Prop where
  | start {overrides : Value} {directory : Path} {pids : Nat → Nat} {disk : Disk} {s : Session}
      (h : Session.start overrides directory pids disk = .ok s) : Undisturbed [] s
  | move {marks : List Mark} {s : Session} (h : Undisturbed marks s) {x : Move} (hcalm : s.Calm x) :
      Undisturbed (marks ++ (s.observe x).toList) (s.act x)

theorem Undisturbed.history {marks : List Mark} (h : Undisturbed marks s) : History marks s := by
  induction h with
  | start h => exact .start h
  | move _ hcalm ih => exact ih.move _

/-- **Undisturbed sessions have their files at places of their own.** -/
theorem Undisturbed.housed {marks : List Mark} (h : Undisturbed marks s) : s.files.Housed := by
  induction h with
  | @start _ _ _ _ s h =>
    have hpath : ∀ holder, s.path? holder = none := by
      intro holder
      obtain ⟨globals, -, rfl⟩ := Session.eq_of_start h
      cases holder <;> rfl
    refine ⟨fun h p hp => ?_, fun h h' p p' l hp => ?_⟩
    · exact absurd ((hpath h).symm.trans hp) (by simp)
    · exact absurd ((hpath h).symm.trans hp) (by simp)
  | move _ hcalm ih => exact ih.step (files_act hcalm)

theorem Undisturbed.run {marks : List Mark} (h : Undisturbed marks s) {moves : List Move}
    (hcalm : s.CalmRun moves) : Undisturbed (marks ++ s.marks moves) (s.run moves) := by
  induction moves generalizing marks s with
  | nil => simpa [Session.marks, Session.run] using h
  | cons m rest ih =>
    rw [Session.marks, ← List.append_assoc]
    exact ih (h.move hcalm.1) hcalm.2

end Session

end FormatServer
