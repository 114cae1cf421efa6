import FormatServer.Proofs.Session.Handshake
import FormatServer.Proofs.Session.Pushes
import FormatServer.Proofs.Session.Turns

/-!
What the settings of requests are built on: the global settings, and whether the client answers requests for
settings. Only the handshake and pushes of the client change them (`sameGround_act`). The handshake puts the
settings file and the overrides on the defaults (`grounded_handshake`), and pushes are layers on top, or count for
nothing if the client answers requests (`grounded_act`).
-/

namespace FormatServer

open Session

namespace Session

structure SameGround (s s' : Session) : Prop where
  workspace : s'.workspace.isSome = s.workspace.isSome
  configuration : s'.configuration = s.configuration
  overrides : s'.overrides = s.overrides
  globals : s'.cache.globals = s.cache.globals

variable {s s' : Session}

private theorem SameGround.refl (s : Session) : s.SameGround s := ⟨rfl, rfl, rfl, rfl⟩

private theorem SameGround.trans {s₁ s₂ s₃ : Session} (h : s₁.SameGround s₂) (h' : s₂.SameGround s₃) :
    s₁.SameGround s₃ :=
  ⟨h'.workspace.trans h.workspace, h'.configuration.trans h.configuration,
    h'.overrides.trans h.overrides, h'.globals.trans h.globals⟩

/-! ## Moves that leave the ground alone -/

private theorem turnwise_sameGround : Turnwise SameGround where
  refl := .refl
  trans := .trans
  does _ _ _ _ _ _ _ := ⟨rfl, rfl, rfl, rfl⟩
  keep _ _ := ⟨rfl, rfl, rfl, rfl⟩
  enqueue _ _ := ⟨rfl, rfl, rfl, rfl⟩
  wait _ _ _ _ := ⟨rfl, rfl, rfl, rfl⟩
  proceed _ _ _ := ⟨rfl, rfl, rfl, rfl⟩
  finish _ _ _ := ⟨rfl, rfl, rfl, rfl⟩

private theorem sameGround_withdraw (s : Session) (number : Nat) : s.SameGround (s.withdraw number) := by
  unfold withdraw
  split
  · exact .refl s
  · dsimp only
    split <;> exact ⟨rfl, rfl, rfl, rfl⟩

private theorem sameGround_cancelAll (s : Session) : s.SameGround s.cancelAll := by
  unfold cancelAll
  generalize s.withdrawable = pairs
  induction pairs generalizing s with
  | nil => exact .refl s
  | cons pair rest ih => exact (sameGround_withdraw s pair.2).trans (ih _)

private theorem sameGround_cancel (s : Session) (id : RequestId) : s.SameGround (s.cancel id) := by
  unfold cancel
  split
  · exact .refl s
  · next number _ =>
    have hbut : s.SameGround { s with withdrawable := s.withdrawableBut id } := ⟨rfl, rfl, rfl, rfl⟩
    exact hbut.trans (sameGround_withdraw _ number)

private theorem sameGround_setStore (s : Session) (store : DocumentStore) :
    s.SameGround (s.setStore store) :=
  ⟨Option.isSome_map, rfl, rfl, rfl⟩

private theorem sameGround_withStore {f : DocumentStore → Session → Session}
    (hf : ∀ store, s.SameGround (f store s)) : s.SameGround (s.withStore f) := by
  unfold withStore
  split
  · exact ⟨rfl, rfl, rfl, rfl⟩
  · exact hf _

private theorem sameGround_clientReady (s : Session) : s.SameGround s.clientReady := by
  unfold clientReady
  dsimp only
  split
  · split <;> exact ⟨rfl, rfl, rfl, rfl⟩
  · split <;> exact ⟨rfl, rfl, rfl, rfl⟩

private theorem sameGround_foldersChanged (s : Session) (changed : Bool) :
    s.SameGround (s.foldersChanged changed) := by
  unfold foldersChanged
  split
  · exact ⟨rfl, rfl, rfl, rfl⟩
  · split <;> exact ⟨rfl, rfl, rfl, rfl⟩

private theorem sameGround_handleCall (id : RequestId) {call : Call} (hcall : ∀ c, call ≠ .handshake c) :
    s.SameGround (s.handleCall id call) := by
  cases call with
  | handshake c => exact absurd rfl (hcall c)
  | shutdown =>
    have hcancelled := sameGround_cancelAll s
    exact ⟨hcancelled.workspace, hcancelled.configuration, hcancelled.overrides, hcancelled.globals⟩
  | _ => exact ⟨rfl, rfl, rfl, rfl⟩

private theorem sameGround_handleNotice {n : Notice} (hn : ∀ v, n ≠ .configured v) :
    s.SameGround (s.handleNotice n) := by
  cases n with
  | configured v => exact absurd rfl (hn v)
  | opened d =>
    rw [handleNotice, documentOpened]
    refine sameGround_withStore fun store => ?_
    split
    · exact ⟨rfl, rfl, rfl, rfl⟩
    · exact (sameGround_setStore s _).trans ⟨rfl, rfl, rfl, rfl⟩
  | changed uri version texts =>
    rw [handleNotice, documentChanged]
    refine sameGround_withStore fun store => ?_
    split
    · exact ⟨rfl, rfl, rfl, rfl⟩
    · exact sameGround_setStore s _
  | closed uri =>
    rw [handleNotice, documentClosed]
    refine sameGround_withStore fun store => ?_
    exact (sameGround_setStore s _).trans ⟨rfl, rfl, rfl, rfl⟩
  | ready => exact sameGround_clientReady s
  | folders changed => exact sameGround_foldersChanged s changed
  | cancel id => exact sameGround_cancel s id
  | exit => exact ⟨rfl, rfl, rfl, rfl⟩
  | other => exact .refl s

def Move.handshake (id : RequestId) (c : ClientProfile) : Move :=
  .receive (.ok (.call id (.handshake c)))

/-- A message that is not handled, because the session is not running, leaves the ground alone. -/
private theorem sameGround_of_not_running (hstatus : s.status ≠ .running)
    (m : Except MessageFault Incoming) : s.SameGround (s.act (.receive m)) := by
  have hhandles := handles_receive s m
  rw [act]
  generalize s.receive m = s' at hhandles
  cases hhandles with
  | fault | exit => exact ⟨rfl, rfl, rfl, rfl⟩
  | call hrunning | notice hrunning | ignored hrunning => exact absurd hrunning hstatus
  | finished | unhandled => exact .refl s

/-- **Only the handshake and pushes change what settings are built on.** -/
theorem sameGround_act {x : Move} (hhandshake : ∀ id c, x ≠ .handshake id c) (hpush : ∀ v, x ≠ .push v) :
    s.SameGround (s.act x) := by
  cases x with
  | turn t => exact turnwise_sameGround.take s t
  | reorder ready timers now => exact ⟨rfl, rfl, rfl, rfl⟩
  | surround script reply disk => exact ⟨rfl, rfl, rfl, rfl⟩
  | receive m =>
    have hhandles := handles_receive s m
    rw [act]
    generalize s.receive m = s' at hhandles
    cases hhandles with
    | call _ id call =>
      exact sameGround_handleCall id fun c hc => hhandshake id c (by rw [hc, Move.handshake])
    | notice _ n => exact sameGround_handleNotice fun v hv => hpush v (by rw [hv, Move.push])
    | fault | exit => exact ⟨rfl, rfl, rfl, rfl⟩
    | finished | ignored | unhandled => exact .refl s

end Session

/-! ## The handshake -/

/-- The settings that a session begins with, after the handshake: the defaults, with the settings file of the
workspace if there is one that is valid, and with the overrides. -/
inductive Base (d : Disk) (overrides : Value) (c : ClientProfile) : Settings → Prop where
  | file {root : Path} {entries : List (Value × Value)} {file G : Settings} (hroot : c.Names root)
      (hgives : GivesEntries d (settingsFilePath root) entries)
      (hfits : ∀ entry ∈ entries, Settings.Fits entry)
      (hfile : Settings.merged {} (.map entries) = .ok file)
      (hoverrides : file.merged overrides = .ok G) : Base d overrides c G
  | noFile {G : Settings} (hnone : ∀ root entries, c.Names root →
        GivesEntries d (settingsFilePath root) entries → ¬ ∀ entry ∈ entries, Settings.Fits entry)
      (hoverrides : Settings.merged {} overrides = .ok G) : Base d overrides c G

/-- A client names one directory. -/
private theorem ClientProfile.Names.unique {c : ClientProfile} {root root' : Path} (h : c.Names root)
    (h' : c.Names root') : root = root' := by
  obtain ⟨text, uri, path, htext, huri, hpath, -, rfl⟩ := h.file
  obtain ⟨text', uri', path', htext', huri', hpath', -, rfl⟩ := h'.file
  obtain rfl := Option.some.inj (htext.symm.trans htext')
  obtain rfl := Except.ok.inj (huri.symm.trans huri')
  rw [Option.some.inj (hpath.symm.trans hpath')]

variable {c : ClientProfile} {G : Settings} {layers : List Value}

theorem exists_base (d : Disk) {overrides : Value} (c : ClientProfile)
    (hoverrides : ∃ t, Settings.merged {} overrides = .ok t) : ∃ G, Base d overrides c G := by
  by_cases hvalid : ∃ root entries, c.Names root ∧ GivesEntries d (settingsFilePath root) entries ∧
      ∀ entry ∈ entries, Settings.Fits entry
  · obtain ⟨root, entries, hroot, hgives, hfits⟩ := hvalid
    obtain ⟨file, G, hfile, hG, -⟩ := workspaceSettings_of_fits hoverrides hgives hfits
    exact ⟨G, .file hroot hgives hfits hfile hG⟩
  · obtain ⟨G, hG⟩ := hoverrides
    exact ⟨G, .noFile (fun root entries hroot hgives hfits => hvalid ⟨root, entries, hroot, hgives, hfits⟩) hG⟩

/-- The ground of the settings of requests, when these layers were pushed. Before the handshake there is none. -/
structure Grounded (c : ClientProfile) (G : Settings) (layers : List Value) (s : Session) : Prop where
  configuration : s.workspace.isSome = true → s.configuration = c.configuration
  globals : s.workspace.isSome = true →
    s.cache.globals = if c.configuration then G else G.layered layers

namespace Session

variable {s s' : Session}

private theorem grounded_of_none (h : s.workspace = none) : Grounded c G layers s := by
  constructor <;> simp [h]

private theorem grounded_of_globals (hconfiguration : s.configuration = c.configuration)
    (hglobals : s.cache.globals = G) : Grounded c G [] s := by
  refine ⟨fun _ => hconfiguration, fun _ => ?_⟩
  rw [hglobals]
  split <;> rfl

private theorem SameGround.grounded (h : s.SameGround s') (hs : Grounded c G layers s) :
    Grounded c G layers s' := by
  constructor
  · rw [h.workspace, h.configuration]
    exact hs.configuration
  · rw [h.workspace, h.globals]
    exact hs.globals

/-- A client that names no directory changes nothing of the settings. -/
private theorem handshake_of_unnamed (hnone : ∀ root, ¬ c.Names root) (id : RequestId) :
    let s' := s.handshake id c
    s'.cache.globals = s.cache.globals ∧
      (s'.workspace = s.workspace ∨ s'.workspace.isSome = true ∧ s'.configuration = c.configuration) := by
  intro s'
  cases hreadable : Uri.parse (c.rootUri.getD "").toList with
  | error e => simp [s', handshake, hreadable, respond, send, emit]
  | ok uri =>
    have hmet : ∀ r : Response, s' = (s.meet c).respond id r → s'.cache.globals = s.cache.globals ∧
        (s'.workspace = s.workspace ∨
          s'.workspace.isSome = true ∧ s'.configuration = c.configuration) := by
      rintro r hs'
      rw [hs']
      exact ⟨rfl, .inr ⟨rfl, rfl⟩⟩
    cases hroot : c.root? with
    | none => exact hmet _ (by simp only [s', handshake, hreadable, hroot]; rfl)
    | some text =>
      cases hparse : Uri.parse text.toList with
      | error e => exact hmet _ (by simp only [s', handshake, hreadable, hroot, hparse]; rfl)
      | ok place =>
        cases hpath : place.filePath? with
        | none => exact hmet _ (by simp only [s', handshake, hreadable, hroot, hparse, hpath]; rfl)
        | some path =>
          cases path with
          | nil => exact hmet _ (by simp only [s', handshake, hreadable, hroot, hparse, hpath]; rfl)
          | cons first rest =>
            exact absurd ⟨⟨uri, hreadable⟩, text, place, _, hroot, hparse, hpath, by simp, rfl⟩
              (hnone (.ofChars (first :: rest)))

/-- Loading settings changes no more than the global ones. -/
private theorem loadWorkspace_same {root : Path} (h : s.loadWorkspace root = .ok s') :
    s'.workspace = s.workspace ∧ s'.configuration = s.configuration := by
  unfold loadWorkspace at h
  split at h
  · obtain rfl := Except.ok.inj h
    split <;> exact ⟨rfl, rfl⟩
  · split at h
    · obtain rfl := Except.ok.inj h
      exact ⟨rfl, rfl⟩
    · cases h

/-- The settings of a workspace are its base. -/
private theorem loadWorkspace_of_base {root : Path} {overrides : Value} (hroot : c.Names root)
    (hoverrides : ∀ t : Settings, t.merged s.overrides = t.merged overrides)
    (hglobals : Settings.merged {} overrides = .ok s.cache.globals) (hG : Base s.disk overrides c G) :
    (∀ s', s.loadWorkspace root = .ok s' → s'.cache.globals = G) ∧
      ∀ e, s.loadWorkspace root = .error e → s.cache.globals = G := by
  have hvalid : ∃ t, Settings.merged {} s.overrides = .ok t := ⟨_, (hoverrides {}).trans hglobals⟩
  unfold loadWorkspace
  cases hG with
  | @file root' entries file _ hroot' hgives hfits hfile hmerged =>
    obtain rfl := hroot'.unique hroot
    obtain ⟨file', G', hfile', hmerged', hsettings⟩ := workspaceSettings_of_fits hvalid hgives hfits
    obtain rfl := Except.ok.inj (hfile.symm.trans hfile')
    rw [hoverrides, hmerged] at hmerged'
    obtain rfl := Except.ok.inj hmerged'
    rw [hsettings]
    refine ⟨fun s' hs' => ?_, fun e he => by cases he⟩
    obtain rfl := Except.ok.inj hs'
    split <;> rfl
  | noFile hnone hmerged =>
    obtain rfl := Except.ok.inj (hglobals.symm.trans hmerged)
    cases hsettings : workspaceSettings s.disk root s.overrides with
    | ok settings =>
      obtain ⟨entries, hgives, hfits⟩ := fits_of_workspaceSettings hsettings
      exact absurd hfits (hnone root entries hroot hgives)
    | error e =>
      refine ⟨fun s' hs' => ?_, fun _ _ => rfl⟩
      dsimp only at hs'
      split at hs'
      · obtain rfl := Except.ok.inj hs'
        rfl
      · cases hs'

section

variable (hrunning : s.status = .running)

include hrunning

/-- A session that is running handles a handshake. -/
private theorem act_handshake (id : RequestId) (c : ClientProfile) :
    s.act (.handshake id c) = s.handshake id c :=
  receive_call hrunning id (.handshake c)

private theorem isSome_handshake (h : s.workspace.isSome = true) (id : RequestId) (c : ClientProfile) :
    (s.act (.handshake id c)).workspace.isSome = true := by
  by_cases hroot : ∃ root, c.Names root
  · obtain ⟨root, hroot⟩ := hroot
    have hact : s.act (.handshake id c) = _ := receive_handshake hrunning hroot
    rw [hact]
    cases hload : (s.meet c).loadWorkspace root with
    | ok s' => exact congrArg Option.isSome (loadWorkspace_same hload).1
    | error e => rfl
  · rw [act_handshake hrunning]
    obtain ⟨-, hsame | ⟨hsome, -⟩⟩ := handshake_of_unnamed (s := s) (not_exists.mp hroot) id
    · rw [hsame, h]
    · exact hsome

end

/-- **The handshake puts the settings file and the overrides on the defaults.** -/
theorem grounded_handshake {overrides : Value} (hnone : s.workspace = none)
    (hoverrides : ∀ t : Settings, t.merged s.overrides = t.merged overrides)
    (hglobals : Settings.merged {} overrides = .ok s.cache.globals) (hG : Base s.disk overrides c G)
    (id : RequestId) : Grounded c G [] (s.act (.handshake id c)) := by
  by_cases hrunning : s.status = .running
  · by_cases hroot : ∃ root, c.Names root
    · obtain ⟨root, hroot⟩ := hroot
      have hmet := loadWorkspace_of_base (s := s.meet c) hroot hoverrides hglobals hG
      have hact : s.act (.handshake id c) = _ := receive_handshake hrunning hroot
      rw [hact]
      cases hload : (s.meet c).loadWorkspace root with
      | ok s' =>
        exact grounded_of_globals (s := s'.respond id _) (loadWorkspace_same hload).2 (hmet.1 s' hload)
      | error e => exact grounded_of_globals (s := (s.meet c).respond id _) rfl (hmet.2 e hload)
    · have hunnamed := not_exists.mp hroot
      rw [act_handshake hrunning]
      obtain ⟨hsame, hworkspace | ⟨-, hconfiguration⟩⟩ := handshake_of_unnamed (s := s) hunnamed id
      · exact grounded_of_none (hworkspace.trans hnone)
      · refine grounded_of_globals hconfiguration (hsame.trans ?_)
        cases hG with
        | file hroot' => exact absurd hroot' (hunnamed _)
        | noFile _ hmerged => exact Except.ok.inj (hglobals.symm.trans hmerged)
  · exact (sameGround_of_not_running hrunning _).grounded (grounded_of_none hnone)

/-! ## Pushes -/

def pushed? (s : Session) : Move → Option Value
  | .receive (.ok (.notice (.configured v))) =>
    if s.status = .running then SettingsCache.pushedLayer? v else none
  | _ => none

def pushes (s : Session) : List Move → List Value
  | [] => []
  | x :: rest => (s.pushed? x).toList ++ (s.act x).pushes rest

private theorem grounded_push (h : Grounded c G layers s) (hrunning : s.status = .running) (v : Value) :
    Grounded c G (layers ++ (SettingsCache.pushedLayer? v).toList) (s.act (.push v)) := by
  cases hconfiguration : s.configuration with
  | false =>
    obtain ⟨said, -, hact⟩ := says_push hrunning hconfiguration v
    rw [hact]
    refine ⟨h.configuration, fun hworkspace => ?_⟩
    have hpushed : c.configuration = false := (h.configuration hworkspace).symm.trans hconfiguration
    have hglobals := h.globals hworkspace
    rw [hpushed] at hglobals ⊢
    simp only [Bool.false_eq_true, if_false] at hglobals ⊢
    rw [hglobals, ← Settings.layered_append]
  | true =>
    have hact : s.act (.push v) = { s with cache := s.cache.clear } := by
      rw [act_push hrunning, configured, if_pos hconfiguration]
    rw [hact]
    refine ⟨h.configuration, fun hworkspace => ?_⟩
    have hasked : c.configuration = true := (h.configuration hworkspace).symm.trans hconfiguration
    have hglobals := h.globals hworkspace
    rw [hasked] at hglobals ⊢
    exact hglobals

private theorem pushed?_of_other {x : Move} (hpush : ∀ v, x ≠ .push v) : s.pushed? x = none := by
  unfold pushed?
  split
  · exact absurd rfl (hpush _)
  · rfl

/-- **Pushes are layers on top of what the handshake has settled**, unless the client answers requests. -/
theorem grounded_act (h : Grounded c G layers s) {x : Move} (hhandshake : ∀ id c', x ≠ .handshake id c') :
    Grounded c G (layers ++ (s.pushed? x).toList) (s.act x) := by
  by_cases hpush : ∃ v, x = .push v
  · obtain ⟨v, rfl⟩ := hpush
    by_cases hrunning : s.status = .running
    · rw [Move.push, pushed?, if_pos hrunning]
      exact grounded_push h hrunning v
    · rw [Move.push, pushed?, if_neg hrunning, Option.toList_none, List.append_nil]
      exact (sameGround_of_not_running hrunning _).grounded h
  · rw [pushed?_of_other (not_exists.mp hpush), Option.toList_none, List.append_nil]
    exact (sameGround_act hhandshake (not_exists.mp hpush)).grounded h

/-- A session that has its workspace keeps one. -/
theorem isSome_act (h : s.workspace.isSome = true) (x : Move) : (s.act x).workspace.isSome = true := by
  by_cases hpush : ∃ v, x = .push v
  · obtain ⟨v, rfl⟩ := hpush
    by_cases hrunning : s.status = .running
    · rw [act_push hrunning, configured]
      split
      · exact h
      · split
        · exact h
        · split <;> exact h
    · rw [Move.push, (sameGround_of_not_running hrunning _).workspace, h]
  by_cases hhandshake : ∃ id c, x = .handshake id c
  · obtain ⟨id, c, rfl⟩ := hhandshake
    by_cases hrunning : s.status = .running
    · exact isSome_handshake hrunning h id c
    · rw [Move.handshake, (sameGround_of_not_running hrunning _).workspace, h]
  · have hother : ∀ id c, x ≠ .handshake id c := fun id c hx => hhandshake ⟨id, c, hx⟩
    rw [(sameGround_act hother (not_exists.mp hpush)).workspace, h]

theorem pushes_append (s : Session) (a b : List Move) :
    s.pushes (a ++ b) = s.pushes a ++ (s.run a).pushes b := by
  induction a generalizing s with
  | nil => rfl
  | cons x rest ih =>
    rw [List.cons_append, pushes, pushes, ih, List.append_assoc]
    rfl

private theorem sameGround_run {moves : List Move} (hhandshake : ∀ id c, .handshake id c ∉ moves)
    (hpush : ∀ v, .push v ∉ moves) : s.SameGround (s.run moves) ∧ s.pushes moves = [] := by
  induction moves generalizing s with
  | nil => exact ⟨.refl s, rfl⟩
  | cons x rest ih =>
    simp only [List.mem_cons, not_or] at hhandshake hpush
    have hothers : (∀ id c, x ≠ .handshake id c) ∧ ∀ v, x ≠ .push v :=
      ⟨fun id c => Ne.symm (hhandshake id c).1, fun v => Ne.symm (hpush v).1⟩
    obtain ⟨hrest, hnone⟩ := ih (s := s.act x) (fun id c => (hhandshake id c).2) fun v => (hpush v).2
    refine ⟨(sameGround_act hothers.1 hothers.2).trans hrest, ?_⟩
    rw [pushes, hnone, pushed?_of_other hothers.2]
    rfl

private theorem grounded_after (h : Grounded c G layers s) {moves : List Move}
    (hhandshake : ∀ id c', .handshake id c' ∉ moves) :
    Grounded c G (layers ++ s.pushes moves) (s.run moves) := by
  induction moves generalizing s layers with
  | nil => rwa [pushes, List.append_nil]
  | cons x rest ih =>
    simp only [List.mem_cons, not_or] at hhandshake
    have hact := grounded_act h (x := x) fun id c' => Ne.symm (hhandshake id c').1
    have hrest := ih hact fun id c' => (hhandshake id c').2
    rwa [List.append_assoc] at hrest

/-- **The ground of a session with one handshake**, before which nothing was pushed. -/
theorem grounded_run {overrides : Value} {directory : Path} {pids : Nat → Nat} {disk : Disk}
    {first : Session} (hstart : Session.start overrides directory pids disk = .ok first) {before after : List Move}
    (id : RequestId) (hbefore : ∀ id' c', .handshake id' c' ∉ before ++ after)
    (hpush : ∀ v, .push v ∉ before) (hG : Base (first.run before).disk overrides c G) {moves : List Move}
    (hmoves : moves <+: before ++ .handshake id c :: after) :
    Grounded c G (first.pushes moves) (first.run moves) := by
  obtain ⟨globals, hglobals, hfirst⟩ := eq_of_start hstart
  have hoverrides : ∀ t : Settings, t.merged first.overrides = t.merged overrides := by
    rw [hfirst]
    exact fun t => t.merged_overrides overrides
  simp only [List.mem_append, not_or] at hbefore
  have hearly : ∀ {earlier : List Move}, earlier <+: before →
      first.SameGround (first.run earlier) ∧ first.pushes earlier = [] := fun hearlier =>
    sameGround_run (fun id' c' hmem => (hbefore id' c').1 (hearlier.subset hmem)) fun v hmem =>
      hpush v (hearlier.subset hmem)
  have hnone : ∀ {earlier : List Move}, earlier <+: before → (first.run earlier).workspace = none := by
    intro earlier hearlier
    have hsame := (hearly hearlier).1.workspace
    rw [hfirst] at hsame ⊢
    exact Option.isNone_iff_eq_none.mp (Option.isSome_eq_false_iff.mp hsame)
  rcases List.prefix_or_prefix_of_prefix hmoves (List.prefix_append before _) with hearlier | ⟨rest, rfl⟩
  · exact grounded_of_none (hnone hearlier)
  · rcases List.prefix_cons_iff.mp ((List.prefix_append_right_inj before).mp hmoves) with
      rfl | ⟨p, rfl, hp⟩
    · rw [List.append_nil]
      exact grounded_of_none (hnone List.prefix_rfl)
    · obtain ⟨hsame, hpushes⟩ := hearly List.prefix_rfl
      have hmet : Grounded c G [] ((first.run before).act (.handshake id c)) := by
        refine grounded_handshake (hnone List.prefix_rfl) ?_ ?_ hG id
        · rw [hsame.overrides]
          exact hoverrides
        · rw [hsame.globals, hglobals, hfirst]
      have hafter : ∀ id' c', .handshake id' c' ∉ p := fun id' c' hmem =>
        (hbefore id' c').2 (hp.subset hmem)
      have hrun := grounded_after hmet hafter
      rw [pushes_append, hpushes, run_append]
      exact hrun

end Session

end FormatServer
