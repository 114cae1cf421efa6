import FormatServer.Proofs.Session.LayeredSettings
import FormatServer.Proofs.Settings.Valid

/-!
The settings that a session has in use. Wherever they come from, the overrides at the start, the settings file of
the workspace, pushes, or answers of the client, they are valid (`valid_history`). Main statement
(`settings_valid_and_stable`): they are, and written down as a layer they give themselves again.
-/

namespace FormatServer

open Settings

/-! ## Where settings come from -/

theorem ClientAnswer.Yields.valid {globals t : Settings} {a : ClientAnswer} (h : a.Yields globals t)
    (hglobals : globals.Valid) : t.Valid := by
  cases h with
  | layer hmerged => exact valid_merged hglobals hmerged
  | noMapping => exact hglobals

theorem valid_workspaceSettings {d : Disk} {root : Path} {overrides : Value} {result : Settings × Bool}
    (h : workspaceSettings d root overrides = .ok result) : result.1.Valid := by
  rw [workspaceSettings] at h
  cases hload : loadSettings d root with
  | error e =>
    rw [hload] at h
    cases h
  | ok layer =>
    cases hmerged : Settings.mergedAll {} [layer, overrides] with
    | error e =>
      simp [hload, hmerged, Except.mapError, bind, Except.bind] at h
    | ok settings =>
      simp only [hload, hmerged, Except.mapError, bind, Except.bind] at h
      obtain rfl := Except.ok.inj h
      exact valid_mergedAll valid_default hmerged

theorem SettingsCache.valid_updateGlobals {c c' : SettingsCache} {pushed : Value}
    (h : c.updateGlobals pushed = .ok c') (hvalid : c.globals.Valid) : c'.globals.Valid := by
  unfold updateGlobals at h
  split at h
  · exact Except.ok.inj h ▸ hvalid
  · next layer _ =>
    cases hmerged : c.globals.merged layer with
    | error e =>
      rw [hmerged] at h
      cases h
    | ok t =>
      rw [hmerged] at h
      obtain rfl := Except.ok.inj h
      exact valid_merged hvalid hmerged

namespace Session

variable {s : Session} {marks : List Mark} {n : Nat} {j : Job} {t : Settings} {x : Move}

/-! ## Global settings -/

private theorem valid_loadWorkspace {s' : Session} {root : Path} (h : s.loadWorkspace root = .ok s')
    (hvalid : s.cache.globals.Valid) : s'.cache.globals.Valid := by
  unfold loadWorkspace at h
  split at h
  · next settings found hsettings =>
    have hglobals : s'.cache.globals = settings := by
      obtain rfl := Except.ok.inj h
      split <;> rfl
    rw [hglobals]
    exact valid_workspaceSettings hsettings
  · split at h
    · obtain rfl := Except.ok.inj h
      exact hvalid
    · cases h

private theorem valid_handshake (hvalid : s.cache.globals.Valid) (id : RequestId) (c : ClientProfile) :
    (s.handshake id c).cache.globals.Valid := by
  unfold handshake
  split
  · exact hvalid
  · dsimp only
    split
    · exact hvalid
    · split
      · exact hvalid
      · split
        · exact hvalid
        · exact hvalid
        · split
          · next s' hload =>
            have hloaded : s'.cache.globals.Valid := valid_loadWorkspace hload hvalid
            exact hloaded
          · exact hvalid

private theorem valid_configured (hvalid : s.cache.globals.Valid) (pushed : Value) :
    (s.configured pushed).cache.globals.Valid := by
  unfold configured
  split
  · exact hvalid
  · split
    · next cache hcache => exact SettingsCache.valid_updateGlobals hcache hvalid
    · split <;> exact hvalid

/-- **The global settings stay valid**, whatever happens. -/
private theorem valid_globals_act (hvalid : s.cache.globals.Valid) (x : Move) :
    (s.act x).cache.globals.Valid := by
  by_cases hhandshake : ∃ id c, x = .handshake id c
  · obtain ⟨id, c, rfl⟩ := hhandshake
    have hhandles := handles_receive s (.ok (.call id (.handshake c)))
    rw [Move.handshake, act]
    generalize s.receive _ = s' at hhandles ⊢
    cases hhandles with
    | call => exact valid_handshake hvalid id c
    | finished | unhandled => exact hvalid
  by_cases hpush : ∃ v, x = .push v
  · obtain ⟨v, rfl⟩ := hpush
    have hhandles := handles_receive s (.ok (.notice (.configured v)))
    rw [Move.push, act]
    generalize s.receive _ = s' at hhandles ⊢
    cases hhandles with
    | notice => exact valid_configured hvalid v
    | finished | unhandled => exact hvalid
  · have hsame := sameGround_act (s := s) (fun id c hx => hhandshake ⟨id, c, hx⟩) (not_exists.mp hpush)
    rw [hsame.globals]
    exact hvalid

/-! ## Settings of documents and of runs -/

/-- The global settings are valid, all that is kept is, and every run has started with valid settings. -/
structure AllValid (s : Session) : Prop where
  globals : s.cache.globals.Valid
  kept : ∀ uri t, s.cache.find? uri = some t → t.Valid
  running : ∀ n j run, s.job? n = some j → j.phase.run? = some run → run.request.settings.Valid

/-- **A run starts with valid settings.** -/
theorem AllValid.settingsFor (h : s.AllValid) (hsettings : s.settingsFor j = some t) : t.Valid := by
  unfold Session.settingsFor at hsettings
  split at hsettings
  · obtain ⟨w, -, hfound⟩ := Option.bind_eq_some_iff.mp hsettings
    split at hfound
    · cases hfound
    · split at hfound
      · exact h.kept j.uri t hfound
      · exact Option.some.inj hfound ▸ h.globals
  · next v hphase _ =>
    obtain ⟨w, -, hsettle⟩ := Option.bind_eq_some_iff.mp hsettings
    cases hresult : s.cache.settle j.uri v with
    | error e => simp [hresult, Except.toOption] at hsettle
    | ok kept =>
      simp only [hresult, Except.toOption, Option.map_some, Option.some.injEq] at hsettle
      exact hsettle ▸ (SettingsCache.yields_of_settle hresult).valid h.globals
  · cases hsettings

private theorem valid_kept_act (hhistory : History marks s) (h : s.AllValid) (x : Move) {uri : String}
    (hfind : (s.act x).cache.find? uri = some t) : t.Valid := by
  rcases found_or_kept hhistory hfind with hfound | ⟨k, hmark⟩
  · exact h.kept uri t hfound
  · obtain ⟨n, j, v, -, -, -, hyields⟩ := answered_of_kept hmark
    exact hyields.valid h.globals

private theorem valid_running_act (hhistory : History marks s) (h : s.AllValid) {j' : Job} {run : Run}
    (hj' : (s.act x).job? n = some j') (hrun : j'.phase.run? = some run) : run.request.settings.Valid := by
  cases hj : s.job? n with
  | none =>
    obtain ⟨-, -, hphase⟩ := arrival_of_new hhistory hj hj'
    rw [hphase] at hrun
    cases hrun
  | some j =>
    have htreats := treats_act hj x
    rw [hj'] at htreats
    generalize s.heardOf n x = events at htreats
    cases htreats with
    | spares => exact h.running n j run hj hrun
    | starts steps turns _ _ hsettings hrequest =>
      obtain rfl := Option.some.inj ((run?_of_going? (going?_firstPhase _ steps turns)).symm.trans hrun)
      exact hrequest ▸ h.settingsFor hsettings
    | plays hbefore hp hsame =>
      obtain rfl := Option.some.inj ((run?_of_going? hp).symm.trans hrun)
      exact hsame ▸ h.running n j _ hj (run?_of_going? hbefore)
    | dismisses turns hdismisses =>
      exact Option.some.inj hrun ▸ h.running n j _ hj (run?_of_going? hdismisses.going?)
    | buries hphase => exact Option.some.inj hrun ▸ h.running n j _ hj (by rw [hphase]; rfl)
    | asks | hears | ends => cases hrun

/-- **All settings stay valid**, whatever happens. -/
private theorem AllValid.act (h : s.AllValid) (hhistory : History marks s) (x : Move) : (s.act x).AllValid :=
  ⟨valid_globals_act h.globals x, fun _ _ hfind => valid_kept_act hhistory h x hfind,
    fun _ _ _ hj hrun => valid_running_act hhistory h hj hrun⟩

/-- **In every session all settings are valid.** -/
theorem valid_history (h : History marks s) : s.AllValid := by
  induction h with
  | start hstart =>
    obtain ⟨globals, hglobals, rfl⟩ := eq_of_start hstart
    exact ⟨valid_merged valid_default hglobals, fun _ _ hfind => (nomatch hfind),
      fun _ _ _ hj => (nomatch hj)⟩
  | move hhistory x ih => exact ih.act hhistory x

/-! ## Settings in use -/

inductive InUse (s : Session) : Settings → Prop where
  | globals : InUse s s.cache.globals
  /-- they are kept for a document -/
  | kept {uri : String} {t : Settings} (h : s.cache.find? uri = some t) : InUse s t
  /-- a request's run starts with them when its turn comes -/
  | starting {n : Nat} {j : Job} {t : Settings} (hj : s.job? n = some j) (h : s.settingsFor j = some t) :
      InUse s t
  /-- a request's run has started with them -/
  | running {n : Nat} {j : Job} {run : Run} (hj : s.job? n = some j) (hrun : j.phase.run? = some run) :
      InUse s run.request.settings

private theorem AllValid.valid (h : s.AllValid) (hinUse : s.InUse t) : t.Valid := by
  cases hinUse with
  | globals => exact h.globals
  | kept hfind => exact h.kept _ t hfind
  | starting _ hsettings => exact h.settingsFor hsettings
  | running hj hrun => exact h.running _ _ _ hj hrun

end Session

/-- **All settings in use are valid and stable.** However a session has come to a state, with any overrides, settings
files, pushes and answers of the client in any order: the global settings, those that are kept for documents, and
those with which runs have started or start have an extension that starts with its dot and a timeout that is a
finite number above zero. Written down as a layer, with any names of their fields and in any order, they give the
very same settings, whatever they are put on; and so any layer that is put on them twice counts once. -/
theorem settings_valid_and_stable {marks : List Mark} {s : Session} (h : History marks s) {t : Settings}
    (hinUse : s.InUse t) :
    t.Valid ∧
    (∀ names : Field → String, (∀ field, Field.ofName? (names field) = some field) →
      Writes t (t.written names)) ∧
    (∀ (base : Settings) entries, Writes t entries → base.merged (.map entries) = .ok t) ∧
    ∀ layer u, t.merged layer = .ok u → u.merged layer = .ok u := by
  have hvalid := (Session.valid_history h).valid hinUse
  exact ⟨hvalid, fun names hnames => writes_written hnames t,
    fun base entries hwrites => merged_of_writes hvalid hwrites base, fun layer u hmerged => merged_merged hmerged⟩

/-- Overrides and a push that are both brought to normal form: what they come to is stable. -/
theorem settings_valid_and_stable_pushed :
    let names : Field → String := fun
      | .command => "command"
      | .tempPrefix => "temp_prefix"
      | .defaultExtension => "defaultExtension"
      | .timeout => "timeout"
    let first : Session := {
      overrides := .map [(.text "default_extension", .text "x")], directory := .ofString "/tmp", disk := {}
      cache := { globals := { defaultExtension := ".x" } } }
    let s := first.run [.push (.map [(.text "timeout", .int 10), (.text "command", .text "fmt -")])]
    let t : Settings := { command := ["fmt", "-"], defaultExtension := ".x" }
    s.InUse t ∧ Settings.merged {} (.map (t.written names)) = .ok t := by
  intro names first s t
  have hstart : Session.start first.overrides first.directory id first.disk = .ok first := rfl
  have hglobals : s.cache.globals = t := by decide +kernel
  have hinUse : s.InUse t := hglobals ▸ .globals
  obtain ⟨-, hwrites, hstable, -⟩ := settings_valid_and_stable ((History.start hstart).run _) hinUse
  exact ⟨hinUse, hstable {} _ (hwrites names fun field => by cases field <;> decide)⟩

end FormatServer
