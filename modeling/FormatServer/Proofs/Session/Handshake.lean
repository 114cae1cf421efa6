import FormatServer.Proofs.Session.History
import FormatServer.Proofs.Settings.File
import FormatServer.Proofs.Text.Utf8

/-!
The first request of a session, when the client names the root of a workspace. Main statement
(`handshake_answered`): settings that are valid become the global ones, others are reported and left out, and
in both cases the client is welcomed; a settings file that nobody provided for is what makes the request fail.
-/

namespace FormatServer

/-! ## Roots of workspaces -/

/-- A client names the directory of its workspace. -/
structure ClientProfile.Names (c : ClientProfile) (root : Path) : Prop where
  /-- what it gives as the root, used or not, can be read as a URI -/
  readable : ∃ uri, Uri.parse (c.rootUri.getD "").toList = .ok uri
  /-- the first folder, or the root if there is none, is a URI of a file -/
  file : ∃ text uri path, c.root? = some text ∧ Uri.parse text.toList = .ok uri ∧
    uri.filePath? = some path ∧ path ≠ [] ∧ root = .ofChars path

namespace Session

variable {s : Session} {id : RequestId} {c : ClientProfile} {root : Path}

/-- The handshake with a client that names a workspace is the loading of its settings. -/
theorem receive_handshake (hrunning : s.status = .running) (hroot : c.Names root) :
    s.receive (.ok (.call id (.handshake c))) =
      match (s.meet c).loadWorkspace root with
      | .ok s' => s'.respond id (.capabilities c.units)
      | .error e => (s.meet c).respond id (.error (.unforeseen e.kind e.message)) := by
  obtain ⟨⟨uri, huri⟩, ⟨text, uri', path, htext, huri', hpath, hne, rfl⟩⟩ := hroot
  have hreceive : s.receive (.ok (.call id (.handshake c))) = s.handshake id c :=
    receive_call hrunning id (.handshake c)
  rw [hreceive, handshake, huri]
  cases path with
  | nil => exact absurd rfl hne
  | cons first rest =>
    cases hload : (s.meet c).loadWorkspace (.ofChars (first :: rest)) with
    | ok s' => simp [htext, huri', hpath, hload]
    | error e => simp [htext, huri', hpath, hload]

def welcomeLog (root : Path) (entries : List (Value × Value)) : List SessionEvent :=
  if entries = [] then []
  else [.sent (.log .info ("Loaded formatter settings from " ++ root.toString))]

/-- **The handshake settles the settings of the workspace.** When its settings file gives entries that all
fit, the global settings become the defaults with these and the overrides on top, and the client is welcomed.
When not, nothing changes in the settings. Then either one log entry reports it and the client is welcomed all
the same, or the settings file holds a surprise, and the request fails for it without a log entry.
The reader of settings files sets two conditions: the file has no node that holds itself, and it is nested no deeper
than a reader with a bounded stack can follow. -/
theorem handshake_answered (s : Session) (id : RequestId) (c : ClientProfile) (root : Path)
    (hrunning : s.status = .running) (hroot : c.Names root)
    (hoverrides : ∃ t, Settings.merged {} s.overrides = .ok t) :
    let s' := s.receive (.ok (.call id (.handshake c)))
    let path := settingsFilePath root
    let Valid := fun entries : List (Value × Value) =>
      GivesEntries s.disk path entries ∧ ∀ entry ∈ entries, Settings.Fits entry
    (∀ entries, Valid entries → ∃ file settings,
      Settings.merged {} (.map entries) = .ok file ∧ file.merged s.overrides = .ok settings ∧
      s'.cache = { s.cache with globals := settings } ∧
      s'.trace = s.trace ++ welcomeLog root entries ++ [.sent (.response id (.capabilities c.units))]) ∧
    ((¬ ∃ entries, Valid entries) → (¬ ∃ kind text, Surprises s.disk path kind text) →
      s'.cache = s.cache ∧ ∃ reason, s'.trace = s.trace ++
        [.sent (.log .error ("Ignoring invalid workspace settings: " ++ reason)),
          .sent (.response id (.capabilities c.units))]) ∧
    (∀ kind text, Surprises s.disk path kind text →
      s'.cache = s.cache ∧
      s'.trace = s.trace ++ [.sent (.response id (.error (.unforeseen kind text)))]) := by
  intro s' path Valid
  have hs' : s' = _ := receive_handshake hrunning hroot
  have hdisk : (s.meet c).disk = s.disk := rfl
  have hoverrides' : (s.meet c).overrides = s.overrides := rfl
  rw [loadWorkspace, hdisk, hoverrides'] at hs'
  refine ⟨?valid, ?reported, ?surprised⟩
  case valid =>
    rintro entries ⟨hgives, hfits⟩
    obtain ⟨file, settings, hfile, hsettings, hok⟩ :=
      workspaceSettings_of_fits hoverrides hgives hfits
    refine ⟨file, settings, hfile, hsettings, ?_⟩
    rw [hs', hok]
    cases entries with
    | nil => exact ⟨rfl, by simp [respond, send, emit, meet, welcomeLog]⟩
    | cons entry rest => exact ⟨rfl, by simp [respond, send, emit, log, meet, welcomeLog]⟩
  case reported =>
    intro hinvalid hexpected
    cases hresult : workspaceSettings s.disk root s.overrides with
    | ok result => exact absurd (fits_of_workspaceSettings hresult) hinvalid
    | error e =>
      have hrefusal : e.isRefusal = true := by
        by_contra hforeign
        have hsurprise :=
          surprises_of_workspaceSettings hoverrides hresult (Bool.eq_false_iff.mpr hforeign)
        exact hexpected ⟨_, _, hsurprise⟩
      rw [hs', hresult]
      simp only [hrefusal, if_true]
      exact ⟨rfl, e.message, by simp [respond, send, emit, log, meet]⟩
  case surprised =>
    intro kind text hsurprise
    obtain ⟨e, herror, hforeign, rfl, rfl⟩ :=
      workspaceSettings_of_surprises s.overrides hsurprise
    rw [hs', herror]
    simp only [hforeign, Bool.false_eq_true, if_false]
    exact ⟨rfl, rfl⟩

private theorem error_of_check {r : Except Yaml.Error Value} {kind text : String}
    (h : (match r with
      | .error e => e.kind == kind && e.message == text
      | .ok _ => false) = true) : ∃ e, r = .error e ∧ e.kind = kind ∧ e.message = text := by
  cases r with
  | error e => exact ⟨e, rfl, by simpa using h⟩
  | ok v => cases h

/-- A document that marks a word as a truth value, which it is not, makes the request fail. -/
theorem handshake_answered_no_truth :
    let document := "a: !!bool maybe".toList
    let place := [['w'], settingsFileName.toList]
    let s : Session := {
      directory := .ofString "/tmp", cache := {}
      disk := ⟨[([['w']], .directory), (place, .file (Text.Utf8.encode document))]⟩ }
    let c : ClientProfile := {
      rootUri := some "file:///w", folders := [], encodings := [], configuration := false
      folderEvents := false }
    s.status = .running ∧ c.Names (.ofString "/w") ∧ (∃ t, Settings.merged {} s.overrides = .ok t) ∧
      (s.receive (.ok (.call (.number 1) (.handshake c)))).trace =
        [.sent (.response (.number 1) (.error (.unforeseen "KeyError" "'maybe'")))] := by
  intro document place s c
  have huri : Uri.parse "file:///w".toList = .ok ⟨"file".toList, [], "/w".toList⟩ := rfl
  have hroot : c.Names (.ofString "/w") :=
    ⟨⟨_, huri⟩, ⟨"file:///w", _, "/w".toList, rfl, huri, by decide +kernel, by decide, rfl⟩⟩
  have hoverrides : ∃ t, Settings.merged {} s.overrides = .ok t := ⟨_, rfl⟩
  have hfile : s.disk.entryAt? (settingsFilePath (.ofString "/w")) =
      some (.file (Text.Utf8.encode document)) := by decide +kernel
  obtain ⟨e, herror, hkind, htext⟩ : ∃ e, Yaml.read (plainBreaks document) = .error e ∧
      e.kind = "KeyError" ∧ e.message = "'maybe'" := error_of_check (by decide +kernel)
  have hsurprise : Surprises s.disk (settingsFilePath (.ofString "/w")) e.kind e.message :=
    .document hfile (Text.Utf8.decode_encode document) herror (by rw [hkind]; decide)
  rw [hkind, htext] at hsurprise
  have h := handshake_answered s (.number 1) c (.ofString "/w") rfl hroot hoverrides
  exact ⟨rfl, hroot, hoverrides, (h.2.2 _ _ hsurprise).2⟩

end Session

end FormatServer
