import FormatServer.Proofs.Settings.Layer
import FormatServer.Session.Handshake

/-!
The settings of a workspace. Main statements: a workspace has settings exactly when it gives entries that all
fit (`workspaceSettings_of_fits`, `fits_of_workspaceSettings`), and reading them fails in a way that nobody
provided for exactly when its settings file holds a surprise (`workspaceSettings_of_surprises`,
`surprises_of_workspaceSettings`).
-/

namespace FormatServer

/-! ## Files -/

def Spells (content : List UInt8) (v : Value) : Prop :=
  ∃ text, Text.Utf8.decode content = .ok text ∧ Yaml.read (plainBreaks text) = .ok v

/-- What a settings file gives: the entries of its mapping, and none when there is no such file or it holds
nothing. -/
inductive GivesEntries (d : Disk) (path : Path) : List (Value × Value) → Prop where
  | noFile (hreached : d.locate path ≠ .error .nameTooLong)
      (hnone : ∀ content, d.entryAt? path ≠ some (.file content)) : GivesEntries d path []
  | nothing {content : List UInt8} (hfile : d.entryAt? path = some (.file content))
      (hnull : Spells content .null) : GivesEntries d path []
  | mapping {content : List UInt8} {entries : List (Value × Value)}
      (hfile : d.entryAt? path = some (.file content)) (hmap : Spells content (.map entries)) :
      GivesEntries d path entries

/-- Reading a settings file meets a failure that nobody provided for, of a kind and with a text: its document
has no value for a reason that is not the reader's own, or it gives a timeout past all floating-point
numbers. -/
inductive Surprises (d : Disk) (path : Path) : String → String → Prop where
  | document {content : List UInt8} {text : List Char} {e : Yaml.Error}
      (hfile : d.entryAt? path = some (.file content)) (htext : Text.Utf8.decode content = .ok text)
      (herror : Yaml.read (plainBreaks text) = .error e)
      (hkind : e.kind ≠ "YAMLError" ∧ e.kind ≠ "ValueError") : Surprises d path e.kind e.message
  | timeout {entries : List (Value × Value)} (hgives : GivesEntries d path entries)
      (hlarge : Settings.Oversized entries) :
      Surprises d path "OverflowError" "int too large to convert to float"

theorem Yaml.Error.isRefusal_eq_false_iff (e : Yaml.Error) :
    e.isRefusal = false ↔ e.kind ≠ "YAMLError" ∧ e.kind ≠ "ValueError" := by
  cases e <;> simp [isRefusal, kind]

/-- A file that can be reached and is none of the files with a content gives nothing. -/
private theorem readSettingsFile_noFile {path : Path} {entry : Option FileEntry}
    (h : ∀ content, entry ≠ some (.file content)) : readSettingsFile path entry = .ok (.map []) := by
  cases entry with
  | none => rfl
  | some found =>
    cases found with
    | file content => exact absurd rfl (h content)
    | directory => rfl

private theorem entryAt?_of_located {d : Disk} {path : Path} {place : Location}
    (h : d.locate path = .ok place) : d.entryAt? path = d.find? place := by
  rw [Disk.entryAt?, h]

/-- Reading the settings of a workspace is reading its settings file, unless the path is too long. -/
private theorem loadSettings_eq {d : Disk} {root : Path}
    (h : d.locate (settingsFilePath root) ≠ .error .nameTooLong) :
    loadSettings d root =
      readSettingsFile (settingsFilePath root) (d.entryAt? (settingsFilePath root)) := by
  rw [loadSettings]
  cases hplace : d.locate (settingsFilePath root) with
  | ok place => rw [entryAt?_of_located hplace]
  | error e =>
    rw [Disk.entryAt?, hplace]
    cases e with
    | nameTooLong => exact absurd hplace h
    | _ => rfl

private theorem not_nameTooLong {d : Disk} {path : Path} {entry : FileEntry}
    (h : d.entryAt? path = some entry) : d.locate path ≠ .error .nameTooLong := by
  intro hlong
  rw [Disk.entryAt?, hlong] at h
  cases h

private theorem readSettingsFile_file {path : Path} {content : List UInt8} {text : List Char}
    (h : Text.Utf8.decode content = .ok text) :
    readSettingsFile path (some (.file content)) =
      match Yaml.read (plainBreaks text) with
      | .error e => .error (.yaml e)
      | .ok .null => .ok (.map [])
      | .ok (.map entries) => .ok (.map entries)
      | .ok _ => .error (.notMapping path.toString) := by
  simp only [readSettingsFile, h, Except.mapError, bind, Except.bind]
  generalize Yaml.read (plainBreaks text) = answer
  cases answer with
  | error e => rfl
  | ok v => cases v <;> rfl

/-- **A settings file is read exactly when it gives entries.** -/
theorem loadSettings_ok_iff (d : Disk) (root : Path) (layer : Value) :
    loadSettings d root = .ok layer ↔
      ∃ entries, layer = .map entries ∧ GivesEntries d (settingsFilePath root) entries := by
  constructor
  · intro h
    by_cases hlong : d.locate (settingsFilePath root) = .error .nameTooLong
    · rw [loadSettings, hlong] at h
      cases h
    rw [loadSettings_eq hlong] at h
    by_cases hfile : ∃ content, d.entryAt? (settingsFilePath root) = some (.file content)
    · obtain ⟨content, hcontent⟩ := hfile
      rw [hcontent] at h
      cases htext : Text.Utf8.decode content with
      | error e =>
        rw [readSettingsFile, htext] at h
        cases h
      | ok text =>
        rw [readSettingsFile_file htext] at h
        split at h
        · cases h
        · next hnull =>
          exact ⟨[], (Except.ok.inj h).symm, .nothing hcontent ⟨text, htext, hnull⟩⟩
        · next entries hmap =>
          exact ⟨entries, (Except.ok.inj h).symm, .mapping hcontent ⟨text, htext, hmap⟩⟩
        · cases h
    · have hnone : ∀ content, d.entryAt? (settingsFilePath root) ≠ some (.file content) :=
        fun content hcontent => hfile ⟨content, hcontent⟩
      rw [readSettingsFile_noFile hnone] at h
      exact ⟨[], (Except.ok.inj h).symm, .noFile hlong hnone⟩
  · rintro ⟨entries, rfl, hgives⟩
    cases hgives with
    | noFile hreached hnone => rw [loadSettings_eq hreached, readSettingsFile_noFile hnone]
    | nothing hfile hnull =>
      obtain ⟨text, htext, hread⟩ := hnull
      rw [loadSettings_eq (not_nameTooLong hfile), hfile, readSettingsFile_file htext, hread]
    | mapping hfile hmap =>
      obtain ⟨text, htext, hread⟩ := hmap
      rw [loadSettings_eq (not_nameTooLong hfile), hfile, readSettingsFile_file htext, hread]

/-- A failure to read a settings file that nobody provided for comes from its document. -/
private theorem loadSettings_error {d : Disk} {root : Path} {e : SettingsFileError}
    (h : loadSettings d root = .error e) (hforeign : e.isRefusal = false) :
    ∃ content text cause, d.entryAt? (settingsFilePath root) = some (.file content) ∧
      Text.Utf8.decode content = .ok text ∧ Yaml.read (plainBreaks text) = .error cause ∧
      e = .yaml cause := by
  by_cases hlong : d.locate (settingsFilePath root) = .error .nameTooLong
  · rw [loadSettings, hlong] at h
    obtain rfl := Except.error.inj h
    cases hforeign
  rw [loadSettings_eq hlong] at h
  by_cases hfile : ∃ content, d.entryAt? (settingsFilePath root) = some (.file content)
  · obtain ⟨content, hcontent⟩ := hfile
    rw [hcontent] at h
    cases htext : Text.Utf8.decode content with
    | error cause =>
      rw [readSettingsFile, htext] at h
      obtain rfl := Except.error.inj h
      cases hforeign
    | ok text =>
      rw [readSettingsFile_file htext] at h
      split at h
      · next cause hread => exact ⟨content, text, cause, hcontent, htext, hread, (Except.error.inj h).symm⟩
      · cases h
      · cases h
      · obtain rfl := Except.error.inj h
        cases hforeign
  · rw [readSettingsFile_noFile fun content hcontent => hfile ⟨content, hcontent⟩] at h
    cases h

/-! ## Workspaces -/

variable {d : Disk} {root : Path} {overrides : Value}

private theorem workspaceSettings_of_gives {entries : List (Value × Value)}
    (h : GivesEntries d (settingsFilePath root) entries) :
    workspaceSettings d root overrides =
      match Settings.merged {} (.map entries) with
      | .error e => .error (.layer e)
      | .ok file =>
        match file.merged overrides with
        | .error e => .error (.layer e)
        | .ok settings => .ok (settings, !entries.isEmpty) := by
  have hload := (loadSettings_ok_iff d root _).mpr ⟨entries, rfl, h⟩
  simp only [workspaceSettings, hload, Except.mapError, bind, Except.bind, Settings.mergedAll]
  cases Settings.merged {} (.map entries) with
  | error e => rfl
  | ok file =>
    dsimp only
    cases file.merged overrides <;> rfl

/-- **A workspace whose entries all fit has settings:** the defaults with the entries and then the overrides
on top. -/
theorem workspaceSettings_of_fits {entries : List (Value × Value)}
    (hvalid : ∃ t, Settings.merged {} overrides = .ok t)
    (hgives : GivesEntries d (settingsFilePath root) entries)
    (hfits : ∀ entry ∈ entries, Settings.Fits entry) :
    ∃ file settings, Settings.merged {} (.map entries) = .ok file ∧
      file.merged overrides = .ok settings ∧
      workspaceSettings d root overrides = .ok (settings, !entries.isEmpty) := by
  obtain ⟨cs, hchanges⟩ := (Settings.changes_eq_ok_iff entries).mpr hfits
  have hfile : Settings.merged {} (.map entries) = .ok (cs.foldl Settings.Change.apply {}) := by
    rw [Settings.merged_map, hchanges]
    rfl
  obtain ⟨t, ht⟩ := hvalid
  obtain ⟨settings, hsettings⟩ := Settings.merged_ok ht (cs.foldl Settings.Change.apply {})
  refine ⟨_, settings, hfile, hsettings, ?_⟩
  rw [workspaceSettings_of_gives hgives, hfile]
  dsimp only
  rw [hsettings]

/-- Only entries that all fit give settings. -/
theorem fits_of_workspaceSettings {result : Settings × Bool}
    (h : workspaceSettings d root overrides = .ok result) :
    ∃ entries, GivesEntries d (settingsFilePath root) entries ∧
      ∀ entry ∈ entries, Settings.Fits entry := by
  cases hload : loadSettings d root with
  | error e =>
    rw [workspaceSettings, hload] at h
    cases h
  | ok layer =>
    obtain ⟨entries, rfl, hgives⟩ := (loadSettings_ok_iff d root layer).mp hload
    refine ⟨entries, hgives, (Settings.changes_eq_ok_iff entries).mp ?_⟩
    rw [workspaceSettings_of_gives hgives, Settings.merged_map] at h
    cases hchanges : Settings.changes entries with
    | error e =>
      rw [hchanges] at h
      cases h
    | ok cs => exact ⟨cs, rfl⟩

/-- **A failure that nobody provided for is one of those that a settings file can surprise with.** -/
theorem surprises_of_workspaceSettings {e : WorkspaceError}
    (hvalid : ∃ t, Settings.merged {} overrides = .ok t)
    (h : workspaceSettings d root overrides = .error e) (hforeign : e.isRefusal = false) :
    Surprises d (settingsFilePath root) e.kind e.message := by
  cases hload : loadSettings d root with
  | error cause =>
    rw [workspaceSettings, hload] at h
    obtain rfl := Except.error.inj h
    obtain ⟨content, text, fault, hfile, htext, hread, rfl⟩ := loadSettings_error hload hforeign
    exact .document hfile htext hread ((Yaml.Error.isRefusal_eq_false_iff fault).mp hforeign)
  | ok layer =>
    obtain ⟨entries, rfl, hgives⟩ := (loadSettings_ok_iff d root layer).mp hload
    cases hchanges : Settings.changes entries with
    | error cause =>
      rw [workspaceSettings_of_gives hgives, Settings.merged_map, hchanges] at h
      obtain rfl := Except.error.inj h
      obtain ⟨hlarge, rfl⟩ := (Settings.isRefusal_of_changes hchanges).mp hforeign
      exact .timeout hgives hlarge
    | ok cs =>
      have hfits := (Settings.changes_eq_ok_iff entries).mp ⟨cs, hchanges⟩
      obtain ⟨file, settings, _, _, hok⟩ := workspaceSettings_of_fits hvalid hgives hfits
      rw [hok] at h
      cases h

/-- **A surprise is what reading the settings of the workspace fails with.** -/
theorem workspaceSettings_of_surprises (overrides : Value) {kind text : String}
    (h : Surprises d (settingsFilePath root) kind text) :
    ∃ e, workspaceSettings d root overrides = .error e ∧ e.isRefusal = false ∧ e.kind = kind ∧
      e.message = text := by
  cases h with
  | @document content chars e hfile htext herror hkind =>
    have hload : loadSettings d root = .error (.yaml e) := by
      rw [loadSettings_eq (not_nameTooLong hfile), hfile, readSettingsFile_file htext, herror]
    refine ⟨.file (.yaml e), ?_, (Yaml.Error.isRefusal_eq_false_iff e).mpr hkind, rfl, rfl⟩
    rw [workspaceSettings, hload]
    rfl
  | @timeout entries hgives hlarge =>
    refine ⟨.layer .tooLarge, ?_, rfl, rfl, rfl⟩
    rw [workspaceSettings_of_gives hgives, Settings.merged_map,
      Settings.changes_of_oversized hlarge]
    rfl

end FormatServer
