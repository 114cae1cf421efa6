import FormatServer.Proofs.Path
import FormatServer.Proofs.Session.Alone
import FormatServer.Proofs.Settings.Valid

/-!
Where the temporary file of a run stands. Main statement (`temporary_file_placed`): directly in the directory for
temporary files exactly when neither the start of names nor the extension holds a slash. The extension of a document
never does, but settings may.
-/

namespace FormatServer

open FormatServer.Path

/-! ## What a run touches -/

section

variable {c : RunContext} {r : FormatRequest} {d : Disk} {p : Path}

theorem touched_afterRun (process : Process) (d : Disk) (steps : List ScriptStep) :
    Disk.Touched process.path d (afterRun process d steps).1 := by
  induction steps generalizing process d with
  | nil => exact .refl process.path d
  | cons step rest ih =>
    have hstep := Process.touched_perform process d step
    have hrest := ih (process.perform d step).process (process.perform d step).disk
    rw [Process.path_perform] at hrest
    cases step with
    | sleep | hang => exact .refl process.path d
    | output | change | exit => exact hstep.trans hrest

theorem touched_expire (run : Run) (d : Disk) : Disk.Touched run.process.path d (run.expire d).disk := by
  unfold Run.expire
  split
  · exact touched_cleanUp d run.process.path
  · exact touched_cleanUp d run.process.path

theorem touched_expireBefore (run : Run) (d : Disk) (steps : List ScriptStep) :
    Disk.Touched run.process.path d (run.expireBefore d steps).disk := by
  unfold Run.expireBefore
  dsimp only
  split
  · exact touched_expire run d
  · exact (touched_expire run d).trans (touched_afterRun run.process _ steps)

/-- **A run that was started touches nothing but its file.** -/
theorem touched_play (run : Run) (d : Disk) (left : Nat) (steps : List ScriptStep) :
    Disk.Touched run.process.path d (play run d left steps).disk := by
  induction steps generalizing run d left with
  | nil => exact touched_cleanUp d run.process.path
  | cons step rest ih =>
    have hgoes : step ≠ .hang → (∀ ticks, step ≠ .sleep ticks) →
        Disk.Touched run.process.path d (play run d left (step :: rest)).disk := by
      intro hhang hsleep
      have hstep := Process.touched_perform run.process d step
      rw [← Process.path_perform run.process d step] at hstep ⊢
      rw [play]
      case x_1 => exact hhang
      case x_2 => exact hsleep
      generalize run.process.perform d step = done at hstep ⊢
      dsimp only
      split
      · exact hstep.trans ((touched_cleanUp done.disk _).trans (touched_afterRun done.process _ rest))
      · exact hstep.trans (ih { run with process := done.process } done.disk left)
    cases step with
    | hang => exact touched_expire run d
    | sleep ticks =>
      rw [play]
      split
      · exact touched_expire run d
      · exact ih run d (left - ticks)
    | output | change | exit => exact hgoes (by simp) (by simp)

/-- **A run touches nothing but its file**, whether it is started or not. -/
theorem touched_format (hpath : temporaryPath c.directory r.settings c.token r.uri = .ok p) :
    Disk.Touched p d (format c r d).disk := by
  cases hresult : (start c r d).result with
  | error o =>
    have hformat : (format c r d).disk = (start c r d).disk := by simp only [format, hresult]
    rw [hformat]
    cases start_error hresult with
    | unnamed _ hdisk | unwritten _ _ hdisk =>
      rw [hdisk]
      exact .refl p d
    | unspawned hpath' htouched =>
      obtain rfl := Except.ok.inj (hpath.symm.trans hpath')
      exact htouched
  | ok run =>
    have hstarts := start_ok hresult
    obtain rfl := Except.ok.inj (hpath.symm.trans hstarts.path)
    refine hstarts.touched.trans ?_
    simp only [format, hresult]
    split
    · exact touched_expireBefore run _ _
    · exact touched_play run _ _ _

end

/-! ## The place of a file in a directory -/

namespace Disk

variable {d : Disk}

private theorem follow_concat {start l : Location} {names : List (List Char)} {name : List Char}
    (h : d.follow start (names ++ [name]) = .ok l) (hname : name ≠ ['.', '.']) :
    ∃ base, d.follow start names = .ok base ∧ l = base ++ [name] := by
  induction names generalizing start with
  | nil =>
    rw [List.nil_append, follow] at h
    refine ⟨start, rfl, ?_⟩
    split at h
    · cases h
    · cases h
    · rw [if_neg hname] at h
      split at h
      · cases h
      · exact (Except.ok.inj h).symm
  | cons first rest ih =>
    rw [List.cons_append, follow] at h
    rw [follow]
    split at h
    · cases h
    · cases h
    · split at h
      · next hup =>
        rw [if_pos hup]
        exact ih h
      · next hup =>
        rw [if_neg hup]
        split at h
        · cases h
        · next hlength =>
          rw [if_neg hlength]
          exact ih h

private theorem length_encode_le_append (a b : List Char) :
    (Text.Utf8.encode a).length ≤ (Text.Utf8.encode (a ++ b)).length := by
  rw [Text.Utf8.encode, Text.Utf8.encode, List.flatMap_append, List.length_append]
  exact Nat.le_add_right _ _

private theorem length_encode_pos {name : List Char} (h : name ≠ []) : 0 < (Text.Utf8.encode name).length := by
  refine List.length_pos_iff.mpr fun hempty => h ?_
  have hdecode := Text.Utf8.decode_encode name
  rw [hempty] at hdecode
  exact Except.ok.inj (hdecode.symm.trans (Text.Utf8.decode_encode []))

/-- A directory has no longer path than what stands in it. -/
private theorem length_encode_chars_le (directory : Path) {name : List Char} (hname : name ≠ []) :
    (Text.Utf8.encode directory.chars).length ≤
      (Text.Utf8.encode (Path.chars ⟨directory.root, directory.parts ++ [name]⟩)).length := by
  obtain ⟨root, parts⟩ := directory
  rw [chars_of_parts root (List.append_ne_nil_of_right_ne_nil parts (List.cons_ne_nil name [])), joinParts_concat]
  by_cases hparts : parts = []
  · subst hparts
    cases root with
    | relative => exact length_encode_pos hname
    | slash | doubleSlash => exact length_encode_le_append _ name
  · rw [chars_of_parts root hparts, ← List.append_assoc]
    exact length_encode_le_append _ _

/-- **What stands directly in a directory stands in its place**, under its own name. -/
theorem locate_inside {directory : Path} {name : List Char} {l : Location} (hname : name ≠ [])
    (hup : name ≠ ['.', '.']) (h : d.locate ⟨directory.root, directory.parts ++ [name]⟩ = .ok l) :
    ∃ base, d.locate directory = .ok base ∧ l = base ++ [name] := by
  rw [locate] at h
  split at h
  · cases h
  · next hlength =>
    have hshorter := length_encode_chars_le directory hname
    rw [locate, if_neg (by omega)]
    exact follow_concat h hup

end Disk

/-! ## The name of a temporary file -/

/-- The extension of a temporary file: the document's own, from the last point of its name on, if there is something
before and after this point, and else the default one. -/
inductive ExtensionOf (s : Settings) (name : List Char) : List Char → Prop where
  | own {stem rest : List Char} (hname : name = stem ++ '.' :: rest) (hstem : stem ≠ []) (hrest : rest ≠ [])
      (hlast : '.' ∉ rest) : ExtensionOf s name ('.' :: rest)
  | default (h : ∀ stem rest, name = stem ++ '.' :: rest → '.' ∉ rest → stem = [] ∨ rest = []) :
      ExtensionOf s name s.defaultExtension.toList

theorem extensionOf_suffixOf (s : Settings) (name : List Char) :
    ExtensionOf s name (if (suffixOf name).isEmpty then s.defaultExtension.toList else suffixOf name) := by
  by_cases hsuffix : suffixOf name = []
  · rw [if_pos (List.isEmpty_iff.mpr hsuffix)]
    refine .default fun stem rest hsplit hlast => ?_
    rw [hsplit, suffixOf_append hlast] at hsuffix
    by_contra hboth
    rw [if_neg hboth] at hsuffix
    cases hsuffix
  · rw [if_neg (by simpa using hsuffix)]
    have hpoint : '.' ∈ name := by
      by_contra hnone
      exact hsuffix (suffixOf_of_not_mem hnone)
    obtain ⟨stem, rest, rfl, hlast⟩ := exists_last_point hpoint
    rw [suffixOf_append hlast] at hsuffix ⊢
    split at hsuffix
    · exact absurd rfl hsuffix
    · next hboth =>
      obtain ⟨hstem, hrest⟩ := not_or.mp hboth
      rw [if_neg hboth]
      exact .own rfl hstem hrest hlast

variable {s : Settings} {name extension : List Char}

/-- An extension starts with its point. -/
theorem ExtensionOf.head? (h : ExtensionOf s name extension) (hs : s.Valid) : extension.head? = some '.' := by
  cases h with
  | own => rfl
  | default => exact hs.extension

/-- Only the default extension can hold a slash. -/
theorem ExtensionOf.eq_default (h : ExtensionOf s name extension) (hname : '/' ∉ name) (hslash : '/' ∈ extension) :
    extension = s.defaultExtension.toList := by
  cases h with
  | own hsplit =>
    rw [hsplit] at hname
    exact absurd (List.mem_append_right _ hslash) hname
  | default => rfl

/-- The name of a temporary file holds no slash exactly when what settings and the document put into it holds none. -/
theorem slash_not_mem_temporaryName {token : List Char} (start : List Char) (htoken : '/' ∉ token) :
    '/' ∉ start ++ '-' :: token ++ extension ↔ '/' ∉ start ∧ '/' ∉ extension := by
  simp [htoken]

/-- The name of a temporary file is a component, and not the one that leads back. -/
theorem isPart_temporaryName (start token extension : List Char) :
    let name := start ++ '-' :: token ++ extension
    isPart name = true ∧ name ≠ [] ∧ name ≠ ['.', '.'] ∧ (Path.ofChars name).parts ≠ [] := by
  intro name
  have hdash : '-' ∈ name := by simp [name]
  have hne : ∀ other, '-' ∉ other → name ≠ other := fun other hother h => hother (h ▸ hdash)
  have hnil := hne [] (by decide)
  refine ⟨by simp [isPart, hnil, hne ['.'] (by decide)], hnil, hne ['.', '.'] (by decide), ?_⟩
  have hslash : '/' ∉ ['-'] := by decide
  obtain ⟨piece, hmem, hpiece⟩ := Text.exists_mem_splitOn hslash start (token ++ extension)
  have hinside : '-' ∈ piece := hpiece.subset List.mem_cons_self
  refine List.ne_nil_of_mem (a := piece) (List.mem_filter.mpr ⟨by simpa [name] using hmem, ?_⟩)
  have hpiece : ∀ other, '-' ∉ other → piece ≠ other := fun other hother h => hother (h ▸ hinside)
  simp [isPart, hpiece [] (by decide), hpiece ['.'] (by decide)]

/-! ## The law of temporary files -/

section

variable {c : RunContext} {r : FormatRequest}

/-- **A run whose file has a name of one component changes nothing outside its directory.** -/
theorem changed_inside (d : Disk)
    (hpath : temporaryPath c.directory r.settings c.token r.uri = .ok (c.directory.append (.ofChars name)))
    (hslash : '/' ∉ name) (hpart : isPart name = true) (hnil : name ≠ []) (hup : name ≠ ['.', '.']) {l : Location}
    (hchanged : (format c r d).disk.find? l ≠ d.find? l) :
    ∃ base, d.locate c.directory = .ok base ∧ l = base ++ [name] := by
  have hlocate : d.locate (c.directory.append (.ofChars name)) = .ok l := by
    by_contra hother
    exact hchanged ((touched_format hpath).same l hother)
  rw [ofChars_of_not_mem hslash hpart] at hlocate
  exact Disk.locate_inside hnil hup hlocate

/-- **A temporary file stands directly in the directory for temporary files, unless settings hold a slash.** Whatever
layers are put on the defaults: the path is made from a name, which is the start of names, a dash, the token and an
extension that starts with its point, the document's own or the default one. It leads directly into the directory,
to this name, exactly when neither the start of names nor the extension holds a slash, which a document's own never
does. Then a run changes nothing on the disk but what stands under this name in the directory's place. -/
theorem temporary_file_placed (c : RunContext) (r : FormatRequest) (d : Disk) (layers : List Value) (u : Uri)
    (hsettings : r.settings = Settings.layered {} layers) (htoken : '/' ∉ c.token.toList)
    (hparse : Uri.parse r.uri.toList = .ok u) :
    ∃ p extension, temporaryPath c.directory r.settings c.token r.uri = .ok p ∧
      ExtensionOf r.settings (Path.ofChars u.decodedPath).name extension ∧ extension.head? = some '.' ∧
      ('/' ∈ extension → extension = r.settings.defaultExtension.toList) ∧
      let name := r.settings.tempPrefix.toList ++ '-' :: c.token.toList ++ extension
      (p.parent = c.directory ∧ p.name = name ↔ '/' ∉ r.settings.tempPrefix.toList ∧ '/' ∉ extension) ∧
      ('/' ∉ name → ∀ l, (format c r d).disk.find? l ≠ d.find? l →
        ∃ base, d.locate c.directory = .ok base ∧ l = base ++ [name]) := by
  have hvalid : r.settings.Valid := hsettings ▸ Settings.valid_layered Settings.valid_default layers
  have hextension := extensionOf_suffixOf r.settings (Path.ofChars u.decodedPath).name
  generalize hx : (if (suffixOf (Path.ofChars u.decodedPath).name).isEmpty then r.settings.defaultExtension.toList
    else suffixOf (Path.ofChars u.decodedPath).name) = extension at hextension
  have hname : temporaryName r.settings c.token u =
      r.settings.tempPrefix.toList ++ '-' :: c.token.toList ++ extension := by
    rw [← hx]
    rfl
  have hpath : temporaryPath c.directory r.settings c.token r.uri =
      .ok (c.directory.append (.ofChars (temporaryName r.settings c.token u))) := by
    rw [temporaryPath, hparse]
    rfl
  rw [hname] at hpath
  obtain ⟨hpart, hnil, hup, hparts⟩ := isPart_temporaryName r.settings.tempPrefix.toList c.token.toList extension
  refine ⟨_, extension, hpath, hextension, hextension.head? hvalid,
    hextension.eq_default (slash_not_mem_name u.decodedPath), ?_,
    fun hslash l hchanged => changed_inside d hpath hslash hpart hnil hup hchanged⟩
  rw [directly_inside_iff c.directory hpart hparts, slash_not_mem_temporaryName _ htoken]

/-- A start of names that is a path of its own leads out of the directory for temporary files. -/
theorem temporary_file_placed_elsewhere :
    let settings := Settings.layered {} [.map [(.text "tempPrefix", .text "/etc/fmt")]]
    let directory := Path.ofString "/tmp"
    let token := tokenOf 0
    let p := Path.ofString "/etc/fmt-00000000-0000-4000-8000-000000000000.src"
    temporaryPath directory settings token "file:///project/a.src" = .ok p ∧ p.parent = .ofString "/etc" ∧
      ∃ extension, ¬ (p.parent = directory ∧
        p.name = settings.tempPrefix.toList ++ '-' :: token.toList ++ extension) := by
  intro settings directory token p
  let c : RunContext := ⟨{}, .utf16, directory, token, 0, {}⟩
  let r : FormatRequest := { uri := "file:///project/a.src", settings }
  have hparse : Uri.parse "file:///project/a.src".toList = .ok ⟨"file".toList, [], "/project/a.src".toList⟩ := rfl
  obtain ⟨p', extension, hpath, -, -, -, hplaced, -⟩ :=
    temporary_file_placed c r {} _ _ rfl (slash_not_mem_tokenOf 0) hparse
  have hleads : temporaryPath directory settings token "file:///project/a.src" = .ok p := by decide +kernel
  obtain rfl : p = p' := Except.ok.inj (hleads.symm.trans hpath)
  have hprefix : '/' ∈ settings.tempPrefix.toList := by decide +kernel
  exact ⟨hleads, by decide +kernel, extension, fun hinside => (hplaced.mp hinside).1 hprefix⟩

end

end FormatServer
