import FormatServer.Proofs.Settings.Answer

/-!
Valid settings: an extension starts with its dot, and a timeout is a positive number. Layers keep settings valid
(`valid_merged`), and valid settings are in normal form: written as a layer they give themselves, whatever they are
put on (`merged_of_writes`). A layer that is put on twice counts once (`merged_merged`).
-/

namespace FormatServer

namespace Settings

structure Valid (s : Settings) : Prop where
  extension : s.defaultExtension.toList.head? = some '.'
  finite : s.timeout.isFinite = true
  positive : s.timeout.isPositive = true

variable {s t : Settings} {field : Field} {entries : List (Value × Value)} {layer : Value}

theorem valid_default : Valid {} := ⟨by decide, rfl, by decide +kernel⟩

/-! ## Contents of fields -/

def Change.Valid : Change → Prop
  | command _ | tempPrefix _ => True
  | defaultExtension e => e.toList.head? = some '.'
  | timeout x => x.isFinite = true ∧ x.isPositive = true

theorem valid_iff_content : s.Valid ↔ ∀ field : Field, (field.content s).Valid := by
  constructor
  · intro h field
    cases field with
    | command | tempPrefix => trivial
    | defaultExtension => exact h.extension
    | timeout => exact ⟨h.finite, h.positive⟩
  · intro h
    obtain ⟨hfinite, hpositive⟩ := h .timeout
    exact ⟨h .defaultExtension, hfinite, hpositive⟩

/-- Settings that hold the same in all fields are the same. -/
theorem eq_of_content (h : ∀ field : Field, field.content s = field.content t) : s = t := by
  obtain ⟨command, tempPrefix, extension, timeout⟩ := s
  cases Change.command.inj (h .command)
  cases Change.tempPrefix.inj (h .tempPrefix)
  cases Change.defaultExtension.inj (h .defaultExtension)
  cases Change.timeout.inj (h .timeout)
  rfl

/-- **A normal form is valid.** -/
theorem Field.Normal.valid {value : Value} {c : Change} (h : field.Normal value c) : c.Valid := by
  cases h with
  | line | words | tempPrefix => trivial
  | dotted hdot => exact hdot
  | @undotted s _ =>
    have hlist : ("." ++ s).toList = '.' :: s.toList := by simp
    rw [Change.Valid, hlist]
    rfl
  | whole hpos hx => exact Binary64.isPositive_of_ofInt? hx hpos
  | fraction hfinite hpos => exact ⟨hfinite, hpos⟩

/-! ## Layers -/

theorem layered_of_merged (h : s.merged layer = .ok t) : s.layered [layer] = t := by
  simp [layered, h, Except.toOption]

/-- What a layer that is accepted makes of a field. -/
theorem settles_of_merged (h : s.merged (.map entries) = .ok t) (field : Field) :
    Settles s [entries] field (field.content t) := by
  rw [← content_layered_iff, List.map_singleton, layered_of_merged h]

/-- A layer is a mapping, or changes nothing. -/
theorem map_or_eq_of_merged (h : s.merged layer = .ok t) :
    (∃ entries, layer = .map entries) ∨ layer.isFalsy = true ∧ t = s := by
  unfold merged at h
  split at h
  · next hfalsy => exact .inr ⟨hfalsy, (Except.ok.inj h).symm⟩
  · split at h
    · exact .inl ⟨_, rfl⟩
    · cases h

/-- **Settings with a layer on top are valid.** -/
theorem valid_merged (hs : s.Valid) (h : s.merged layer = .ok t) : t.Valid := by
  rcases map_or_eq_of_merged h with ⟨entries, rfl⟩ | ⟨-, rfl⟩
  · rw [valid_iff_content]
    intro field
    have hsettles := settles_of_merged h field
    generalize field.content t = c at hsettles
    cases hsettles with
    | given _ _ _ _ _ hnormal => exact hnormal.valid
    | unchanged => exact valid_iff_content.mp hs field
  · exact hs

theorem valid_layered (hs : s.Valid) (layers : List Value) : (s.layered layers).Valid := by
  induction layers generalizing s with
  | nil => exact hs
  | cons layer rest ih =>
    rw [layered, List.foldl_cons]
    cases hmerged : s.merged layer with
    | ok t => exact ih (valid_merged hs hmerged)
    | error e => exact ih hs

theorem valid_mergedAll {layers : List Value} (hs : s.Valid) (h : s.mergedAll layers = .ok t) : t.Valid := by
  induction layers generalizing s with
  | nil => exact Except.ok.inj h ▸ hs
  | cons layer rest ih =>
    rw [mergedAll] at h
    cases hmerged : s.merged layer with
    | ok u =>
      rw [hmerged] at h
      exact ih (valid_merged hs hmerged) h
    | error e =>
      rw [hmerged] at h
      cases h

/-- **A layer that is put on twice counts once.** -/
theorem merged_merged (h : s.merged layer = .ok t) : t.merged layer = .ok t := by
  rcases map_or_eq_of_merged h with ⟨entries, rfl⟩ | ⟨hfalsy, rfl⟩
  · obtain ⟨u, hu⟩ := merged_ok h t
    rw [hu]
    refine congrArg _ (eq_of_content fun field => ?_)
    have hagain : Settles t [entries] field (field.content t) := by
      have hsettles := settles_of_merged h field
      generalize hc : field.content t = c at hsettles
      cases hsettles with
      | given hlayers haccepted hgives hafter habove hnormal =>
        exact .given hlayers haccepted hgives hafter habove hnormal
      | unchanged hnone => exact hc ▸ .unchanged hnone
    rw [← layered_of_merged hu]
    exact (content_layered_iff t [entries] field _).mpr hagain
  · exact h

/-! ## Settings written as a layer -/

def Field.value (s : Settings) : Field → Value
  | command => .list (s.command.map .text)
  | tempPrefix => .text s.tempPrefix
  | defaultExtension => .text s.defaultExtension
  | timeout => .float s.timeout

/-- A layer that writes settings down: every entry is a field with what it holds, by any of its names, and no field
is missing. -/
structure Writes (s : Settings) (entries : List (Value × Value)) : Prop where
  sound : ∀ entry ∈ entries, ∃ key field, Field.ofName? key = some field ∧
    entry = (.text key, field.value s)
  complete : ∀ field : Field, ∃ key, Field.ofName? key = some field ∧ (.text key, field.value s) ∈ entries

def written (names : Field → String) (s : Settings) : List (Value × Value) :=
  [Field.command, .tempPrefix, .defaultExtension, .timeout].map fun field =>
    (.text (names field), field.value s)

theorem writes_written {names : Field → String} (h : ∀ field, Field.ofName? (names field) = some field)
    (s : Settings) : Writes s (s.written names) := by
  refine ⟨fun entry hentry => ?_, fun field => ⟨names field, h field, ?_⟩⟩
  · obtain ⟨field, -, rfl⟩ := List.mem_map.mp hentry
    exact ⟨names field, field, h field, rfl⟩
  · refine List.mem_map.mpr ⟨field, ?_, rfl⟩
    cases field <;> simp

theorem counts_value (s : Settings) {key : String} (h : Field.ofName? key = some field) :
    Counts (.text key, field.value s) key field :=
  ⟨rfl, h, by cases field <;> simp [Field.value]⟩

/-- **What valid settings hold is in normal form.** -/
theorem normal_value (h : s.Valid) (field : Field) : field.Normal (field.value s) (field.content s) := by
  cases field with
  | command => exact .words s.command
  | tempPrefix => exact .tempPrefix s.tempPrefix
  | defaultExtension => exact .dotted h.extension
  | timeout => exact .fraction h.finite h.positive

/-- **Valid settings that are written down give themselves**, whatever they are put on. -/
theorem merged_of_writes (h : s.Valid) (hwrites : Writes s entries) (base : Settings) :
    base.merged (.map entries) = .ok s := by
  have haccepted : Accepted entries := by
    intro entry hentry key field hcounts
    obtain ⟨key', field', hname, rfl⟩ := hwrites.sound entry hentry
    obtain ⟨rfl, rfl⟩ := hcounts.unique (counts_value s hname)
    exact (Field.read_ok_iff field key _).mp ⟨_, (Field.read_eq_ok_iff ..).mpr (normal_value h field)⟩
  obtain ⟨t, ht⟩ := (merged_eq_ok_iff base entries).mpr haccepted
  rw [ht]
  refine congrArg _ (eq_of_content fun field => ?_)
  obtain ⟨key, hname, hmem⟩ := hwrites.complete field
  obtain ⟨before, entry, after, hsplit, ⟨key', hgives⟩, hafter⟩ :=
    exists_last_of_mem (P := (Gives · field)) ⟨_, hmem, key, counts_value s hname⟩
  obtain ⟨key'', field', hname', rfl⟩ := hwrites.sound entry (hsplit ▸ List.mem_append_right _ List.mem_cons_self)
  obtain ⟨rfl, rfl⟩ := hgives.unique (counts_value s hname')
  have hlayers : [entries] = [] ++ (before ++ (.text key', field.value s) :: after) :: [] :=
    congrArg (· :: []) hsplit
  have hsettles : Settles base [entries] field (field.content s) :=
    .given hlayers (hsplit ▸ haccepted) ⟨key', hgives⟩ hafter (by simp) (normal_value h field)
  rw [← layered_of_merged ht]
  exact (content_layered_iff base [entries] field _).mpr hsettles

end Settings

end FormatServer
