import FormatServer.Proofs.Number.Integer
import FormatServer.Settings.Layer

/-!
Which layers of settings are accepted. A layer is accepted exactly when every entry fits
(`changes_eq_ok_iff`), and else the first entry that does not fit says why it is refused
(`changes_eq_error_iff`). One kind of entry is not even refused: a timeout that is an integer past all
floating-point numbers (`changes_eq_tooLarge_iff`).
-/

namespace FormatServer

theorem Value.texts?_eq_some_iff (items : List Value) (words : List String) :
    Value.texts? items = some words ↔ items = words.map .text := by
  induction items generalizing words with
  | nil => cases words <;> simp [Value.texts?]
  | cons item rest ih =>
    cases item with
    | text s =>
      rw [Value.texts?, Option.map_eq_some_iff]
      constructor
      · rintro ⟨more, hmore, rfl⟩
        rw [(ih more).mp hmore, List.map_cons]
      · intro h
        cases words with
        | nil => cases h
        | cons w more =>
          obtain ⟨hw, hmore⟩ := List.cons.inj h
          exact ⟨more, (ih more).mpr hmore, by rw [Value.text.inj hw]⟩
    | _ => cases words <;> simp [Value.texts?]

namespace Settings

/-! ## Single values -/

inductive Field.Takes : Field → Value → Prop where
  | line {line : String} {words : List String} (hwords : Command.words line = .ok words) :
      Takes .command (.text line)
  | words (words : List String) : Takes .command (.list (words.map .text))
  | tempPrefix (s : String) : Takes .tempPrefix (.text s)
  | defaultExtension (s : String) : Takes .defaultExtension (.text s)
  | whole {i : Int} (hpos : 0 < i) (hsize : i.natAbs < Binary64.integerLimit) :
      Takes .timeout (.int i)
  | fraction {x : Binary64} (hfinite : x.isFinite = true) (hpos : x.isPositive = true) :
      Takes .timeout (.float x)

def Field.IsOversized (field : Field) (value : Value) : Prop :=
  field = .timeout ∧ ∃ i : Int, value = .int i ∧ Binary64.integerLimit ≤ i.natAbs

private theorem readCommand_ok_iff (value : Value) :
    (∃ words, readCommand value = .ok words) ↔ Field.Takes .command value := by
  constructor
  · rintro ⟨words, h⟩
    cases value with
    | text line =>
      cases hwords : Command.words line with
      | error e => simp [readCommand, hwords, Except.mapError] at h
      | ok _ => exact .line hwords
    | list items =>
      cases htexts : Value.texts? items with
      | none => simp [readCommand, htexts] at h
      | some found =>
        rw [(Value.texts?_eq_some_iff items found).mp htexts]
        exact .words found
    | _ => cases h
  · intro h
    cases h with
    | line hwords => exact ⟨_, by rw [readCommand, hwords, Except.mapError]⟩
    | words found =>
      exact ⟨found, by rw [readCommand, (Value.texts?_eq_some_iff _ found).mpr rfl]⟩

private theorem readText_ok_iff (key : String) (value : Value) :
    (∃ s, readText key value = .ok s) ↔ ∃ s, value = .text s := by
  cases value <;> simp [readText]

private theorem readTimeout_ok_iff (value : Value) :
    (∃ x, readTimeout value = .ok x) ↔ Field.Takes .timeout value := by
  constructor
  · rintro ⟨x, h⟩
    cases value with
    | int i =>
      have hsize : i.natAbs < Binary64.integerLimit := by
        by_contra hlarge
        rw [readTimeout, (Binary64.ofInt?_eq_none_iff i).mpr (Nat.not_lt.mp hlarge)] at h
        cases h
      cases hi : Binary64.ofInt? i with
      | none => exact absurd ((Binary64.ofInt?_eq_none_iff i).mp hi) (Nat.not_le.mpr hsize)
      | some y =>
        rw [readTimeout, hi, wholeTimeout] at h
        split at h
        · next hpos => exact .whole hpos hsize
        · cases h
    | float y =>
      rw [readTimeout] at h
      split at h
      · next hy =>
        obtain ⟨hfinite, hpos⟩ := Bool.and_eq_true_iff.mp hy
        exact .fraction hfinite hpos
      · cases h
    | _ => cases h
  · intro h
    cases h with
    | @whole i hpos hsize =>
      cases hi : Binary64.ofInt? i with
      | none => exact absurd ((Binary64.ofInt?_eq_none_iff i).mp hi) (Nat.not_le.mpr hsize)
      | some x => exact ⟨x, by rw [readTimeout, hi, wholeTimeout, if_pos hpos]⟩
    | @fraction x hfinite hpos => exact ⟨x, by rw [readTimeout, hfinite, hpos]; rfl⟩

/-- **A value is read exactly when its field takes it.** -/
theorem Field.read_ok_iff (field : Field) (key : String) (value : Value) :
    (∃ c, field.read key value = .ok c) ↔ field.Takes value := by
  have hmap : ∀ {α : Type} (r : Except Error α) (f : α → Change),
      (∃ c, r.map f = .ok c) ↔ ∃ a, r = .ok a := by
    intro α r f
    cases r <;> simp [Except.map]
  have htext : ∀ {field : Field} (_ : ∀ s, field.Takes (.text s))
      (_ : field.Takes value → ∃ s, value = .text s), (∃ s, value = .text s) ↔ field.Takes value := by
    intro field htake hback
    exact ⟨by rintro ⟨s, rfl⟩; exact htake s, hback⟩
  cases field with
  | command => rw [Field.read, hmap, readCommand_ok_iff]
  | tempPrefix =>
    rw [Field.read, hmap, readText_ok_iff]
    exact htext .tempPrefix (by rintro ⟨s⟩; exact ⟨_, rfl⟩)
  | defaultExtension =>
    rw [Field.read, hmap, readText_ok_iff]
    exact htext .defaultExtension (by rintro ⟨s⟩; exact ⟨_, rfl⟩)
  | timeout => rw [Field.read, hmap, readTimeout_ok_iff]

private theorem readTimeout_error {value : Value} {e : Error} (h : readTimeout value = .error e) :
    e.isRefusal = false ↔ Field.IsOversized .timeout value ∧ e = .tooLarge := by
  constructor
  · intro hforeign
    cases value with
    | int i =>
      cases hi : Binary64.ofInt? i with
      | none =>
        rw [readTimeout, hi] at h
        exact ⟨⟨rfl, i, rfl, (Binary64.ofInt?_eq_none_iff i).mp hi⟩, (Except.error.inj h).symm⟩
      | some x =>
        rw [readTimeout, hi, wholeTimeout] at h
        split at h
        · cases h
        · obtain rfl := Except.error.inj h
          cases hforeign
    | float x =>
      rw [readTimeout] at h
      split at h
      · cases h
      · obtain rfl := Except.error.inj h
        cases hforeign
    | _ =>
      obtain rfl := Except.error.inj h
      cases hforeign
  · rintro ⟨-, rfl⟩
    rfl

private theorem isRefusal_of_readCommand {value : Value} {e : Error}
    (h : readCommand value = .error e) : e.isRefusal = true := by
  cases value with
  | text line =>
    cases hwords : Command.words line with
    | error cause =>
      rw [readCommand, hwords] at h
      obtain rfl := Except.error.inj h
      rfl
    | ok words =>
      rw [readCommand, hwords] at h
      cases h
  | list items =>
    cases htexts : Value.texts? items with
    | none =>
      rw [readCommand, htexts] at h
      obtain rfl := Except.error.inj h
      rfl
    | some words =>
      rw [readCommand, htexts] at h
      cases h
  | _ =>
    obtain rfl := Except.error.inj h
    rfl

private theorem isRefusal_of_readText {key : String} {value : Value} {e : Error}
    (h : readText key value = .error e) : e.isRefusal = true := by
  cases value with
  | text s => cases h
  | _ =>
    obtain rfl := Except.error.inj h
    rfl

private theorem map_eq_error {α β : Type} {r : Except Error α} {f : α → β} {e : Error} :
    r.map f = .error e ↔ r = .error e := by
  cases r <;> simp [Except.map]

/-- **A value that cannot be examined is an integer past all floating-point numbers.** -/
theorem Field.read_error {field : Field} {key : String} {value : Value} {e : Error}
    (h : field.read key value = .error e) :
    e.isRefusal = false ↔ field.IsOversized value ∧ e = .tooLarge := by
  have hrefused : e.isRefusal = true → field ≠ .timeout →
      (e.isRefusal = false ↔ field.IsOversized value ∧ e = .tooLarge) := by
    intro hrefusal hfield
    constructor
    · intro hforeign
      rw [hrefusal] at hforeign
      cases hforeign
    · rintro ⟨⟨htimeout, -⟩, -⟩
      exact absurd htimeout hfield
  cases field with
  | command =>
    rw [Field.read, map_eq_error] at h
    exact hrefused (isRefusal_of_readCommand h) (by decide)
  | tempPrefix =>
    rw [Field.read, map_eq_error] at h
    exact hrefused (isRefusal_of_readText h) (by decide)
  | defaultExtension =>
    rw [Field.read, map_eq_error] at h
    exact hrefused (isRefusal_of_readText h) (by decide)
  | timeout =>
    rw [Field.read, map_eq_error] at h
    exact readTimeout_error h

theorem Field.read_of_isOversized {field : Field} {value : Value} (key : String)
    (h : field.IsOversized value) : field.read key value = .error .tooLarge := by
  obtain ⟨rfl, i, rfl, hlarge⟩ := h
  rw [Field.read, readTimeout, (Binary64.ofInt?_eq_none_iff i).mpr hlarge]
  rfl

/-! ## Entries -/

/-- An entry counts: its name is the name of a field, and its value is given. -/
structure Counts (entry : Value × Value) (key : String) (field : Field) : Prop where
  named : entry.1 = .text key
  known : Field.ofName? key = some field
  given : entry.2 ≠ .null

/-- An entry fits: if it counts, its field takes its value. -/
def Fits (entry : Value × Value) : Prop :=
  ∀ key field, Counts entry key field → field.Takes entry.2

/-- **The entries that make a change are those that count.** -/
theorem entryChange?_eq_some_iff (entry : Value × Value) (r : Except Error Change) :
    entryChange? entry = some r ↔
      ∃ key field, Counts entry key field ∧ field.read key entry.2 = r := by
  obtain ⟨name, value⟩ := entry
  constructor
  · intro h
    cases name with
    | text key =>
      simp only [entryChange?] at h
      split at h
      · cases h
      · cases h
      · next field hknown hgiven => exact ⟨key, field, ⟨rfl, hknown, hgiven⟩, Option.some.inj h⟩
    | _ => cases h
  · rintro ⟨key, field, ⟨hnamed, hknown, hgiven⟩, rfl⟩
    dsimp only at hnamed hgiven ⊢
    subst hnamed
    simp only [entryChange?, hknown]

theorem Counts.unique {entry : Value × Value} {key key' : String} {field field' : Field}
    (h : Counts entry key field) (h' : Counts entry key' field') : key = key' ∧ field = field' := by
  have hkey : key = key' := Value.text.inj (h.named.symm.trans h'.named)
  subst hkey
  exact ⟨rfl, Option.some.inj (h.known.symm.trans h'.known)⟩

/-- **An entry is refused exactly when it does not fit.** -/
theorem fits_iff (entry : Value × Value) :
    Fits entry ↔ ∀ e, entryChange? entry ≠ some (.error e) := by
  constructor
  · intro hfits e h
    obtain ⟨key, field, hcounts, hread⟩ := (entryChange?_eq_some_iff entry _).mp h
    obtain ⟨c, hc⟩ := (Field.read_ok_iff field key entry.2).mpr (hfits key field hcounts)
    rw [hc] at hread
    cases hread
  · intro h key field hcounts
    cases hread : field.read key entry.2 with
    | error e =>
      exact absurd ((entryChange?_eq_some_iff entry _).mpr ⟨key, field, hcounts, hread⟩) (h e)
    | ok c => exact (Field.read_ok_iff field key entry.2).mp ⟨c, hread⟩

/-! ## Layers -/

/-- **A layer is accepted exactly when every entry fits.** -/
theorem changes_eq_ok_iff (entries : List (Value × Value)) :
    (∃ cs, changes entries = .ok cs) ↔ ∀ entry ∈ entries, Fits entry := by
  induction entries with
  | nil => simp [changes]
  | cons entry rest ih =>
    rw [List.forall_mem_cons, ← ih, fits_iff, changes]
    cases entryChange? entry with
    | none => simp
    | some r =>
      cases r with
      | error e => simp
      | ok c => cases changes rest <;> simp [Except.map]

/-- **A layer is refused for its first entry that does not fit.** -/
theorem changes_eq_error_iff (entries : List (Value × Value)) (e : Error) :
    changes entries = .error e ↔
      ∃ before entry after, entries = before ++ entry :: after ∧ (∀ other ∈ before, Fits other) ∧
        entryChange? entry = some (.error e) := by
  induction entries with
  | nil => simp [changes]
  | cons first rest ih =>
    constructor
    · intro h
      rw [changes] at h
      -- Either the first entry is at fault, or it fits and one of the others is.
      have hrest : (∀ e', entryChange? first ≠ some (.error e')) → changes rest = .error e →
          ∃ before entry after, first :: rest = before ++ entry :: after ∧
            (∀ other ∈ before, Fits other) ∧ entryChange? entry = some (.error e) := by
        intro hfirst herror
        obtain ⟨before, entry, after, rfl, hbefore, hentry⟩ := ih.mp herror
        refine ⟨first :: before, entry, after, rfl, ?_, hentry⟩
        exact List.forall_mem_cons.mpr ⟨(fits_iff first).mpr hfirst, hbefore⟩
      cases hfirst : entryChange? first with
      | none =>
        rw [hfirst] at h
        exact hrest (by simp [hfirst]) h
      | some r =>
        cases r with
        | error e' =>
          rw [hfirst] at h
          obtain rfl := Except.error.inj h
          exact ⟨[], first, rest, rfl, by simp, hfirst⟩
        | ok c =>
          rw [hfirst] at h
          exact hrest (by simp [hfirst]) (map_eq_error.mp h)
    · rintro ⟨before, entry, after, hsplit, hbefore, hentry⟩
      rw [changes]
      cases before with
      | nil =>
        obtain ⟨rfl, rfl⟩ := List.cons.inj hsplit
        rw [hentry]
      | cons head before =>
        obtain ⟨rfl, rfl⟩ := List.cons.inj hsplit
        obtain ⟨hhead, hothers⟩ := List.forall_mem_cons.mp hbefore
        have hrest := ih.mpr ⟨before, entry, after, rfl, hothers, hentry⟩
        have hfits := (fits_iff first).mp hhead
        cases hfirst : entryChange? first with
        | none => exact hrest
        | some r =>
          cases r with
          | error e' => exact absurd hfirst (hfits e')
          | ok c => exact map_eq_error.mpr hrest

/-- The first entry of a layer that does not fit gives an integer past all floating-point numbers for the
timeout. -/
def Oversized (entries : List (Value × Value)) : Prop :=
  ∃ before entry after key field, entries = before ++ entry :: after ∧
    (∀ other ∈ before, Fits other) ∧ Counts entry key field ∧ field.IsOversized entry.2

/-- **A layer that cannot be examined is one that is oversized.** -/
theorem isRefusal_of_changes {entries : List (Value × Value)} {e : Error}
    (h : changes entries = .error e) : e.isRefusal = false ↔ Oversized entries ∧ e = .tooLarge := by
  obtain ⟨before, entry, after, hsplit, hbefore, hentry⟩ := (changes_eq_error_iff entries e).mp h
  obtain ⟨key, field, hcounts, hread⟩ := (entryChange?_eq_some_iff entry _).mp hentry
  constructor
  · intro hforeign
    obtain ⟨hlarge, he⟩ := (Field.read_error hread).mp hforeign
    exact ⟨⟨before, entry, after, key, field, hsplit, hbefore, hcounts, hlarge⟩, he⟩
  · rintro ⟨-, rfl⟩
    rfl

theorem changes_of_oversized {entries : List (Value × Value)} (h : Oversized entries) :
    changes entries = .error .tooLarge := by
  obtain ⟨before, entry, after, key, field, hsplit, hbefore, hcounts, hlarge⟩ := h
  have hread := Field.read_of_isOversized key hlarge
  exact (changes_eq_error_iff entries _).mpr ⟨before, entry, after, hsplit, hbefore,
    (entryChange?_eq_some_iff entry _).mpr ⟨key, field, hcounts, hread⟩⟩

theorem merged_map (s : Settings) (entries : List (Value × Value)) :
    s.merged (.map entries) = (changes entries).map (·.foldl Change.apply s) := by
  cases entries with
  | nil => rfl
  | cons entry rest => rfl

/-- Whether a layer is accepted does not depend on what it is put on. -/
theorem merged_ok {s : Settings} {layer : Value} {t : Settings} (h : s.merged layer = .ok t)
    (s' : Settings) : ∃ t', s'.merged layer = .ok t' := by
  cases layer with
  | map entries =>
    rw [merged_map] at h ⊢
    cases hchanges : changes entries with
    | error e =>
      rw [hchanges] at h
      cases h
    | ok cs => exact ⟨_, rfl⟩
  | _ =>
    unfold merged at h ⊢
    split at h
    · next hfalsy => exact ⟨s', if_pos hfalsy⟩
    · cases h

end Settings

end FormatServer
