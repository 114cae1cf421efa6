import FormatServer.Proofs.Settings.Layer
import FormatServer.Session.Documents

/-!
What layers of settings come to, one on top of another. Main statement (`layers_settle_fields`): every field holds
the normal form of the last value that an accepted layer gives it, and what it held at first if none does. A layer
is refused for its first entry that does not fit, and then it is as if it had not been there. The settings that a
client pushes are layered so (`globals_pushed`).
-/

namespace FormatServer

/-- If some items of a list have a property, one of them is the last that has it. -/
theorem exists_last_of_mem {α : Type} {P : α → Prop} {xs : List α} (h : ∃ x ∈ xs, P x) :
    ∃ before x after, xs = before ++ x :: after ∧ P x ∧ ∀ y ∈ after, ¬ P y := by
  induction xs with
  | nil =>
    obtain ⟨x, hx, -⟩ := h
    cases hx
  | cons y rest ih =>
    by_cases hrest : ∃ x ∈ rest, P x
    · obtain ⟨before, x, after, rfl, hx, hafter⟩ := ih hrest
      exact ⟨y :: before, x, after, rfl, hx, hafter⟩
    · obtain ⟨x, hx, hP⟩ := h
      rcases List.mem_cons.mp hx with rfl | hx
      · exact ⟨[], x, rest, rfl, hP, fun z hz hPz => hrest ⟨z, hz, hPz⟩⟩
      · exact absurd ⟨x, hx, hP⟩ hrest

namespace Settings

/-! ## Normal forms -/

/-- The normal form of a value that a field takes: the words of a command, an extension with its dot, a timeout as
a floating-point number. -/
inductive Field.Normal : Field → Value → Change → Prop where
  | line {line : String} {words : List String} (hwords : Command.words line = .ok words) :
      Normal .command (.text line) (.command words)
  | words (words : List String) : Normal .command (.list (words.map .text)) (.command words)
  | tempPrefix (s : String) : Normal .tempPrefix (.text s) (.tempPrefix s)
  | dotted {s : String} (hdot : s.toList.head? = some '.') :
      Normal .defaultExtension (.text s) (.defaultExtension s)
  | undotted {s : String} (hdot : s.toList.head? ≠ some '.') :
      Normal .defaultExtension (.text s) (.defaultExtension ("." ++ s))
  | whole {i : Int} {x : Binary64} (hpos : 0 < i) (hx : Binary64.ofInt? i = some x) :
      Normal .timeout (.int i) (.timeout x)
  | fraction {x : Binary64} (hfinite : x.isFinite = true) (hpos : x.isPositive = true) :
      Normal .timeout (.float x) (.timeout x)

inductive Field.Refuses : Field → String → Value → Error → Prop where
  | words {key line : String} {cause : Command.SplitError}
      (hwords : Command.words line = .error cause) : Refuses .command key (.text line) (.words cause)
  | notCommand {key : String} {value : Value} (hline : ∀ line, value ≠ .text line)
      (hlist : ∀ words : List String, value ≠ .list (words.map .text)) :
      Refuses .command key value (.notCommand value)
  | notText {field : Field} {key : String} {value : Value}
      (hfield : field = .tempPrefix ∨ field = .defaultExtension) (htext : ∀ s, value ≠ .text s) :
      Refuses field key value (.notText key value)
  | notNumber {key : String} {value : Value} (hint : ∀ i, value ≠ .int i)
      (hfloat : ∀ x, value ≠ .float x) : Refuses .timeout key value (.notNumber value)
  | tooLarge {key : String} {i : Int} (hsize : Binary64.integerLimit ≤ i.natAbs) :
      Refuses .timeout key (.int i) .tooLarge
  | notPositive {key : String} {i : Int} (hsize : i.natAbs < Binary64.integerLimit) (hi : i ≤ 0) :
      Refuses .timeout key (.int i) (.notPositive (.int i))
  | noDuration {key : String} {x : Binary64} (hx : ¬ (x.isFinite = true ∧ x.isPositive = true)) :
      Refuses .timeout key (.float x) (.notPositive (.float x))

private theorem dotted_eq (s : String) :
    Settings.dotted s = if s.toList.head? = some '.' then s else "." ++ s := by
  have happend : String.ofList ('.' :: s.toList) = "." ++ s := by
    rw [← String.toList_inj]
    simp
  unfold Settings.dotted
  split
  · next hdot => simp [hdot]
  · next hdot =>
    rw [happend, if_neg]
    intro hhead
    obtain ⟨rest, hrest⟩ := List.head?_eq_some_iff.mp hhead
    exact hdot rest hrest

private theorem read_of_normal {field : Field} {value : Value} {c : Change} (key : String)
    (h : field.Normal value c) : field.read key value = .ok c := by
  cases h with
  | line hwords => simp [Field.read, readCommand, hwords, Except.mapError, Except.map]
  | words words =>
    simp [Field.read, readCommand, (Value.texts?_eq_some_iff _ words).mpr rfl, Except.map]
  | tempPrefix s => rfl
  | dotted hdot => simp [Field.read, readText, Except.map, dotted_eq, hdot]
  | undotted hdot => simp [Field.read, readText, Except.map, dotted_eq, hdot]
  | whole hpos hx => rw [Field.read, readTimeout, hx, wholeTimeout, if_pos hpos, Except.map]
  | fraction hfinite hpos => rw [Field.read, readTimeout, hfinite, hpos, Bool.and_self, if_pos rfl, Except.map]

private theorem read_of_refuses {field : Field} {key : String} {value : Value} {e : Error}
    (h : field.Refuses key value e) : field.read key value = .error e := by
  cases h with
  | words hwords => simp [Field.read, readCommand, hwords, Except.mapError, Except.map]
  | notCommand hline hlist =>
    cases value with
    | text line => exact absurd rfl (hline line)
    | list items =>
      cases htexts : Value.texts? items with
      | none => simp [Field.read, readCommand, htexts, Except.map]
      | some words => exact absurd ((Value.texts?_eq_some_iff items words).mp htexts ▸ rfl) (hlist words)
    | _ => rfl
  | notText hfield htext =>
    cases value with
    | text s => exact absurd rfl (htext s)
    | _ => rcases hfield with rfl | rfl <;> rfl
  | notNumber hint hfloat =>
    cases value with
    | int i => exact absurd rfl (hint i)
    | float x => exact absurd rfl (hfloat x)
    | _ => rfl
  | tooLarge hsize =>
    rw [Field.read, readTimeout, (Binary64.ofInt?_eq_none_iff _).mpr hsize, wholeTimeout, Except.map]
  | @notPositive _ i hsize hi =>
    cases hx : Binary64.ofInt? i with
    | none => exact absurd ((Binary64.ofInt?_eq_none_iff i).mp hx) (Nat.not_le.mpr hsize)
    | some x => rw [Field.read, readTimeout, hx, wholeTimeout, if_neg (Int.not_lt.mpr hi), Except.map]
  | noDuration hx => rw [Field.read, readTimeout, if_neg (by simpa using hx), Except.map]

/-- Every value that is given to a field has a normal form or a reason why the field does not take it. -/
private theorem normal_or_refuses (field : Field) (key : String) (value : Value) :
    (∃ c, field.Normal value c) ∨ ∃ e, field.Refuses key value e := by
  cases field with
  | command =>
    cases value with
    | text line =>
      cases hwords : Command.words line with
      | ok words => exact .inl ⟨_, .line hwords⟩
      | error cause => exact .inr ⟨_, .words hwords⟩
    | list items =>
      by_cases hitems : ∃ words : List String, items = words.map .text
      · obtain ⟨words, rfl⟩ := hitems
        exact .inl ⟨_, .words words⟩
      · exact .inr ⟨_, .notCommand (by simp) fun words h => hitems ⟨words, Value.list.inj h⟩⟩
    | _ => exact .inr ⟨_, .notCommand (by simp) (by simp)⟩
  | tempPrefix =>
    cases value with
    | text s => exact .inl ⟨_, .tempPrefix s⟩
    | _ => exact .inr ⟨_, .notText (.inl rfl) (by simp)⟩
  | defaultExtension =>
    cases value with
    | text s =>
      by_cases hdot : s.toList.head? = some '.'
      · exact .inl ⟨_, .dotted hdot⟩
      · exact .inl ⟨_, .undotted hdot⟩
    | _ => exact .inr ⟨_, .notText (.inr rfl) (by simp)⟩
  | timeout =>
    cases value with
    | int i =>
      cases hx : Binary64.ofInt? i with
      | none => exact .inr ⟨_, .tooLarge ((Binary64.ofInt?_eq_none_iff i).mp hx)⟩
      | some x =>
        by_cases hpos : 0 < i
        · exact .inl ⟨_, .whole hpos hx⟩
        · have hsize : i.natAbs < Binary64.integerLimit := by
            rw [← Nat.not_le, ← Binary64.ofInt?_eq_none_iff, hx]
            simp
          exact .inr ⟨_, .notPositive hsize (Int.not_lt.mp hpos)⟩
    | float x =>
      by_cases hx : x.isFinite = true ∧ x.isPositive = true
      · exact .inl ⟨_, .fraction hx.1 hx.2⟩
      · exact .inr ⟨_, .noDuration hx⟩
    | _ => exact .inr ⟨_, .notNumber (by simp) (by simp)⟩

/-- **A value is read as its normal form.** -/
theorem Field.read_eq_ok_iff (field : Field) (key : String) (value : Value) (c : Change) :
    field.read key value = .ok c ↔ field.Normal value c := by
  refine ⟨fun hread => ?_, read_of_normal key⟩
  rcases normal_or_refuses field key value with ⟨c', hnormal⟩ | ⟨e, hrefuses⟩
  · rw [read_of_normal key hnormal] at hread
    exact Except.ok.inj hread ▸ hnormal
  · rw [read_of_refuses hrefuses] at hread
    cases hread

/-- **A value that is not read is refused for the reason that it has.** -/
theorem Field.read_eq_error_iff (field : Field) (key : String) (value : Value) (e : Error) :
    field.read key value = .error e ↔ field.Refuses key value e := by
  refine ⟨fun hread => ?_, read_of_refuses⟩
  rcases normal_or_refuses field key value with ⟨c, hnormal⟩ | ⟨e', hrefuses⟩
  · rw [read_of_normal key hnormal] at hread
    cases hread
  · rw [read_of_refuses hrefuses] at hread
    exact Except.error.inj hread ▸ hrefuses

/-! ## One field -/

def Field.content (s : Settings) : Field → Change
  | command => .command s.command
  | tempPrefix => .tempPrefix s.tempPrefix
  | defaultExtension => .defaultExtension s.defaultExtension
  | timeout => .timeout s.timeout

def Gives (entry : Value × Value) (field : Field) : Prop := ∃ key, Counts entry key field

/-- A change in normal form sets its field. -/
private theorem content_apply {field : Field} {value : Value} {c : Change} (h : field.Normal value c)
    (s : Settings) : field.content (c.apply s) = c := by
  cases h <;> rfl

/-- A change sets no other field. -/
private theorem content_apply_of_ne {field other : Field} {value : Value} {c : Change}
    (h : field.Normal value c) (hne : other ≠ field) (s : Settings) :
    other.content (c.apply s) = other.content s := by
  cases h <;> cases other <;> first | rfl | exact absurd rfl hne

private def withEntry (s : Settings) (entry : Value × Value) : Settings :=
  match entryChange? entry with
  | some (.ok c) => c.apply s
  | _ => s

private theorem foldl_changes {entries : List (Value × Value)} {cs : List Change}
    (h : changes entries = .ok cs) (s : Settings) :
    cs.foldl Change.apply s = entries.foldl withEntry s := by
  induction entries generalizing cs s with
  | nil =>
    obtain rfl := Except.ok.inj h
    rfl
  | cons entry rest ih =>
    rw [changes] at h
    rw [List.foldl_cons, withEntry]
    cases hentry : entryChange? entry with
    | none =>
      rw [hentry] at h
      exact ih h s
    | some r =>
      rw [hentry] at h
      cases r with
      | error e => cases h
      | ok c =>
        cases hrest : changes rest with
        | error e =>
          rw [hrest] at h
          cases h
        | ok more =>
          rw [hrest] at h
          obtain rfl := Except.ok.inj h
          exact ih hrest _

private theorem content_withEntry {entry : Value × Value} {key : String} {field : Field} {c : Change}
    (hcounts : Counts entry key field) (hnormal : field.Normal entry.2 c) (s : Settings) :
    field.content (withEntry s entry) = c := by
  have hentry : entryChange? entry = some (.ok c) :=
    (entryChange?_eq_some_iff entry _).mpr
      ⟨key, field, hcounts, (Field.read_eq_ok_iff field key entry.2 c).mpr hnormal⟩
  rw [withEntry, hentry]
  exact content_apply hnormal s

private theorem content_withEntry_of_not {entry : Value × Value} {field : Field}
    (h : ¬ Gives entry field) (s : Settings) :
    field.content (withEntry s entry) = field.content s := by
  rw [withEntry]
  split
  · next c hentry =>
    obtain ⟨key, other, hcounts, hread⟩ := (entryChange?_eq_some_iff entry _).mp hentry
    refine content_apply_of_ne ((Field.read_eq_ok_iff ..).mp hread) ?_ s
    rintro rfl
    exact h ⟨key, hcounts⟩
  · rfl

private theorem content_foldl_of_not {entries : List (Value × Value)} {field : Field}
    (h : ∀ entry ∈ entries, ¬ Gives entry field) (s : Settings) :
    field.content (entries.foldl withEntry s) = field.content s := by
  induction entries generalizing s with
  | nil => rfl
  | cons entry rest ih =>
    obtain ⟨hentry, hrest⟩ := List.forall_mem_cons.mp h
    rw [List.foldl_cons, ih hrest, content_withEntry_of_not hentry]

/-! ## Layers on top of each other -/

def Accepted (entries : List (Value × Value)) : Prop := ∀ entry ∈ entries, Fits entry

/-- What layers make of a field of settings. -/
inductive Settles (s : Settings) (layers : List (List (Value × Value))) (field : Field) :
    Change → Prop where
  /-- the last accepted layer that gives a value to the field, with the last one it gives -/
  | given {below above : List (List (Value × Value))} {before after : List (Value × Value)}
      {entry : Value × Value} {c : Change}
      (hlayers : layers = below ++ (before ++ entry :: after) :: above)
      (haccepted : Accepted (before ++ entry :: after)) (hgives : Gives entry field)
      (hafter : ∀ other ∈ after, ¬ Gives other field)
      (habove : ∀ layer ∈ above, Accepted layer → ∀ other ∈ layer, ¬ Gives other field)
      (hnormal : field.Normal entry.2 c) : Settles s layers field c
  /-- no accepted layer gives a value to the field -/
  | unchanged (h : ∀ layer ∈ layers, Accepted layer → ∀ entry ∈ layer, ¬ Gives entry field) :
      Settles s layers field (field.content s)

/-- **A layer is accepted exactly when all its entries fit.** -/
theorem merged_eq_ok_iff (s : Settings) (entries : List (Value × Value)) :
    (∃ t, s.merged (.map entries) = .ok t) ↔ Accepted entries := by
  rw [Accepted, ← changes_eq_ok_iff, merged_map]
  cases changes entries <;> simp [Except.map]

private theorem layered_cons_of_accepted {entries : List (Value × Value)} (h : Accepted entries)
    (s : Settings) (rest : List Value) :
    s.layered (.map entries :: rest) = (entries.foldl withEntry s).layered rest := by
  obtain ⟨cs, hchanges⟩ := (changes_eq_ok_iff entries).mpr h
  rw [layered, List.foldl_cons, merged_map, hchanges, ← foldl_changes hchanges s]
  rfl

private theorem layered_cons_of_refused {entries : List (Value × Value)} (h : ¬ Accepted entries)
    (s : Settings) (rest : List Value) : s.layered (.map entries :: rest) = s.layered rest := by
  cases hmerged : s.merged (.map entries) with
  | ok t => exact absurd ((merged_eq_ok_iff s entries).mp ⟨t, hmerged⟩) h
  | error e =>
    rw [layered, List.foldl_cons, hmerged]
    rfl

theorem layered_append (s : Settings) (below above : List Value) :
    s.layered (below ++ above) = (s.layered below).layered above := List.foldl_append

private theorem content_layered_of_not {layers : List (List (Value × Value))} {field : Field}
    (h : ∀ layer ∈ layers, Accepted layer → ∀ entry ∈ layer, ¬ Gives entry field) (s : Settings) :
    field.content (s.layered (layers.map .map)) = field.content s := by
  induction layers generalizing s with
  | nil => rfl
  | cons layer rest ih =>
    obtain ⟨hlayer, hrest⟩ := List.forall_mem_cons.mp h
    rw [List.map_cons]
    by_cases haccepted : Accepted layer
    · rw [layered_cons_of_accepted haccepted, ih hrest, content_foldl_of_not (hlayer haccepted)]
    · rw [layered_cons_of_refused haccepted, ih hrest]

private theorem content_of_settles {s : Settings} {layers : List (List (Value × Value))}
    {field : Field} {c : Change} (h : Settles s layers field c) :
    field.content (s.layered (layers.map .map)) = c := by
  cases h with
  | unchanged h => exact content_layered_of_not h s
  | given hlayers haccepted hgives hafter habove hnormal =>
    obtain ⟨key, hcounts⟩ := hgives
    rw [hlayers, List.map_append, List.map_cons, layered_append, layered_cons_of_accepted haccepted,
      content_layered_of_not habove, List.foldl_append, List.foldl_cons,
      content_foldl_of_not hafter, content_withEntry hcounts hnormal]

private theorem exists_settles (s : Settings) (layers : List (List (Value × Value))) (field : Field) :
    ∃ c, Settles s layers field c := by
  by_cases hany : ∃ layer ∈ layers, Accepted layer ∧ ∃ entry ∈ layer, Gives entry field
  · obtain ⟨below, layer, above, hlayers, ⟨haccepted, hentries⟩, habove⟩ := exists_last_of_mem hany
    obtain ⟨before, entry, after, rfl, hgives, hafter⟩ := exists_last_of_mem hentries
    have hfits : Fits entry := haccepted entry (List.mem_append_right _ List.mem_cons_self)
    obtain ⟨key, hcounts⟩ := id hgives
    obtain ⟨c, hread⟩ := (Field.read_ok_iff field key entry.2).mpr (hfits key field hcounts)
    refine ⟨c, .given hlayers haccepted hgives hafter ?_ ((Field.read_eq_ok_iff ..).mp hread)⟩
    exact fun later hlater hok other hother hgives =>
      habove later hlater ⟨hok, other, hother, hgives⟩
  · exact ⟨_, .unchanged fun layer hlayer hok entry hentry hgives =>
      hany ⟨layer, hlayer, hok, entry, hentry, hgives⟩⟩

/-- **What a field holds is what the layers make of it.** -/
theorem content_layered_iff (s : Settings) (layers : List (List (Value × Value))) (field : Field)
    (c : Change) : field.content (s.layered (layers.map .map)) = c ↔ Settles s layers field c := by
  refine ⟨?_, content_of_settles⟩
  rintro rfl
  obtain ⟨c, hsettles⟩ := exists_settles s layers field
  rwa [content_of_settles hsettles]

/-- **A layer is refused for its first entry that does not fit.** -/
theorem merged_eq_error_iff (s : Settings) (entries : List (Value × Value)) (e : Error) :
    s.merged (.map entries) = .error e ↔
      ∃ before entry after key field, entries = before ++ entry :: after ∧
        (∀ other ∈ before, Fits other) ∧ Counts entry key field ∧ field.Refuses key entry.2 e := by
  have hmap : s.merged (.map entries) = .error e ↔ changes entries = .error e := by
    rw [merged_map]
    cases changes entries <;> simp [Except.map]
  rw [hmap, changes_eq_error_iff]
  constructor
  · rintro ⟨before, entry, after, hsplit, hbefore, hentry⟩
    obtain ⟨key, field, hcounts, hread⟩ := (entryChange?_eq_some_iff entry _).mp hentry
    exact ⟨before, entry, after, key, field, hsplit, hbefore, hcounts,
      (Field.read_eq_error_iff ..).mp hread⟩
  · rintro ⟨before, entry, after, key, field, hsplit, hbefore, hcounts, hrefuses⟩
    refine ⟨before, entry, after, hsplit, hbefore, (entryChange?_eq_some_iff entry _).mpr ?_⟩
    exact ⟨key, field, hcounts, (Field.read_eq_error_iff ..).mpr hrefuses⟩

end Settings

/-! ## Pushed settings -/

/-- The global settings after a push of a client without support for requests are the ones before with the pushed
layer on top, if the push holds one. -/
private theorem Session.globals_configured (s : Session) (pushed : Value)
    (hconfiguration : s.configuration = false) :
    (s.configured pushed).configuration = false ∧
      (s.configured pushed).cache.globals =
        s.cache.globals.layered (SettingsCache.pushedLayer? pushed).toList := by
  unfold configured
  rw [if_neg (by simp [hconfiguration])]
  unfold SettingsCache.updateGlobals
  cases SettingsCache.pushedLayer? pushed with
  | none => exact ⟨hconfiguration, rfl⟩
  | some layer =>
    cases hmerged : s.cache.globals.merged layer with
    | ok t =>
      have hnext : s.cache.globals.layered [layer] = t := by
        simp [Settings.layered, hmerged, Except.toOption]
      simp only [bind, Except.bind, hmerged, Option.toList_some, hnext]
      exact ⟨hconfiguration, rfl⟩
    | error e =>
      have hkept : s.cache.globals.layered [layer] = s.cache.globals := by
        simp [Settings.layered, hmerged, Except.toOption]
      simp only [bind, Except.bind, hmerged, Option.toList_some, hkept]
      split
      · exact ⟨hconfiguration, rfl⟩
      · exact ⟨hconfiguration, rfl⟩

/-- **Pushed settings are layers** on top of the global settings, in the order of the pushes. -/
theorem Session.globals_pushed (s : Session) (pushes : List Value)
    (hconfiguration : s.configuration = false) :
    (pushes.foldl Session.configured s).cache.globals =
      s.cache.globals.layered (pushes.filterMap SettingsCache.pushedLayer?) := by
  induction pushes generalizing s with
  | nil => rfl
  | cons pushed rest ih =>
    obtain ⟨hnext, hglobals⟩ := s.globals_configured pushed hconfiguration
    rw [List.foldl_cons, ih _ hnext, hglobals, ← Settings.layered_append]
    cases hlayer : SettingsCache.pushedLayer? pushed <;> simp [hlayer]

/-! ## The law of layers -/

namespace Settings

/-- **Layers settle the fields of settings.** Whatever settings the layers are put on, one after another:
every field holds the normal form of the last value that the last accepted layer giving it one gives it, by any of
its names, and what it held before if no accepted layer gives it one;
a layer is accepted exactly when all its entries fit;
it is refused exactly for its first entry that does not fit, for the reason that the field does not take its value;
a refused layer is as if it had not been there;
and the settings that a client without support for requests pushes are such layers on the global ones. -/
theorem layers_settle_fields (s : Settings) (layers : List (List (Value × Value))) :
    (∀ field c, field.content (s.layered (layers.map .map)) = c ↔ Settles s layers field c) ∧
    (∀ (t : Settings) entries,
      (∃ u, t.merged (.map entries) = .ok u) ↔ ∀ entry ∈ entries, Fits entry) ∧
    (∀ (t : Settings) entries e, t.merged (.map entries) = .error e ↔
      ∃ before entry after key field, entries = before ++ entry :: after ∧
        (∀ other ∈ before, Fits other) ∧ Counts entry key field ∧ field.Refuses key entry.2 e) ∧
    (∀ below entries above, (∃ (t : Settings) (e : Error), t.merged (.map entries) = .error e) →
      s.layered (below ++ .map entries :: above) = s.layered (below ++ above)) ∧
    ∀ (session : Session) (pushes : List Value), session.configuration = false →
      (pushes.foldl Session.configured session).cache.globals =
        session.cache.globals.layered (pushes.filterMap SettingsCache.pushedLayer?) := by
  refine ⟨content_layered_iff s layers, merged_eq_ok_iff, merged_eq_error_iff, ?_,
    Session.globals_pushed⟩
  rintro below entries above ⟨t, e, herror⟩
  have hrefused : ¬ Accepted entries := by
    intro haccepted
    obtain ⟨u, hok⟩ := (merged_eq_ok_iff t entries).mpr haccepted
    rw [hok] at herror
    cases herror
  rw [layered_append, layered_cons_of_refused hrefused, ← layered_append]

/-- Of two spellings in one layer the last one counts, null gives no value, and a layer with a timeout of zero is
left out as a whole. -/
theorem layers_settle_fields_spellings :
    let layers : List (List (Value × Value)) := [
      [(.text "tempPrefix", .text "a"), (.text "temp_prefix", .text "b")],
      [(.text "temp_prefix", .text "c"), (.text "timeout", .int 0)],
      [(.text "defaultExtension", .text "x"), (.text "tempPrefix", .null)]]
    Settles {} layers .tempPrefix (.tempPrefix "b") ∧
      Settles {} layers .defaultExtension (.defaultExtension ".x") ∧ Settles {} layers .command (.command []) := by
  intro layers
  obtain ⟨hsettles, -⟩ := layers_settle_fields {} layers
  have hlayered : Settings.layered {} (layers.map .map) = { tempPrefix := "b", defaultExtension := ".x" } := by
    decide +kernel
  rw [hlayered] at hsettles
  exact ⟨(hsettles .tempPrefix _).mp rfl, (hsettles .defaultExtension _).mp rfl,
    (hsettles .command _).mp rfl⟩

end Settings

end FormatServer
