import Mathlib.Data.List.Forall2
import FormatServer.Proofs.Session.DocumentSettings

/-!
Settings that a client pushes without support for requests. Main statement (`pushes_merged_or_ignored`): a
push becomes part of the global settings as a whole, or it changes nothing and one thing is said of it. That
is an entry of the log, but for one kind of value, a timeout that is an integer past all floating-point
numbers, which is shown as a failure of the server.
-/

namespace FormatServer

open Session Settings

/-! ## Pushed values -/

/-- The entries that a pushed value gives: those of its section of settings, or else its own. -/
inductive PushGives : Value → List (Value × Value) → Prop where
  | own {entries inner : List (Value × Value)}
      (h : (Value.map entries).field? settingsSection = some (.map inner)) :
      PushGives (.map entries) inner
  | whole {entries : List (Value × Value)}
      (h : ∀ inner, (Value.map entries).field? settingsSection ≠ some (.map inner)) :
      PushGives (.map entries) entries

inductive PushSays : Value → List SessionEvent → Prop where
  | noMapping {v : Value} (h : v.isMap = false) : PushSays v []
  | accepted {v : Value} {entries : List (Value × Value)} (h : PushGives v entries)
      (haccepted : ∀ entry ∈ entries, Fits entry) : PushSays v []
  /-- the first entry that does not fit is refused, and said to be ignored -/
  | refused {v : Value} {before after : List (Value × Value)} {entry : Value × Value} {key : String}
      {field : Field} {e : Settings.Error} (h : PushGives v (before ++ entry :: after))
      (hbefore : ∀ other ∈ before, Fits other) (hcounts : Counts entry key field)
      (hrefuses : field.Refuses key entry.2 e) (hsize : ¬ field.IsOversized entry.2) :
      PushSays v [.sent (.log .error ("Ignoring invalid formatter settings: " ++ e.message))]
  /-- the first entry that does not fit cannot even be examined -/
  | oversized {v : Value} {entries : List (Value × Value)} (h : PushGives v entries)
      (hsize : Oversized entries) :
      PushSays v [.sent (.alert "OverflowError: int too large to convert to float")]

variable {v : Value} {entries : List (Value × Value)}

theorem pushedLayer?_of_gives (h : PushGives v entries) :
    SettingsCache.pushedLayer? v = some (.map entries) := by
  cases h with
  | @own entries inner h =>
    have hmap : (Value.map entries).isMap = true := rfl
    rw [SettingsCache.pushedLayer?, if_pos hmap, h]
  | whole h =>
    have hmap : (Value.map entries).isMap = true := rfl
    rw [SettingsCache.pushedLayer?, if_pos hmap]
    split
    · next inner hinner => exact absurd hinner (h inner)
    · rfl

theorem pushedLayer?_of_noMapping (h : v.isMap = false) : SettingsCache.pushedLayer? v = none := by
  rw [SettingsCache.pushedLayer?, if_neg (by simp [h])]

/-- Every mapping gives entries. -/
theorem noMapping_or_gives (v : Value) : v.isMap = false ∨ ∃ entries, PushGives v entries := by
  cases v with
  | map entries =>
    by_cases hsection : ∃ inner, (Value.map entries).field? settingsSection = some (.map inner)
    · obtain ⟨inner, hinner⟩ := hsection
      exact .inr ⟨inner, .own hinner⟩
    · exact .inr ⟨entries, .whole (not_exists.mp hsection)⟩
  | _ => exact .inl rfl

namespace SettingsCache

theorem updateGlobals_of_gives (c : SettingsCache) (h : PushGives v entries) :
    c.updateGlobals v =
      (c.globals.merged (.map entries)).map fun t => { c with globals := t } := by
  rw [updateGlobals, pushedLayer?_of_gives h]
  dsimp only
  cases c.globals.merged (.map entries) <;> rfl

end SettingsCache

namespace Session

def Move.push (v : Value) : Move := .receive (.ok (.notice (.configured v)))

section Push

variable {s : Session} {t : Settings} {e : Settings.Error} (hstatus : s.status = .running)
  (hconfiguration : s.configuration = false)

include hstatus in
theorem act_push (v : Value) : s.act (.push v) = s.configured v := receive_notice hstatus (.configured v)

include hstatus hconfiguration

private theorem act_push_of_noMapping (h : v.isMap = false) : s.act (.push v) = s := by
  rw [act_push hstatus, configured, if_neg (by simp [hconfiguration]),
    SettingsCache.updateGlobals, pushedLayer?_of_noMapping h]

private theorem act_push_of_merged (h : PushGives v entries)
    (hmerged : s.cache.globals.merged (.map entries) = .ok t) :
    s.act (.push v) = { s with cache := { s.cache with globals := t } } := by
  rw [act_push hstatus, configured, if_neg (by simp [hconfiguration]),
    SettingsCache.updateGlobals_of_gives _ h, hmerged]
  rfl

private theorem act_push_of_error (h : PushGives v entries)
    (hmerged : s.cache.globals.merged (.map entries) = .error e) :
    s.act (.push v) =
      if e.isRefusal then s.log .error ("Ignoring invalid formatter settings: " ++ e.message)
      else s.alert e.kind e.message := by
  rw [act_push hstatus, configured, if_neg (by simp [hconfiguration]),
    SettingsCache.updateGlobals_of_gives _ h, hmerged]
  rfl

private theorem act_push_of_refused (h : PushGives v entries)
    (hmerged : s.cache.globals.merged (.map entries) = .error e) (hsize : ¬ Oversized entries) :
    s.act (.push v) = s.log .error ("Ignoring invalid formatter settings: " ++ e.message) := by
  have hrefusal : e.isRefusal = true := by
    by_contra hforeign
    exact hsize ((isRefusal_of_merged hmerged).mp (Bool.eq_false_iff.mpr hforeign)).1
  rw [act_push_of_error hstatus hconfiguration h hmerged, if_pos hrefusal]

private theorem act_push_of_oversized (h : PushGives v entries) (hsize : Oversized entries) :
    s.act (.push v) = s.alert "OverflowError" "int too large to convert to float" := by
  have hmerged : s.cache.globals.merged (.map entries) = .error .tooLarge := by
    rw [merged_map, changes_of_oversized hsize]
    rfl
  rw [act_push_of_error hstatus hconfiguration h hmerged]
  rfl

/-- **A push becomes a layer of the global settings, and nothing else changes** but what is said of it. -/
theorem says_push (v : Value) :
    ∃ said, PushSays v said ∧
      s.act (.push v) =
        { s with
          cache := { s.cache with
            globals := s.cache.globals.layered (SettingsCache.pushedLayer? v).toList }
          trace := s.trace ++ said } := by
  obtain hv | ⟨entries, hv⟩ := noMapping_or_gives v
  · refine ⟨[], .noMapping hv, ?_⟩
    rw [act_push_of_noMapping hstatus hconfiguration hv, pushedLayer?_of_noMapping hv, List.append_nil]
    rfl
  · rw [pushedLayer?_of_gives hv]
    cases hmerged : s.cache.globals.merged (.map entries) with
    | ok t =>
      have haccepted := (merged_eq_ok_iff _ entries).mp ⟨t, hmerged⟩
      refine ⟨[], .accepted hv haccepted, ?_⟩
      rw [act_push_of_merged hstatus hconfiguration hv hmerged, List.append_nil]
      simp [layered, hmerged, Except.toOption]
    | error e =>
      have hkept : s.cache.globals.layered (some (Value.map entries)).toList = s.cache.globals := by
        simp [layered, hmerged, Except.toOption]
      rw [hkept]
      by_cases hsize : Oversized entries
      · exact ⟨_, .oversized hv hsize, act_push_of_oversized hstatus hconfiguration hv hsize⟩
      · obtain ⟨before, entry, after, key, field, rfl, hbefore, hcounts, hrefuses⟩ :=
          (merged_eq_error_iff _ entries e).mp hmerged
        have hfit : ¬ field.IsOversized entry.2 := fun hlarge =>
          hsize ⟨before, entry, after, key, field, rfl, hbefore, hcounts, hlarge⟩
        exact ⟨_, .refused hv hbefore hcounts hrefuses hfit,
          act_push_of_refused hstatus hconfiguration hv hmerged hsize⟩

/-- Pushes are layers one on top of another, and of each of them is said what is said of it alone. -/
private theorem says_pushes (pushes : List Value) :
    ∃ said, List.Forall₂ PushSays pushes said ∧
      s.run (pushes.map .push) =
        { s with
          cache := { s.cache with
            globals := s.cache.globals.layered (pushes.filterMap SettingsCache.pushedLayer?) }
          trace := s.trace ++ said.flatten } := by
  induction pushes generalizing s with
  | nil => exact ⟨[], .nil, by rw [List.flatten_nil, List.append_nil]; rfl⟩
  | cons v rest ih =>
    obtain ⟨said, hsaid, hact⟩ := says_push hstatus hconfiguration v
    obtain ⟨more, hmore, hrun⟩ := ih (s := s.act (.push v)) (by rw [hact]; exact hstatus)
      (by rw [hact]; exact hconfiguration)
    refine ⟨said :: more, .cons hsaid hmore, ?_⟩
    have hlayers : (v :: rest).filterMap SettingsCache.pushedLayer? =
        (SettingsCache.pushedLayer? v).toList ++ rest.filterMap SettingsCache.pushedLayer? := by
      cases hlayer : SettingsCache.pushedLayer? v <;> simp [hlayer]
    change (s.act (.push v)).run (rest.map .push) = _
    rw [hrun, hact, hlayers, layered_append, List.flatten_cons, List.append_assoc]

end Push

end Session

/-- **Pushed settings are merged or ignored.** Of a value that is no mapping nothing comes. A mapping gives
the entries of its section of settings if that is a mapping, else its own. If they can be merged onto the
global settings, these become that merge; if not, nothing changes, and the log has one error more that says
so, exactly unless the first entry that does not fit gives an integer past all floating-point numbers for the
timeout: that is shown as a failure of the server. Pushes one after another are layers one on top of another,
and of each of them is said what is said of it alone. -/
theorem pushes_merged_or_ignored (s : Session) (hstatus : s.status = .running)
    (hconfiguration : s.configuration = false) :
    (∀ v, v.isMap = false → s.act (.push v) = s) ∧
    (∀ v, v.isMap = true → ∃ entries, PushGives v entries) ∧
    (∀ v entries, PushGives v entries →
      (∀ t, s.cache.globals.merged (.map entries) = .ok t →
        s.act (.push v) = { s with cache := { s.cache with globals := t } }) ∧
      ∀ e, s.cache.globals.merged (.map entries) = .error e →
        (¬ Oversized entries →
          s.act (.push v) = s.log .error ("Ignoring invalid formatter settings: " ++ e.message)) ∧
        (Oversized entries →
          s.act (.push v) = s.alert "OverflowError" "int too large to convert to float")) ∧
    ∀ pushes, ∃ said, List.Forall₂ PushSays pushes said ∧
      s.run (pushes.map .push) =
        { s with
          cache := { s.cache with
            globals := s.cache.globals.layered (pushes.filterMap SettingsCache.pushedLayer?) }
          trace := s.trace ++ said.flatten } := by
  refine ⟨fun v => act_push_of_noMapping hstatus hconfiguration, fun v hv => ?_, fun v entries hv => ?_,
    says_pushes hstatus hconfiguration⟩
  · exact (noMapping_or_gives v).resolve_left (by simp [hv])
  · refine ⟨fun t => act_push_of_merged hstatus hconfiguration hv, fun e hmerged => ⟨?_, ?_⟩⟩
    · exact act_push_of_refused hstatus hconfiguration hv hmerged
    · exact act_push_of_oversized hstatus hconfiguration hv

/-- In a section of settings a timeout that is no number is logged, and with it the prefix before it is
ignored; a timeout past all floating-point numbers shows a failure. -/
theorem pushes_merged_or_ignored_section :
    let disk : Disk := ⟨[([['t', 'm', 'p']], .directory)]⟩
    let empty : Session := { directory := .ofString "/tmp", disk, cache := {} }
    let s := empty.act (.receive (.ok (.call (.number 1) (.handshake ⟨none, [], [], false, false⟩))))
    let push := fun timeout : Value => Value.map [(.text "fmtbridge", .map [
      (.text "tempPrefix", .text "a"), (.text "timeout", timeout)])]
    s.act (.push (push (.text "soon"))) = s.log .error
        "Ignoring invalid formatter settings: timeout must be a number of seconds, got 'soon'" ∧
      s.act (.push (push (.int Binary64.integerLimit))) =
        s.alert "OverflowError" "int too large to convert to float" := by
  intro disk empty s push
  obtain ⟨-, -, hgives, -⟩ := pushes_merged_or_ignored s rfl rfl
  let entries := fun timeout : Value =>
    [(Value.text "tempPrefix", Value.text "a"), (.text "timeout", timeout)]
  have hpush : ∀ timeout, PushGives (push timeout) (entries timeout) := fun timeout => .own rfl
  have hprefix : ∀ entry ∈ [(Value.text "tempPrefix", Value.text "a")], Fits entry := by
    rw [List.forall_mem_singleton]
    rintro key field ⟨hnamed, hknown, -⟩
    obtain rfl := Value.text.inj hnamed
    obtain rfl := Option.some.inj hknown
    exact .tempPrefix "a"
  constructor
  · have hchanges : changes (entries (.text "soon")) = .error (.notNumber (.text "soon")) := rfl
    have hmerged : s.cache.globals.merged (.map (entries (.text "soon"))) =
        .error (.notNumber (.text "soon")) := rfl
    have hsize : ¬ Oversized (entries (.text "soon")) := by
      intro hsize
      cases hchanges.symm.trans (changes_of_oversized hsize)
    refine (((hgives _ _ (hpush _)).2 _ hmerged).1 hsize).trans ?_
    exact congrArg (s.log .error) (by decide +kernel)
  · have hsize : Oversized (entries (.int Binary64.integerLimit)) :=
      ⟨_, _, [], "timeout", .timeout, rfl, hprefix, ⟨rfl, rfl, nofun⟩, rfl, _, rfl,
        by rw [Int.natAbs_natCast]⟩
    have hmerged : s.cache.globals.merged (.map (entries (.int Binary64.integerLimit))) =
        .error .tooLarge := by
      rw [merged_map, changes_of_oversized hsize]
      rfl
    exact ((hgives _ _ (hpush _)).2 _ hmerged).2 hsize

end FormatServer
