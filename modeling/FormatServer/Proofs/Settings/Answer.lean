import FormatServer.Proofs.Lookup
import FormatServer.Proofs.Settings.Layering
import FormatServer.Session.Basic

/-!
A client's answer for a document. It gives settings, those of its entries on top of the global ones, or it is
refused (`yields_or_refused`); the cache makes settings of it exactly when it gives them, and keeps them for the
document (`settle_of_yields`, `yields_of_settle`).
-/

namespace FormatServer

/-- A layer is refused as one that cannot even be examined exactly when it is oversized. -/
theorem Settings.isRefusal_of_merged {s : Settings} {entries : List (Value × Value)} {e : Error}
    (h : s.merged (.map entries) = .error e) : e.isRefusal = false ↔ Oversized entries ∧ e = .tooLarge := by
  refine isRefusal_of_changes ?_
  rw [merged_map] at h
  cases hchanges : changes entries with
  | ok cs =>
    rw [hchanges] at h
    cases h
  | error e' =>
    rw [hchanges] at h
    exact congrArg _ (Except.error.inj h)

namespace ClientAnswer

/-- The settings that an answer gives, on top of the global ones. -/
inductive Yields (globals : Settings) : ClientAnswer → Settings → Prop where
  | layer {entries : List (Value × Value)} {t : Settings}
      (h : globals.merged (.map entries) = .ok t) : Yields globals (.settings (.map entries)) t
  | noMapping {v : Value} (h : v.isMap = false) : Yields globals (.settings v) globals

inductive Refused (globals : Settings) (uri : String) :
    ClientAnswer → List SessionEvent → ResponseError → Prop where
  /-- the client answers with an error, which is passed on -/
  | byClient (e : ResponseError) : Refused globals uri (.error e) [] e
  /-- a value does not fit its field -/
  | invalid {entries : List (Value × Value)} {e : Settings.Error} {text : String}
      (h : globals.merged (.map entries) = .error e) (hsize : ¬ Settings.Oversized entries)
      (htext : text = "Invalid formatter settings for " ++ uri ++ ": " ++ e.message) :
      Refused globals uri (.settings (.map entries)) [.sent (.log .error text)] ⟨-32803, text, none⟩
  /-- a timeout is an integer past all floating-point numbers -/
  | oversized {entries : List (Value × Value)} (h : Settings.Oversized entries) :
      Refused globals uri (.settings (.map entries)) []
        (.unforeseen "OverflowError" "int too large to convert to float")

/-- **An answer gives settings or is refused.** -/
theorem yields_or_refused (globals : Settings) (uri : String) (a : ClientAnswer) :
    (∃ t, a.Yields globals t) ∨ ∃ said e, a.Refused globals uri said e := by
  cases a with
  | error e => exact .inr ⟨[], e, .byClient e⟩
  | settings v =>
    cases v with
    | map entries =>
      cases hmerged : globals.merged (.map entries) with
      | ok t => exact .inl ⟨t, .layer hmerged⟩
      | error e =>
        by_cases hsize : Settings.Oversized entries
        · exact .inr ⟨_, _, .oversized hsize⟩
        · exact .inr ⟨_, _, .invalid hmerged hsize rfl⟩
    | _ => exact .inl ⟨globals, .noMapping rfl⟩

/-- A value is refused as a mapping that does not merge. -/
theorem Refused.exists_merged {globals : Settings} {uri : String} {v : Value}
    {said : List SessionEvent} {r : ResponseError} (h : Refused globals uri (.settings v) said r) :
    ∃ entries e, v = .map entries ∧ globals.merged (.map entries) = .error e := by
  cases h with
  | invalid hmerged => exact ⟨_, _, rfl, hmerged⟩
  | oversized hsize =>
    refine ⟨_, .tooLarge, rfl, ?_⟩
    rw [Settings.merged_map, Settings.changes_of_oversized hsize]
    rfl

end ClientAnswer

namespace SettingsCache

variable {c : SettingsCache} {v : Value} {t : Settings}

theorem find?_keep (c : SettingsCache) (uri k : String) (t : Settings) :
    (c.keep uri t).find? k = if k = uri then some t else c.find? k :=
  lookup_filter_ne_append c.documents uri k t

theorem find?_forget (c : SettingsCache) (uri k : String) :
    (c.forget uri).find? k = if k = uri then none else c.find? k :=
  lookup_filter_ne c.documents uri k

theorem settle_map (c : SettingsCache) (uri : String) (entries : List (Value × Value)) :
    c.settle uri (.map entries) =
      (c.globals.merged (.map entries)).map fun t => (t, c.keep uri t) := by
  have hmap : (Value.map entries).isMap = true := rfl
  rw [settle, if_pos hmap]
  cases c.globals.merged (.map entries) <;> rfl

theorem settle_of_yields (h : (ClientAnswer.settings v).Yields c.globals t) (uri : String) :
    c.settle uri v = .ok (t, c.keep uri t) := by
  cases h with
  | layer h =>
    rw [settle_map, h]
    rfl
  | noMapping h =>
    rw [settle, if_neg (by simp [h])]
    rfl

/-- Settings that the cache makes from an answer are those that the answer gives. -/
theorem yields_of_settle {c' : SettingsCache} {uri : String} (h : c.settle uri v = .ok (t, c')) :
    (ClientAnswer.settings v).Yields c.globals t := by
  rcases ClientAnswer.yields_or_refused c.globals uri (.settings v) with
    ⟨t', hyields⟩ | ⟨said, e, hrefused⟩
  · rw [settle_of_yields hyields] at h
    obtain ⟨rfl, -⟩ := Prod.mk.inj (Except.ok.inj h)
    exact hyields
  · obtain ⟨entries, e, rfl, hmerged⟩ := hrefused.exists_merged
    rw [settle_map, hmerged] at h
    cases h

end SettingsCache

end FormatServer
