import FormatServer.Document.Store
import FormatServer.Proofs.Lookup

/-!
Which documents are open. Opening and closing concern the one document that a URI names when it is decoded
(`find?_openDocument`, `find?_close`), and a change opens and closes nothing (`contains_change`).
-/

namespace FormatServer.DocumentStore

theorem lookup_put (key k : String) (d : Document) (entries : List (String × Document)) :
    (put key d entries).lookup k = if k = key then some d else entries.lookup k := by
  induction entries with
  | nil => exact lookup_cons_ite key k d []
  | cons entry rest ih =>
    obtain ⟨place, old⟩ := entry
    rw [put]
    by_cases hplace : place = key
    · subst hplace
      rw [if_pos rfl, lookup_cons_ite, lookup_cons_ite]
      by_cases hk : k = place
      · simp [hk]
      · simp [hk]
    · rw [if_neg hplace, lookup_cons_ite, lookup_cons_ite, ih]
      by_cases hk : k = place
      · simp [hk, hplace]
      · simp [hk]

variable {store store' : DocumentStore}

/-- **An opened document is found by every spelling of its URI, and no other document is touched.** -/
theorem find?_openDocument {d : Document} (h : store.openDocument d = .ok store') (uri : String) :
    store'.find? uri = if Uri.decode uri = Uri.decode d.uri then some d else store.find? uri := by
  cases hparse : Uri.parse d.uri.toList with
  | error e =>
    rw [openDocument, hparse] at h
    cases h
  | ok parts =>
    rw [openDocument, hparse] at h
    obtain rfl := Except.ok.inj h
    exact lookup_put _ _ d store.entries

/-- **A closed document is found by no spelling of its URI, and no other document is touched.** -/
theorem find?_close (store : DocumentStore) (closed uri : String) :
    (store.close closed).find? uri =
      if Uri.decode uri = Uri.decode closed then none else store.find? uri :=
  lookup_filter_ne store.entries (Uri.decode closed) (Uri.decode uri)

/-- **A change opens and closes no document.** -/
theorem contains_change {changed : String} {version : Int} {text : String}
    (h : store.change? changed version text = some store') (uri : String) :
    store'.contains uri = store.contains uri := by
  obtain ⟨d, hfind, rfl⟩ := Option.map_eq_some_iff.mp h
  rw [contains, contains, find?, lookup_put]
  by_cases huri : Uri.decode uri = Uri.decode changed
  · have hopen : store.find? uri = some d := by
      rw [find?, huri]
      exact hfind
    rw [if_pos huri, hopen]
    rfl
  · rw [if_neg huri]
    rfl

end FormatServer.DocumentStore
