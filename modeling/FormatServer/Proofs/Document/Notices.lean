import Mathlib.Data.Set.Card
import FormatServer.Document.Notices
import FormatServer.Proofs.Document.Store

/-!
The open documents after any notices. One notice changes what is found for the key that it concerns, and for no
other (`lookup_perform_of_concerns`, `lookup_perform_of_not`). Main statement (`last_text_shown`): a document is
found exactly when the last notice that opened or closed it opened it, with the version and the text that came last.
-/

namespace FormatServer

namespace DocumentNotice

def key : DocumentNotice → String
  | opened d => Uri.decode d.uri
  | changed uri _ _ | closed uri => Uri.decode uri

/-- A notice concerns the document of a key. One that opens what is no URI concerns none. -/
structure Concerns (n : DocumentNotice) (key : String) : Prop where
  key : n.key = key
  readable : ∀ d, n = .opened d → ∃ u, Uri.parse d.uri.toList = .ok u

def isChange : DocumentNotice → Bool
  | changed _ _ _ => true
  | _ => false

end DocumentNotice

def LeftOpen (key : String) (notices : List DocumentNotice) : Prop :=
  ∃ before d after, notices = before ++ .opened d :: after ∧ (DocumentNotice.opened d).Concerns key ∧
    ∀ n ∈ after, n.Concerns key → n.isChange = true

/-- The document of a key as the notices leave it open: as it was opened last, with the version and the text that
came last. -/
inductive Shows (key : String) (notices : List DocumentNotice) : Document → Prop where
  /-- nothing came since it was opened -/
  | opened (before after : List DocumentNotice) {d : Document}
      (hnotices : notices = before ++ .opened d :: after) (hopens : (DocumentNotice.opened d).Concerns key)
      (hafter : ∀ n ∈ after, ¬ n.Concerns key) : Shows key notices d
  /-- it was changed since, and nothing came after this change -/
  | changed (before between after : List DocumentNotice) {d : Document} {uri : String} {version : Int}
      {text : String}
      (hnotices : notices = before ++ .opened d :: (between ++ .changed uri version text :: after))
      (hopens : (DocumentNotice.opened d).Concerns key)
      (hbetween : ∀ n ∈ between, n.Concerns key → n.isChange = true) (huri : Uri.decode uri = key)
      (hafter : ∀ n ∈ after, ¬ n.Concerns key) : Shows key notices { d with version, text }

namespace DocumentStore

variable {store : DocumentStore} {n : DocumentNotice} {notices : List DocumentNotice} {key : String} {d : Document}

/-! ## One notice -/

theorem perform_of_ok {store' : DocumentStore} (h : store.apply n = .ok store') : store.perform n = store' := by
  rw [perform, h]
  rfl

/-- **A notice that fails leaves the store as it was.** -/
theorem perform_of_error {fault : NoticeFault} (h : store.apply n = .error fault) :
    store.perform n = store := by
  rw [perform, h]
  rfl

/-- A document with a readable URI is put under its decoded URI. -/
theorem perform_opened (store : DocumentStore) {u : Uri} (hparse : Uri.parse d.uri.toList = .ok u) :
    store.perform (.opened d) = ⟨put (Uri.decode d.uri) d store.entries⟩ := by
  refine perform_of_ok ?_
  rw [apply, openDocument, hparse]
  rfl

theorem find?_eq_lookup (store : DocumentStore) (uri : String) :
    store.find? uri = store.entries.lookup (Uri.decode uri) := rfl

def shown (old : Option Document) : DocumentNotice → Option Document
  | .opened d => some d
  | .changed _ version text => old.map fun d => { d with version, text }
  | .closed _ => none

theorem lookup_perform_of_concerns (store : DocumentStore) (h : n.Concerns key) :
    (store.perform n).entries.lookup key = shown (store.entries.lookup key) n := by
  obtain ⟨rfl, hreadable⟩ := h
  cases n with
  | opened d =>
    obtain ⟨u, hparse⟩ := hreadable d rfl
    rw [perform_opened store hparse]
    exact (lookup_put ..).trans (if_pos rfl)
  | changed uri version text =>
    change _ = (store.find? uri).map _
    rw [perform, apply, change?]
    cases hfind : store.find? uri with
    | none => exact hfind
    | some d => exact (lookup_put ..).trans (if_pos rfl)
  | closed uri => exact (lookup_filter_ne ..).trans (if_pos rfl)

/-- **A notice changes nothing of the documents that it does not concern.** -/
theorem lookup_perform_of_not (store : DocumentStore) (h : ¬ n.Concerns key) :
    (store.perform n).entries.lookup key = store.entries.lookup key := by
  cases n with
  | opened d =>
    cases hparse : Uri.parse d.uri.toList with
    | error e =>
      have happly : store.apply (.opened d) = .error (.uri e) := by
        rw [apply, openDocument, hparse]
        rfl
      rw [perform_of_error happly]
    | ok u =>
      have hkey : key ≠ Uri.decode d.uri := by
        rintro rfl
        exact h ⟨rfl, fun d' hd => by cases hd; exact ⟨u, hparse⟩⟩
      rw [perform_opened store hparse]
      exact (lookup_put ..).trans (if_neg hkey)
  | changed uri version text =>
    have hkey : key ≠ Uri.decode uri := by
      rintro rfl
      exact h ⟨rfl, by simp⟩
    rw [perform, apply, change?]
    cases store.find? uri with
    | none => rfl
    | some d => exact (lookup_put ..).trans (if_neg hkey)
  | closed uri =>
    have hkey : key ≠ Uri.decode uri := by
      rintro rfl
      exact h ⟨rfl, by simp⟩
    exact (lookup_filter_ne ..).trans (if_neg hkey)

/-! ## Any notices -/

theorem run_append (store : DocumentStore) (first second : List DocumentNotice) :
    store.run (first ++ second) = (store.run first).run second := List.foldl_append

theorem run_cons (store : DocumentStore) (n : DocumentNotice) (notices : List DocumentNotice) :
    store.run (n :: notices) = (store.perform n).run notices := rfl

theorem lookup_run_of_not (store : DocumentStore) (h : ∀ n ∈ notices, ¬ n.Concerns key) :
    (store.run notices).entries.lookup key = store.entries.lookup key := by
  induction notices generalizing store with
  | nil => rfl
  | cons n rest ih =>
    rw [List.forall_mem_cons] at h
    rw [run_cons, ih _ h.2, lookup_perform_of_not _ h.1]

/-- An open document stays as it was opened but for its version and its text, as long as it is only changed. -/
theorem lookup_run_of_changes (hopen : store.entries.lookup key = some d)
    (h : ∀ n ∈ notices, n.Concerns key → n.isChange = true) :
    ∃ version text, (store.run notices).entries.lookup key = some { d with version, text } := by
  induction notices generalizing store d with
  | nil => exact ⟨d.version, d.text, hopen⟩
  | cons n rest ih =>
    rw [List.forall_mem_cons] at h
    rw [run_cons]
    by_cases hn : n.Concerns key
    · have hshown := lookup_perform_of_concerns store hn
      rw [hopen] at hshown
      cases n with
      | changed uri version text =>
        have hchanged : (store.perform (.changed uri version text)).entries.lookup key =
            some { d with version, text } := hshown
        obtain ⟨version', text', hlast⟩ := ih hchanged h.2
        exact ⟨version', text', hlast⟩
      | opened d' => exact absurd (h.1 hn) Bool.false_ne_true
      | closed uri => exact absurd (h.1 hn) Bool.false_ne_true
    · exact ih ((lookup_perform_of_not store hn).trans hopen) h.2

/-- **What the notices show of a document is found.** -/
theorem lookup_run_of_shows (store : DocumentStore) (h : Shows key notices d) :
    (store.run notices).entries.lookup key = some d := by
  cases h with
  | opened before after hnotices hopens hafter =>
    rw [hnotices, run_append, run_cons, lookup_run_of_not _ hafter]
    exact lookup_perform_of_concerns _ hopens
  | @changed before between after _ uri version text hnotices hopens hbetween huri hafter =>
    obtain ⟨version', text', hlookup⟩ :=
      lookup_run_of_changes (lookup_perform_of_concerns (store.run before) hopens) hbetween
    have hchange : (DocumentNotice.changed uri version text).Concerns key := ⟨huri, by simp⟩
    rw [hnotices, run_append, run_cons, run_append, run_cons, lookup_run_of_not _ hafter,
      lookup_perform_of_concerns _ hchange, hlookup]
    rfl

end DocumentStore

/-! ## What the notices show -/

namespace Shows

variable {n : DocumentNotice} {notices : List DocumentNotice} {key : String} {d : Document}

/-- A notice that concerns another document hides nothing. -/
theorem concat_of_not (h : Shows key notices d) (hn : ¬ n.Concerns key) :
    Shows key (notices ++ [n]) d := by
  have hmore : ∀ {after : List DocumentNotice}, (∀ m ∈ after, ¬ m.Concerns key) →
      ∀ m ∈ after ++ [n], ¬ m.Concerns key := by
    intro after hafter
    rw [List.forall_mem_append, List.forall_mem_singleton]
    exact ⟨hafter, hn⟩
  cases h with
  | opened before after hnotices hopens hafter =>
    exact .opened before (after ++ [n]) (by simp [hnotices]) hopens (hmore hafter)
  | changed before between after hnotices hopens hbetween huri hafter =>
    exact .changed before between (after ++ [n]) (by simp [hnotices]) hopens hbetween huri (hmore hafter)

/-- A change shows its version and its text. -/
theorem concat_changed {uri : String} (h : Shows key notices d) (huri : Uri.decode uri = key)
    (version : Int) (text : String) :
    Shows key (notices ++ [.changed uri version text]) { d with version, text } := by
  have hchange : ∀ {after : List DocumentNotice}, (∀ m ∈ after, ¬ m.Concerns key) →
      ∀ m ∈ after, m.Concerns key → m.isChange = true :=
    fun hafter m hm hconcerns => absurd hconcerns (hafter m hm)
  cases h with
  | opened before after hnotices hopens hafter =>
    exact .changed before after [] (by simp [hnotices]) hopens (hchange hafter) huri (by simp)
  | @changed before between after opened uri' version' text' hnotices hopens hbetween huri' hafter =>
    have hearlier : ∀ m ∈ between ++ .changed uri' version' text' :: after,
        m.Concerns key → m.isChange = true := by
      rw [List.forall_mem_append, List.forall_mem_cons]
      exact ⟨hbetween, fun _ => rfl, hchange hafter⟩
    exact .changed (d := opened) before _ [] (by simp [hnotices]) hopens hearlier huri (by simp)

end Shows

/-- The document of a key is left open when the notices show something of it. -/
theorem Shows.leftOpen {notices : List DocumentNotice} {key : String} {d : Document}
    (h : Shows key notices d) : LeftOpen key notices := by
  cases h with
  | opened before after hnotices hopens hafter =>
    exact ⟨before, _, after, hnotices, hopens, fun n hn hconcerns => absurd hconcerns (hafter n hn)⟩
  | changed before between after hnotices hopens hbetween huri hafter =>
    refine ⟨before, _, _, hnotices, hopens, ?_⟩
    rw [List.forall_mem_append, List.forall_mem_cons]
    exact ⟨hbetween, fun _ => rfl, fun n hn hconcerns => absurd hconcerns (hafter n hn)⟩

namespace DocumentStore

variable {notices : List DocumentNotice} {key : String} {d : Document}

/-- **What is found is what the notices show.** -/
theorem lookup_run (notices : List DocumentNotice) (key : String) (d : Document) :
    (run {} notices).entries.lookup key = some d ↔ Shows key notices d := by
  refine ⟨fun h => ?_, lookup_run_of_shows {}⟩
  induction notices using List.reverseRecOn generalizing d with
  | nil => cases h
  | append_singleton notices n ih =>
    rw [run_append, run_cons] at h
    change ((run {} notices).perform n).entries.lookup key = some d at h
    by_cases hn : n.Concerns key
    · rw [lookup_perform_of_concerns _ hn] at h
      cases n with
      | opened d' =>
        obtain rfl := Option.some.inj h
        exact .opened notices [] rfl hn (by simp)
      | changed uri version text =>
        obtain ⟨d', hlookup, rfl⟩ := Option.map_eq_some_iff.mp h
        exact (ih d' hlookup).concat_changed hn.key version text
      | closed uri => cases h
    · rw [lookup_perform_of_not _ hn] at h
      exact (ih d h).concat_of_not hn

theorem exists_shows_iff : (∃ d, Shows key notices d) ↔ LeftOpen key notices := by
  constructor
  · rintro ⟨d, h⟩
    exact h.leftOpen
  · rintro ⟨before, d, after, hnotices, hopens, hafter⟩
    obtain ⟨version, text, hlookup⟩ :=
      lookup_run_of_changes (lookup_perform_of_concerns (run {} before) hopens) hafter
    rw [← run_cons, ← run_append, ← hnotices] at hlookup
    exact ⟨_, (lookup_run notices key _).mp hlookup⟩

/-! ## How many documents are open -/

theorem mem_keys_iff (entries : List (String × Document)) (key : String) :
    key ∈ entries.map Prod.fst ↔ (entries.lookup key).isSome = true := by
  induction entries with
  | nil => simp
  | cons entry rest ih =>
    obtain ⟨k, d⟩ := entry
    rw [lookup_cons_ite, List.map_cons, List.mem_cons, ih]
    by_cases hk : key = k <;> simp [hk]

theorem nodup_keys_put {entries : List (String × Document)} (key : String) (d : Document)
    (h : (entries.map Prod.fst).Nodup) : ((put key d entries).map Prod.fst).Nodup := by
  induction entries with
  | nil => simp [put]
  | cons entry rest ih =>
    obtain ⟨k, old⟩ := entry
    rw [List.map_cons, List.nodup_cons] at h
    rw [put]
    by_cases hk : k = key
    · rw [if_pos hk, List.map_cons]
      exact List.nodup_cons.mpr h
    · rw [if_neg hk, List.map_cons]
      refine List.nodup_cons.mpr ⟨?_, ih h.2⟩
      rw [mem_keys_iff, lookup_put, if_neg hk, ← mem_keys_iff]
      exact h.1

theorem nodup_keys_perform {store : DocumentStore} (n : DocumentNotice)
    (h : (store.entries.map Prod.fst).Nodup) : ((store.perform n).entries.map Prod.fst).Nodup := by
  cases n with
  | opened d =>
    rw [perform, apply, openDocument]
    cases Uri.parse d.uri.toList with
    | error e => exact h
    | ok u => exact nodup_keys_put _ _ h
  | changed uri version text =>
    rw [perform, apply, change?]
    cases store.find? uri with
    | none => exact h
    | some d => exact nodup_keys_put _ _ h
  | closed uri => exact h.sublist (List.filter_sublist.map Prod.fst)

theorem nodup_keys_run {store : DocumentStore} (notices : List DocumentNotice)
    (h : (store.entries.map Prod.fst).Nodup) : ((store.run notices).entries.map Prod.fst).Nodup := by
  induction notices generalizing store with
  | nil => exact h
  | cons n rest ih => exact ih (nodup_keys_perform n h)

/-- **As many documents are held as keys are left open.** -/
theorem encard_leftOpen (notices : List DocumentNotice) :
    {key | LeftOpen key notices}.encard = (run {} notices).size := by
  have hkeys : {key | LeftOpen key notices} = ((run {} notices).entries.map Prod.fst).toFinset := by
    ext key
    rw [Set.mem_ofPred_eq, ← exists_shows_iff, Finset.mem_coe, List.mem_toFinset, mem_keys_iff,
      Option.isSome_iff_exists]
    exact exists_congr fun d => (lookup_run notices key d).symm
  rw [hkeys, Set.encard_coe_eq_coe_finsetCard, List.toFinset_card_of_nodup, List.length_map, size]
  exact nodup_keys_run notices List.nodup_nil

/-! ## Looking documents up -/

variable {store : DocumentStore} {uri : String}

theorem get_eq_ok_iff : store.get uri = .ok d ↔ store.find? uri = some d := by
  rw [get]
  cases store.find? uri <;> simp

theorem get_eq_error_iff {e : FormatError} :
    store.get uri = .error e ↔ store.find? uri = none ∧ e = .documentNotFound uri := by
  rw [get]
  cases store.find? uri <;> simp [eq_comm]

theorem holds_eq_true_iff {v : Value} :
    store.holds v = true ↔ ∃ uri, v = .text uri ∧ ∃ d, store.get uri = .ok d := by
  simp only [get_eq_ok_iff, ← Option.isSome_iff_exists]
  cases v <;> simp [holds, contains]

theorem get_perform_of_ne (store : DocumentStore) {n : DocumentNotice} (h : n.key ≠ Uri.decode uri) :
    (store.perform n).get uri = store.get uri := by
  rw [get, get, find?_eq_lookup, find?_eq_lookup, lookup_perform_of_not]
  exact fun hconcerns => h hconcerns.key

theorem apply_changed_of_not_open (h : store.find? uri = none) (version : Int) (text : String) :
    store.apply (.changed uri version text) = .error (.notOpen (Uri.decode uri)) := by
  rw [apply, change?, h]
  rfl

/-- **The text that came last is shown.** After any notices, one after another, with their URIs written in any
way: a document is found by a URI exactly when the last notice that opened or closed the document of the same
decoded URI opened it, and what is found is the document as it was opened then, with the version and the text
that came last; its text is read so, too. Else the URI that was asked for is said not to be open. A value is
held exactly when it is a URI by which a document is found, and as many documents are held as there are decoded
URIs that are left open. A notice about one document leaves what is found for others, and a change of a document
that is not open is refused and changes nothing. -/
theorem last_text_shown (notices : List DocumentNotice) :
    let store := run {} notices
    (∀ uri d, store.get uri = .ok d ↔ Shows (Uri.decode uri) notices d) ∧
    (∀ uri, (∃ d, store.get uri = .ok d) ↔ LeftOpen (Uri.decode uri) notices) ∧
    (∀ uri e, store.get uri = .error e ↔
      ¬ LeftOpen (Uri.decode uri) notices ∧ e = .documentNotFound uri) ∧
    (∀ units uri, store.getText units uri none = (store.get uri).map Document.text) ∧
    (∀ v, store.holds v = true ↔ ∃ uri, v = .text uri ∧ ∃ d, store.get uri = .ok d) ∧
    {key | LeftOpen key notices}.encard = store.size ∧
    (∀ (n : DocumentNotice) uri, n.key ≠ Uri.decode uri →
      (store.perform n).get uri = store.get uri ∧
      ∀ units range, (store.perform n).getText units uri range = store.getText units uri range) ∧
    ∀ uri version text, ¬ LeftOpen (Uri.decode uri) notices →
      store.apply (.changed uri version text) = .error (.notOpen (Uri.decode uri)) ∧
      store.perform (.changed uri version text) = store := by
  intro store
  have hfound : ∀ uri d, store.get uri = .ok d ↔ Shows (Uri.decode uri) notices d :=
    fun uri d => get_eq_ok_iff.trans (lookup_run notices (Uri.decode uri) d)
  have hopen : ∀ uri, (∃ d, store.get uri = .ok d) ↔ LeftOpen (Uri.decode uri) notices :=
    fun uri => (exists_congr (hfound uri)).trans exists_shows_iff
  have hnone : ∀ uri, store.find? uri = none ↔ ¬ LeftOpen (Uri.decode uri) notices := by
    intro uri
    rw [← hopen, Option.eq_none_iff_forall_ne_some, not_exists]
    exact forall_congr' fun d => not_congr get_eq_ok_iff.symm
  refine ⟨hfound, hopen, fun uri e => ?_, fun units uri => ?_, fun v => holds_eq_true_iff,
    encard_leftOpen notices, fun n uri hne => ?_, fun uri version text hclosed => ?_⟩
  · rw [get_eq_error_iff, hnone]
  · simp [getText, Document.textIn]
  · have hget := get_perform_of_ne store hne
    exact ⟨hget, fun units range => by rw [getText, getText, hget]⟩
  · have happly := apply_changed_of_not_open ((hnone uri).mpr hclosed) version text
    exact ⟨happly, perform_of_error happly⟩

/-- A document that was opened by one spelling of its URI and changed by another one is found by a third. One
that was closed is not, and a change of it is refused. -/
theorem last_text_shown_spellings :
    let d : Document := ⟨"file:///a%20b", "text", 1, "old"⟩
    let closed := "file:///c"
    let notices : List DocumentNotice := [.opened d, .changed "file:///a b" 2 "new", .closed closed]
    let store := run {} notices
    store.get "file:///%61%20b" = .ok { d with version := 2, text := "new" } ∧
      (store.perform (.opened ⟨closed, "text", 1, ""⟩)).get d.uri = store.get d.uri ∧
      store.apply (.changed closed 2 "new") = .error (.notOpen closed) := by
  intro d closed notices store
  have hspelling : Uri.decode "file:///%61%20b" = "file:///a b" := by decide +kernel
  have hclosed : Uri.decode closed = closed := by decide +kernel
  have hother : closed ≠ "file:///a b" := by decide
  have hkey : Uri.decode d.uri = "file:///a b" := by decide +kernel
  have hparse : Uri.parse "file:///a%20b".toList = .ok ⟨"file".toList, [], "/a%20b".toList⟩ := rfl
  have hopens : (DocumentNotice.opened d).Concerns "file:///a b" :=
    ⟨hkey, fun _ hd => DocumentNotice.opened.inj hd ▸ ⟨_, hparse⟩⟩
  have hshows : Shows "file:///a b" notices { d with version := 2, text := "new" } := by
    refine .changed [] [] [.closed closed] rfl hopens (by simp) (by decide +kernel) ?_
    rw [List.forall_mem_singleton]
    exact fun hconcerns => hother (hclosed.symm.trans hconcerns.key)
  have hempty : (run {} notices).find? closed = none := by decide +kernel
  have hnone : ¬ LeftOpen (Uri.decode closed) notices := by
    rw [← exists_shows_iff]
    rintro ⟨d', h⟩
    exact Option.some_ne_none d' ((lookup_run_of_shows {} h).symm.trans hempty)
  have hne : (DocumentNotice.opened ⟨closed, "text", 1, ""⟩).key ≠ Uri.decode d.uri := by
    rw [hkey, DocumentNotice.key, hclosed]
    exact hother
  obtain ⟨hfound, -, -, -, -, -, hothers, hrefused⟩ := last_text_shown notices
  refine ⟨(hfound _ _).mpr ?_, (hothers _ d.uri hne).1, ?_⟩
  · rw [hspelling]
    exact hshows
  · have hsaid := (hrefused closed 2 "new" hnone).1
    rw [hclosed] at hsaid
    exact hsaid

end DocumentStore

end FormatServer
