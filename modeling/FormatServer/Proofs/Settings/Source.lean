import Mathlib.Data.List.Induction
import FormatServer.Proofs.Hooks
import FormatServer.Proofs.Settings.Answer
import FormatServer.Settings.Source

/-!
The settings of documents over any operations, one after another. Main statement
(`settings_kept_until_dropped`): the client is asked for a document exactly when no settings were had from it
since they were last dropped, and until then the very settings are given that were made of its answer, whatever
becomes of the global ones.
-/

namespace FormatServer

/-! ## Closed documents -/

/-- A hook fails, and its exception cannot be told. -/
def Listener.Stops (l : Listener) : Prop :=
  ∃ f cause, l.failure = some f ∧ (l.callback : Callback SettingsCache String).Untold f cause

namespace SettingsCache

/-- What the hooks on a closed document make of a cache, when it is the turn of some of them. -/
private theorem closed_of_calls {c c' : SettingsCache} {before after : List Listener} {uri : String}
    {t : List (HookEvent SettingsCache String)} {escape : Option HookFailure}
    (h : Calls .closed uri (before.map Listener.callback ++ closeHook :: after.map Listener.callback)
      c t c' escape) :
    (∀ l ∈ before, ¬ l.Stops) ∧ c' = c.forget uri ∨ (∃ l ∈ before, l.Stops) ∧ c' = c := by
  induction before generalizing t with
  | nil =>
    have hrest : ∀ {t escape}, Calls .closed uri (after.map Listener.callback) (c.forget uri) t c' escape →
        c' = c.forget uri := by
      intro t escape hrest
      refine hrest.keeps (P := (· = c.forget uri)) (fun other hother s hs => ?_) rfl
      obtain ⟨l, -, rfl⟩ := List.mem_map.mp hother
      exact hs
    cases h with
    | returned hbody h =>
      obtain ⟨-, rfl⟩ := Prod.mk.inj hbody
      exact .inl ⟨by simp, hrest h⟩
    | told hbody | untold hbody => cases (Prod.mk.inj hbody).1
  | cons l rest ih =>
    have hgoes : ∀ {s t}, c = s → ¬ l.Stops →
        Calls .closed uri (rest.map Listener.callback ++ closeHook :: after.map Listener.callback)
          s t c' escape →
        (∀ other ∈ l :: rest, ¬ other.Stops) ∧ c' = c.forget uri ∨
          (∃ other ∈ l :: rest, other.Stops) ∧ c' = c := by
      rintro s t rfl hl h
      rcases ih h with ⟨hall, hc⟩ | ⟨⟨other, hother, hstops⟩, hc⟩
      · exact .inl ⟨List.forall_mem_cons.mpr ⟨hl, hall⟩, hc⟩
      · exact .inr ⟨⟨other, List.mem_cons_of_mem _ hother, hstops⟩, hc⟩
    cases h with
    | returned hbody h =>
      obtain ⟨hnone, hs⟩ := Prod.mk.inj hbody
      refine hgoes hs ?_ h
      rintro ⟨f, cause, hf, -⟩
      cases hnone.symm.trans hf
    | told hbody hname htext h =>
      obtain ⟨hfailure, hs⟩ := Prod.mk.inj hbody
      refine hgoes hs ?_ h
      rintro ⟨f, cause, hf, huntold⟩
      obtain rfl := Option.some.inj (hfailure.symm.trans hf)
      cases huntold with
      | nameless herror => cases hname.symm.trans herror
      | textless _ herror => cases htext.symm.trans herror
    | untold hbody huntold =>
      obtain ⟨hfailure, rfl⟩ := Prod.mk.inj hbody
      exact .inr ⟨⟨l, List.mem_cons_self, _, _, hfailure, huntold⟩, rfl⟩

private theorem calls_documentClosed (c : SettingsCache) (before after : List Listener) (uri : String) :
    ∃ t escape, Calls .closed uri
      (before.map Listener.callback ++ closeHook :: after.map Listener.callback) c t
      (c.documentClosed before after uri) escape := by
  obtain ⟨t, c', escape, hcalls, hrun⟩ := Callbacks.runFrom_broadcast
    { closed := before.map Listener.callback ++ closeHook :: after.map Listener.callback } .closed uri
    { shared := c }
  refine ⟨t, escape, ?_⟩
  rw [documentClosed, hrun]
  exact hcalls

/-- **A closed document is forgotten**, whatever other hooks there are, if none of them ends the broadcast before. -/
theorem documentClosed_of_goes (c : SettingsCache) {before : List Listener} (h : ∀ l ∈ before, ¬ l.Stops)
    (after : List Listener) (uri : String) : c.documentClosed before after uri = c.forget uri := by
  obtain ⟨t, escape, hcalls⟩ := c.calls_documentClosed before after uri
  rcases closed_of_calls hcalls with ⟨-, hc⟩ | ⟨⟨l, hl, hstops⟩, -⟩
  · exact hc
  · exact absurd hstops (h l hl)

/-- The hook of the cache is not called after one that ends the broadcast. -/
theorem documentClosed_of_stops (c : SettingsCache) {before : List Listener} (h : ¬ ∀ l ∈ before, ¬ l.Stops)
    (after : List Listener) (uri : String) : c.documentClosed before after uri = c := by
  obtain ⟨t, escape, hcalls⟩ := c.calls_documentClosed before after uri
  rcases closed_of_calls hcalls with ⟨hall, -⟩ | ⟨-, hc⟩
  · exact absurd hall h
  · exact hc

end SettingsCache

namespace SettingsSource

variable {ε : Type} {s : SettingsSource} {globals t : Settings} {uri other : String}
  {answer : Except ε Value} {op : Operation ε} {ops : List (Operation ε)}

/-! ## Settings that are needed -/

/-- What comes of asking the client: its answer gives settings, which are kept, or there are none. -/
inductive Fetches (s : SettingsSource) (uri : String) : Except ε Value → Supply ε → Prop where
  | given {v : Value} {t : Settings} (h : (ClientAnswer.settings v).Yields s.cache.globals t) :
      Fetches s uri (.ok v) ⟨{ s with cache := s.cache.keep uri t }, .ok t, [uri]⟩
  | failed (cause : ε) : Fetches s uri (.error cause) ⟨s, .error (.client cause), [uri]⟩
  | refused {entries : List (Value × Value)} {e : Settings.Error}
      (h : s.cache.globals.merged (.map entries) = .error e) (hrefusal : e.isRefusal = true) :
      Fetches s uri (.ok (.map entries))
        ⟨s, .error (.refused (.invalidSettings uri e.message)), [uri]⟩
  | unforeseen {entries : List (Value × Value)} {e : Settings.Error}
      (h : s.cache.globals.merged (.map entries) = .error e) (hrefusal : e.isRefusal = false) :
      Fetches s uri (.ok (.map entries)) ⟨s, .error (.unforeseen e), [uri]⟩

theorem get_of_silent (h : s.asks = false) (uri : String) (answer : Except ε Value) :
    s.get uri answer = ⟨s, .ok s.cache.globals, []⟩ := by
  simp [get, h]

theorem get_of_kept (h : s.asks = true) (hfind : s.cache.find? uri = some t)
    (answer : Except ε Value) : s.get uri answer = ⟨s, .ok t, []⟩ := by
  simp [get, h, hfind]

/-- A document of which nothing is kept is asked for. -/
theorem fetches_get (h : s.asks = true) (hfind : s.cache.find? uri = none)
    (answer : Except ε Value) : s.Fetches uri answer (s.get uri answer) := by
  have hget : s.get uri answer = s.fetch uri answer := by simp [get, h, hfind]
  rw [hget]
  cases answer with
  | error cause => exact .failed cause
  | ok v =>
    rw [fetch]
    rcases ClientAnswer.yields_or_refused s.cache.globals uri (.settings v) with
      ⟨t, hyields⟩ | ⟨said, e, hrefused⟩
    · rw [SettingsCache.settle_of_yields hyields]
      exact .given hyields
    · obtain ⟨entries, e, rfl, hmerged⟩ := hrefused.exists_merged
      rw [SettingsCache.settle_map, hmerged]
      dsimp only [Except.map]
      cases hrefusal : e.isRefusal with
      | true => exact .refused hmerged hrefusal
      | false => exact .unforeseen hmerged hrefusal

/-- **What is kept after settings were needed**: for their document, if the client is asked, what was had, and
for others what was kept before. -/
theorem find?_get (s : SettingsSource) (uri : String) (answer : Except ε Value) (other : String) :
    (s.get uri answer).source.cache.find? other =
      if s.asks = true ∧ other = uri then (s.get uri answer).result.toOption
      else s.cache.find? other := by
  cases hasks : s.asks with
  | false => simp [get_of_silent hasks]
  | true =>
    cases hfind : s.cache.find? uri with
    | some t =>
      rw [get_of_kept hasks hfind]
      by_cases hother : other = uri
      · simp [hother, hfind, Except.toOption]
      · simp [hother]
    | none =>
      have hfetches := fetches_get hasks hfind answer
      generalize s.get uri answer = supply at hfetches ⊢
      cases hfetches with
      | given _ => simp [SettingsCache.find?_keep, Except.toOption]
      | failed | refused | unforeseen =>
        by_cases hother : other = uri
        · simp [hother, hfind, Except.toOption]
        · simp [hother]

/-! ## One operation -/

namespace Operation

def uri? : Operation ε → Option String
  | get uri _ | forget uri | close uri _ _ => some uri
  | clear | push _ | ask _ => none

/-- An operation drops what is kept for a document. The closing of it does so if the hook of the cache is called. -/
def Drops (uri : String) : Operation ε → Prop
  | forget u => u = uri
  | close u before _ => u = uri ∧ ∀ l ∈ before, ¬ l.Stops
  | clear => True
  | get _ _ | push _ | ask _ => False

/-- The client is asked in this operation if need be, and settings are had for the document. -/
def Obtains (s : SettingsSource) (uri : String) (t : Settings) (op : Operation ε) : Prop :=
  ∃ answer, op = .get uri answer ∧ s.asks = true ∧ (s.get uri answer).result = .ok t

/-- The client is asked in this operation, and the settings are those that its answer gives on top of the
global ones. -/
def Stores (s : SettingsSource) (uri : String) (t : Settings) (op : Operation ε) : Prop :=
  ∃ v, op = .get uri (.ok v) ∧ s.asks = true ∧
    (s.get uri (.ok v : Except ε Value)).asked = [uri] ∧
    (ClientAnswer.settings v).Yields s.cache.globals t

end Operation

open Operation

theorem find?_updateGlobals (c : SettingsCache) (pushed : Value) (uri : String) :
    ((c.updateGlobals pushed).toOption.getD c).find? uri = c.find? uri := by
  unfold SettingsCache.updateGlobals
  split
  · rfl
  · cases c.globals.merged _ <;> rfl

/-- What is kept for a document stays as long as it is not dropped and the client is not asked for it. -/
private theorem find?_perform_of_rest (s : SettingsSource) (hdrops : ¬ op.Drops uri)
    (hget : ∀ answer, op = .get uri answer → s.asks = false) :
    (s.perform op).cache.find? uri = s.cache.find? uri := by
  cases op with
  | get u answer =>
    refine (find?_get s u answer uri).trans (if_neg ?_)
    rintro ⟨hasks, rfl⟩
    exact absurd (hget answer rfl) (by simp [hasks])
  | forget u => exact (SettingsCache.find?_forget ..).trans (if_neg (Ne.symm hdrops))
  | close u before after =>
    rw [perform]
    by_cases hgoes : ∀ l ∈ before, ¬ l.Stops
    · rw [SettingsCache.documentClosed_of_goes _ hgoes]
      exact (SettingsCache.find?_forget ..).trans (if_neg fun heq => hdrops ⟨heq.symm, hgoes⟩)
    · rw [SettingsCache.documentClosed_of_stops _ hgoes]
  | clear => exact absurd trivial hdrops
  | push pushed => exact find?_updateGlobals s.cache pushed uri
  | ask on => rfl

private theorem find?_perform_of_drops (s : SettingsSource) (h : op.Drops uri) :
    (s.perform op).cache.find? uri = none := by
  cases op with
  | forget u =>
    obtain rfl : u = uri := h
    exact (SettingsCache.find?_forget ..).trans (if_pos rfl)
  | close u before after =>
    obtain ⟨rfl, hgoes⟩ := h
    rw [perform, SettingsCache.documentClosed_of_goes _ hgoes]
    exact (SettingsCache.find?_forget ..).trans (if_pos rfl)
  | clear => rfl
  | get u answer => exact absurd h id
  | push pushed => exact absurd h id
  | ask on => exact absurd h id

/-- **What is kept for a document was kept before and not dropped, or has just been had.** -/
theorem find?_perform (s : SettingsSource) (op : Operation ε) (uri : String) (t : Settings) :
    (s.perform op).cache.find? uri = some t ↔
      s.cache.find? uri = some t ∧ ¬ op.Drops uri ∨ Obtains s uri t op := by
  by_cases hdrops : op.Drops uri
  · have hnone : ¬ Obtains s uri t op := by
      rintro ⟨answer, rfl, -⟩
      exact hdrops
    simp [find?_perform_of_drops s hdrops, hdrops, hnone]
  by_cases hget : ∃ answer, op = .get uri answer ∧ s.asks = true
  · obtain ⟨answer, rfl, hasks⟩ := hget
    have hhad : (s.perform (.get uri answer)).cache.find? uri = some t ↔
        (s.get uri answer).result = .ok t := by
      rw [perform, find?_get, if_pos ⟨hasks, rfl⟩]
      cases (s.get uri answer).result <;> simp [Except.toOption]
    refine hhad.trans ⟨fun h => .inr ⟨answer, rfl, hasks, h⟩, ?_⟩
    rintro (⟨hfind, -⟩ | ⟨answer', heq, -, hresult⟩)
    · rw [get_of_kept hasks hfind]
    · obtain ⟨-, rfl⟩ := Operation.get.inj heq
      exact hresult
  · have hsame := find?_perform_of_rest s hdrops fun answer heq =>
      Bool.eq_false_iff.mpr fun hasks => hget ⟨answer, heq, hasks⟩
    have hnone : ¬ Obtains s uri t op := by
      rintro ⟨answer, heq, hasks, -⟩
      exact hget ⟨answer, heq, hasks⟩
    simp [hsame, hdrops, hnone]

/-- **An operation on one document leaves what is kept for others.** -/
theorem find?_perform_of_ne (s : SettingsSource) (hclear : op ≠ .clear)
    (h : op.uri? ≠ some other) : (s.perform op).cache.find? other = s.cache.find? other := by
  have hne : ∀ {u : String}, op.uri? = some u → u ≠ other := by
    rintro u hu rfl
    exact h hu
  refine find?_perform_of_rest s ?_ ?_
  · cases op with
    | forget u => exact hne rfl
    | close u before after => exact fun hdrops => hne rfl hdrops.1
    | clear => exact absurd rfl hclear
    | get u answer => exact id
    | push pushed => exact id
    | ask on => exact id
  · rintro answer rfl
    exact absurd rfl h

/-- Only a push changes the global settings. -/
theorem globals_perform (s : SettingsSource) (h : ∀ pushed, op ≠ .push pushed) :
    (s.perform op).cache.globals = s.cache.globals := by
  cases op with
  | get uri answer =>
    cases hasks : s.asks with
    | false => rw [perform, get_of_silent hasks]
    | true =>
      cases hfind : s.cache.find? uri with
      | some t => rw [perform, get_of_kept hasks hfind]
      | none =>
        have hfetches := fetches_get hasks hfind answer
        rw [perform]
        generalize s.get uri answer = supply at hfetches ⊢
        cases hfetches <;> rfl
  | close uri before after =>
    rw [perform]
    by_cases hgoes : ∀ l ∈ before, ¬ l.Stops
    · rw [SettingsCache.documentClosed_of_goes _ hgoes]
      rfl
    · rw [SettingsCache.documentClosed_of_stops _ hgoes]
  | push pushed => exact absurd rfl (h pushed)
  | forget uri => rfl
  | clear => rfl
  | ask on => rfl

/-! ## Any operations -/

section Since

/-- One of the operations, done to what those before it have made of the source, is as `P` says, and none
since then drops what is kept for the document. -/
def Since (globals : Settings) (ops : List (Operation ε)) (uri : String)
    (P : SettingsSource → Operation ε → Prop) : Prop :=
  ∃ before op after, ops = before ++ op :: after ∧ P (run (start globals) before) op ∧
    ∀ later ∈ after, ¬ later.Drops uri

variable {P : SettingsSource → Operation ε → Prop}

@[simp] theorem not_since_nil : ¬ Since (ε := ε) globals [] uri P := by
  rintro ⟨before, op, after, hsplit, -⟩
  simp at hsplit

theorem since_concat :
    Since globals (ops ++ [op]) uri P ↔
      Since globals ops uri P ∧ ¬ op.Drops uri ∨ P (run (start globals) ops) op := by
  constructor
  · rintro ⟨before, x, after, hsplit, hx, hafter⟩
    rcases List.eq_nil_or_concat after with rfl | ⟨after, y, rfl⟩
    · obtain ⟨rfl, heq⟩ := List.append_inj' hsplit rfl
      obtain rfl := List.singleton_inj.mp heq
      exact .inr hx
    · rw [List.concat_eq_append] at hsplit hafter
      rw [← List.cons_append, ← List.append_assoc] at hsplit
      obtain ⟨rfl, heq⟩ := List.append_inj' hsplit rfl
      obtain rfl := List.singleton_inj.mp heq
      refine .inl ⟨⟨before, x, after, rfl, hx, ?_⟩, ?_⟩
      · exact fun later hlater => hafter later (List.mem_append_left _ hlater)
      · exact hafter op (List.mem_append_right _ List.mem_cons_self)
  · rintro (⟨⟨before, x, after, rfl, hx, hafter⟩, hop⟩ | hop)
    · refine ⟨before, x, after ++ [op], by simp, hx, fun later hlater => ?_⟩
      rcases List.mem_append.mp hlater with hlater | hlater
      · exact hafter later hlater
      · exact List.mem_singleton.mp hlater ▸ hop
    · exact ⟨ops, op, [], rfl, hop, by simp⟩

end Since

theorem run_concat (s : SettingsSource) (ops : List (Operation ε)) (op : Operation ε) :
    s.run (ops ++ [op]) = (s.run ops).perform op := by
  rw [run, List.foldl_append]
  rfl

/-- **What is kept for a document are the settings that were had for it and not dropped since.** -/
theorem find?_run (globals : Settings) (ops : List (Operation ε)) (uri : String) (t : Settings) :
    (run (start globals) ops).cache.find? uri = some t ↔
      Since globals ops uri fun s => Obtains s uri t := by
  induction ops using List.reverseRecOn with
  | nil => exact iff_of_false (by simp [run, start, SettingsCache.find?]) not_since_nil
  | append_singleton ops op ih => rw [run_concat, find?_perform, since_concat, ih]

/-- Settings that are had anew are what the answer gives, and all others were kept. -/
private theorem stores_of_obtains (h : Obtains s uri t op) :
    s.cache.find? uri = some t ∧ ¬ op.Drops uri ∨ Stores s uri t op := by
  obtain ⟨answer, rfl, hasks, hresult⟩ := h
  cases hfind : s.cache.find? uri with
  | some t' =>
    rw [get_of_kept hasks hfind] at hresult
    obtain rfl := Except.ok.inj hresult
    exact .inl ⟨rfl, id⟩
  | none =>
    have hfetches := fetches_get hasks hfind answer
    generalize hsupply : s.get uri answer = supply at hfetches hresult
    cases hfetches with
    | given hyields =>
      obtain rfl := Except.ok.inj hresult
      exact .inr ⟨_, rfl, hasks, by rw [hsupply], hyields⟩
    | failed | refused | unforeseen => cases hresult

/-- **What is kept for a document was made of an answer for it** and of what the global settings were then. -/
theorem stored_of_find? (globals : Settings) (ops : List (Operation ε)) (uri : String)
    (h : (run (start globals) ops).cache.find? uri = some t) :
    Since globals ops uri fun s => Stores s uri t := by
  induction ops using List.reverseRecOn with
  | nil => simp [run, start, SettingsCache.find?] at h
  | append_singleton ops op ih =>
    rw [run_concat, find?_perform] at h
    have hkept : ∀ hfind : (run (start globals) ops).cache.find? uri = some t ∧ ¬ op.Drops uri,
        Since globals (ops ++ [op]) uri fun s => Stores s uri t :=
      fun ⟨hfind, hdrops⟩ => since_concat.mpr (.inl ⟨ih hfind, hdrops⟩)
    rcases h with h | h
    · exact hkept h
    · rcases stores_of_obtains h with hfind | hstores
      · exact hkept hfind
      · exact since_concat.mpr (.inr hstores)

/-- **Settings are kept until they are dropped.** After any operations, one after another, with any answers of
the client: as long as it is not asked, the global settings are given and nothing else happens. Else, if
settings were had from it for a document since those of the document were last dropped, the very same are given
and it is not asked; otherwise it is asked once, for that document, and what it answers is kept if it gives
settings. Settings that are had are those that one answer gave on top of what the global ones were then. The
cache holds exactly the documents with such settings; an operation on one document, or on none, leaves what is
kept for others; and only a push changes the global settings. -/
theorem settings_kept_until_dropped (globals : Settings) (ops : List (Operation ε)) :
    let s := run (start globals) ops
    let had := fun uri t => Since globals ops uri fun s => Obtains s uri t
    (s.asks = false → ∀ uri (answer : Except ε Value),
      s.get uri answer = ⟨s, .ok s.cache.globals, []⟩) ∧
    (s.asks = true → ∀ uri t (answer : Except ε Value), had uri t →
      s.get uri answer = ⟨s, .ok t, []⟩) ∧
    (s.asks = true → ∀ uri (answer : Except ε Value), (∀ t, ¬ had uri t) →
      (s.get uri answer).asked = [uri] ∧ s.Fetches uri answer (s.get uri answer)) ∧
    (∀ uri t, had uri t → Since globals ops uri fun s => Stores s uri t) ∧
    (∀ uri, s.cache.contains uri = true ↔ ∃ t, had uri t) ∧
    (∀ (op : Operation ε) other, op ≠ .clear → op.uri? ≠ some other →
      (s.perform op).cache.find? other = s.cache.find? other) ∧
    ∀ op : Operation ε, (∀ pushed, op ≠ .push pushed) →
      (s.perform op).cache.globals = s.cache.globals := by
  intro s had
  have hfound : ∀ uri t, had uri t ↔ s.cache.find? uri = some t :=
    fun uri t => (find?_run globals ops uri t).symm
  refine ⟨fun hasks uri answer => get_of_silent hasks uri answer,
    fun hasks uri t answer hhad => get_of_kept hasks ((hfound uri t).mp hhad) answer,
    fun hasks uri answer hnone => ?_, fun uri t hhad => ?_, fun uri => ?_,
    fun op other hclear hne => find?_perform_of_ne s hclear hne,
    fun op hop => globals_perform s hop⟩
  · have hfind : s.cache.find? uri = none :=
      Option.eq_none_iff_forall_ne_some.mpr fun t hfind => hnone t ((hfound uri t).mpr hfind)
    have hfetches := fetches_get hasks hfind answer
    refine ⟨?_, hfetches⟩
    generalize s.get uri answer = supply at hfetches ⊢
    cases hfetches <;> rfl
  · exact stored_of_find? globals ops uri ((hfound uri t).mp hhad)
  · simp only [hfound, SettingsCache.contains, Option.isSome_iff_exists]

/-- Settings that were had are given again when the client would fail, although others were pushed since and
the client was not asked for a while. -/
theorem settings_kept_until_dropped_pushed :
    let uri := "file:///a.src"
    let setting : String → Value := fun text => .map [(.text "tempPrefix", .text text)]
    let ops : List (Operation Unit) := [.ask true, .get uri (.ok (setting "first")),
      .push (setting "second"), .ask false, .ask true]
    let s := (start {}).run ops
    s.cache.globals = { tempPrefix := "second" } ∧
      s.get uri (Except.error ()) = ⟨s, .ok { tempPrefix := "first" }, []⟩ := by
  intro uri setting ops s
  obtain ⟨-, hkept, -⟩ := settings_kept_until_dropped {} ops
  have hhad : Since {} ops uri fun s => Obtains s uri { tempPrefix := "first" } :=
    ⟨[.ask true], _, _, rfl, ⟨_, rfl, rfl, rfl⟩, by simp [Drops]⟩
  exact ⟨rfl, hkept rfl uri { tempPrefix := "first" } (.error ()) hhad⟩

end SettingsSource

end FormatServer
