import Mathlib.Data.List.Basic
import FormatServer.Hooks

/-!
Broadcasts to hooks. Main statement (`broadcasts_ordered`): whatever hooks are added and whichever of their calls
fail, each broadcast calls the hooks of its event in the order in which they were added, and an exception of a call
is logged before the next hook is called. A broadcast comes to its last hook unless an exception cannot be told:
then it ends with the exception that asking for the hook's name or for the text has raised, and the broadcasts
after it go on.
-/

namespace FormatServer

variable {σ π : Type} {event : DocumentEvent} {params : π} {h : Callback σ π} {hooks : List (Callback σ π)}
  {s s' : σ} {t : List (HookEvent σ π)} {escape : Option HookFailure}

/-! ## One broadcast -/

/-- To tell an exception of a hook's call raises this one: the hook has no name, or the exception no text. -/
inductive Callback.Untold (h : Callback σ π) (f cause : HookFailure) : Prop where
  | nameless (hname : h.name = .error cause)
  | textless {name : String} (hname : h.name = .ok name) (htext : (h.failure f).text = .error cause)

/-- Hooks are called one after another with the parameters of an event. From the shared state before that come what
happens, the shared state afterwards, and the exception that ends it if one does. -/
inductive Calls (event : DocumentEvent) (params : π) :
    List (Callback σ π) → σ → List (HookEvent σ π) → σ → Option HookFailure → Prop where
  | nil (s : σ) : Calls event params [] s [] s none
  | returned {h : Callback σ π} {rest : List (Callback σ π)} {s s' s'' : σ} {t : List (HookEvent σ π)}
      {escape : Option HookFailure} (hbody : h.body params s = (none, s'))
      (hrest : Calls event params rest s' t s'' escape) :
      Calls event params (h :: rest) s (.called h params :: t) s'' escape
  | told {h : Callback σ π} {rest : List (Callback σ π)} {s s' s'' : σ} {t : List (HookEvent σ π)}
      {escape : Option HookFailure} {f : HookFailure} {name text : String}
      (hbody : h.body params s = (some f, s')) (hname : h.name = .ok name)
      (htext : (h.failure f).text = .ok text) (hrest : Calls event params rest s' t s'' escape) :
      Calls event params (h :: rest) s
        (.called h params ::
          .logged .error
            ("Error in " ++ event.name ++ " hook " ++ name ++ ": " ++ (h.failure f).kind ++ ": " ++ text) :: t)
        s'' escape
  | untold {h : Callback σ π} {rest : List (Callback σ π)} {s s' : σ} {f cause : HookFailure}
      (hbody : h.body params s = (some f, s')) (huntold : h.Untold f cause) :
      Calls event params (h :: rest) s [.called h params] s' (some cause)

def HookEvent.call? : HookEvent σ π → Option (Callback σ π × π)
  | called hook params => some (hook, params)
  | logged _ _ | escaped _ => none

namespace Calls

/-- **All hooks are called**, each once and in their order, if no exception ends the broadcast. -/
theorem calls (hcalls : Calls event params hooks s t s' none) :
    t.filterMap HookEvent.call? = hooks.map (·, params) := by
  generalize hescape : (none : Option HookFailure) = escape at hcalls
  induction hcalls with
  | nil s => rfl
  | returned _ _ ih | told _ _ _ _ ih =>
    simp only [List.filterMap_cons, HookEvent.call?, List.map_cons, ih hescape]
  | untold => cases hescape

/-- **An exception ends the broadcast at a call** that could not be told, and no later hook is called. -/
theorem escapes {cause : HookFailure} (hcalls : Calls event params hooks s t s' (some cause)) :
    ∃ before h rest f s₁ s₂, hooks = before ++ h :: rest ∧ h.body params s₁ = (some f, s₂) ∧
      h.Untold f cause ∧ t.filterMap HookEvent.call? = (before ++ [h]).map (·, params) := by
  generalize hescape : some cause = escape at hcalls
  induction hcalls with
  | nil => cases hescape
  | @returned first _ _ _ _ _ _ _ _ ih | @told first _ _ _ _ _ _ _ _ _ _ _ _ _ ih =>
    obtain ⟨before, h, rest, f, s₁, s₂, rfl, hbody, huntold, hcalled⟩ := ih hescape
    refine ⟨first :: before, h, rest, f, s₁, s₂, rfl, hbody, huntold, ?_⟩
    simp only [List.filterMap_cons, HookEvent.call?, hcalled, List.cons_append, List.map_cons]
  | @untold h rest s s' f cause' hbody huntold =>
    obtain rfl := Option.some.inj hescape
    exact ⟨[], h, rest, f, s, s', rfl, hbody, huntold, rfl⟩

/-- No exception is seen in what happens within a broadcast. -/
theorem not_escaped (hcalls : Calls event params hooks s t s' escape) (f : HookFailure) :
    .escaped f ∉ t := by
  induction hcalls with
  | nil => simp
  | returned _ _ ih | told _ _ _ _ ih => simpa using ih
  | untold => simp

private theorem after_body {P : σ → Prop} {failure : Option HookFailure}
    (hbody : h.body params s = (failure, s')) (hP : P (h.body params s).2) : P s' := by
  rwa [hbody] at hP

/-- What holds before a broadcast and is undone by no hook holds after it. -/
theorem keeps {P : σ → Prop} (hcalls : Calls event params hooks s t s' escape)
    (hkeep : ∀ other ∈ hooks, ∀ s, P s → P (other.body params s).2) (hs : P s) : P s' := by
  induction hcalls with
  | nil s => exact hs
  | returned hbody _ ih | told hbody _ _ _ ih =>
    obtain ⟨hfirst, hrest⟩ := List.forall_mem_cons.mp hkeep
    exact ih hrest (after_body hbody (hfirst _ hs))
  | untold hbody _ =>
    obtain ⟨hfirst, -⟩ := List.forall_mem_cons.mp hkeep
    exact after_body hbody (hfirst _ hs)

end Calls

namespace Callbacks

private theorem call_returned {w : HookState σ π} (hbody : h.body params w.shared = (none, s)) :
    (h.call params).runFrom w = (.ok (), ⟨s, w.events ++ [.called h params]⟩) := by
  simp [Callback.call, HookM.runFrom_bind, hbody]

private theorem call_failed {w : HookState σ π} {f : HookFailure}
    (hbody : h.body params w.shared = (some f, s)) :
    (h.call params).runFrom w = (.error (h.failure f), ⟨s, w.events ++ [.called h params]⟩) := by
  simp [Callback.call, HookM.runFrom_bind, hbody]

/-- What comes of hooks after the first of them has failed. -/
private theorem callEach_of_failed (event : DocumentEvent) {w : HookState σ π} {f : HookFailure}
    (hbody : h.body params w.shared = (some f, s)) (rest : List (Callback σ π)) :
    let called : HookState σ π := ⟨s, w.events ++ [.called h params]⟩
    (callEach event params (h :: rest)).runFrom w = match h.report event (h.failure f) with
      | .ok text => (callEach event params rest).runFrom ⟨s, called.events ++ [.logged .error text]⟩
      | .error cause => (.error cause, called) := by
  simp only [callEach, HookM.runFrom_bind, HookM.runFrom_tryCatch, call_failed hbody, Callback.tell]
  cases h.report event (h.failure f) with
  | ok text => rfl
  | error cause => rfl

/-- An exception is told, or asking for the name or for the text raises another. -/
private theorem report_cases (h : Callback σ π) (event : DocumentEvent) (f : HookFailure) :
    (∃ name text, h.name = .ok name ∧ (h.failure f).text = .ok text ∧
      h.report event (h.failure f) =
        .ok ("Error in " ++ event.name ++ " hook " ++ name ++ ": " ++ (h.failure f).kind ++ ": " ++ text)) ∨
      ∃ cause, h.Untold f cause ∧ h.report event (h.failure f) = .error cause := by
  unfold Callback.report
  cases hname : h.name with
  | error cause => exact .inr ⟨cause, .nameless hname, rfl⟩
  | ok name =>
    cases htext : (h.failure f).text with
    | error cause => exact .inr ⟨cause, .textless hname htext, rfl⟩
    | ok text => exact .inl ⟨name, text, rfl, rfl, rfl⟩

private def ended : Option HookFailure → Except HookFailure Unit
  | none => .ok ()
  | some f => .error f

/-- **Hooks are called one after another** until one cannot be told. -/
private theorem runFrom_callEach (event : DocumentEvent) (params : π) (hooks : List (Callback σ π))
    (w : HookState σ π) :
    ∃ t s escape, Calls event params hooks w.shared t s escape ∧
      (callEach event params hooks).runFrom w = (ended escape, ⟨s, w.events ++ t⟩) := by
  induction hooks generalizing w with
  | nil => exact ⟨[], w.shared, none, .nil _, by simp [callEach, ended]⟩
  | cons h rest ih =>
    cases hbody : h.body params w.shared with
    | mk failure s =>
      cases failure with
      | none =>
        obtain ⟨t, s', escape, hrest, hrun⟩ := ih ⟨s, w.events ++ [.called h params]⟩
        refine ⟨_, s', escape, .returned hbody hrest, ?_⟩
        rw [List.append_assoc] at hrun
        simpa [callEach, HookM.runFrom_bind, HookM.runFrom_tryCatch, call_returned hbody] using hrun
      | some f =>
        have hfailed := callEach_of_failed event hbody rest
        rcases report_cases h event f with ⟨name, text, hname, htext, hreport⟩ | ⟨cause, huntold, hreport⟩
        · rw [hreport] at hfailed
          obtain ⟨t, s', escape, hrest, hrun⟩ := ih ⟨s, _⟩
          refine ⟨_, s', escape, .told hbody hname htext hrest, hfailed.trans (hrun.trans ?_)⟩
          simp
        · rw [hreport] at hfailed
          exact ⟨_, s, some cause, .untold hbody huntold, hfailed⟩

/-- What a broadcast leaves behind when it is made. -/
theorem runFrom_broadcast (r : Callbacks σ π) (event : DocumentEvent) (params : π) (w : HookState σ π) :
    ∃ t s escape, Calls event params (r.ofEvent event) w.shared t s escape ∧
      ((r.broadcast event params).runFrom w).2 = ⟨s, w.events ++ t⟩ := by
  obtain ⟨t, s, escape, hcalls, hrun⟩ := runFrom_callEach event params (r.ofEvent event) w
  exact ⟨t, s, escape, hcalls, congrArg Prod.snd hrun⟩

end Callbacks

/-! ## Hooks that are added -/

def addedFor (event : DocumentEvent) (added : List (DocumentEvent × Callback σ π)) : List (Callback σ π) :=
  (added.filter (·.1 = event)).map (·.2)

private def Callbacks.Holds (r : Callbacks σ π) (added : List (DocumentEvent × Callback σ π)) : Prop :=
  ∀ event, r.ofEvent event = addedFor event added

private theorem Callbacks.holds_nil : ({} : Callbacks σ π).Holds [] := by
  intro event
  cases event <;> rfl

private theorem Callbacks.Holds.add {r : Callbacks σ π} {added : List (DocumentEvent × Callback σ π)}
    (hr : r.Holds added) (event : DocumentEvent) (h : Callback σ π) :
    (r.add event h).Holds (added ++ [(event, h)]) := by
  intro other
  have hother := hr other
  by_cases heq : event = other
  · subst heq
    cases event <;> simp_all [addedFor, Callbacks.add, Callbacks.ofEvent]
  · have hadd : (r.add event h).ofEvent other = r.ofEvent other := by
      cases event <;> cases other <;> first | rfl | exact absurd rfl heq
    rw [hadd, hother]
    simp [addedFor, heq]

/-! ## Many broadcasts -/

/-- What the broadcasts of a sequence leave behind, one trace for each of them, when some hooks were added before:
each calls the hooks that were added for its event so far, in the shared state that the one before it left. -/
inductive Broadcasts : List (DocumentEvent × Callback σ π) → List (HookStep σ π) → σ →
    List (List (HookEvent σ π)) → σ → Prop where
  | nil (added : List (DocumentEvent × Callback σ π)) (s : σ) : Broadcasts added [] s [] s
  | add {added : List (DocumentEvent × Callback σ π)} {event : DocumentEvent} {h : Callback σ π}
      {rest : List (HookStep σ π)} {s s' : σ} {traces : List (List (HookEvent σ π))}
      (hrest : Broadcasts (added ++ [(event, h)]) rest s traces s') :
      Broadcasts added (.add event h :: rest) s traces s'
  | broadcast {added : List (DocumentEvent × Callback σ π)} {event : DocumentEvent} {params : π}
      {rest : List (HookStep σ π)} {s s' s'' : σ} {t : List (HookEvent σ π)} {escape : Option HookFailure}
      {traces : List (List (HookEvent σ π))}
      (hcalls : Calls event params (addedFor event added) s t s' escape)
      (hrest : Broadcasts added rest s' traces s'') :
      Broadcasts added (.broadcast event params :: rest) s
        ((t ++ escape.toList.map .escaped) :: traces) s''

def dueCalls (added : List (DocumentEvent × Callback σ π)) :
    List (HookStep σ π) → List (List (Callback σ π × π))
  | [] => []
  | .add event h :: rest => dueCalls (added ++ [(event, h)]) rest
  | .broadcast event params :: rest => (addedFor event added).map (·, params) :: dueCalls added rest

/-- A broadcast that makes the calls it has to make, or ends with an exception at a call that cannot be told. -/
inductive Serves (due : List (Callback σ π × π)) (t : List (HookEvent σ π)) : Prop where
  | complete (hcalls : t.filterMap HookEvent.call? = due) (hnone : ∀ f, .escaped f ∉ t)
  | cut {before rest : List (Callback σ π × π)} {h : Callback σ π} {params : π} {f cause : HookFailure}
      {s s' : σ} {t' : List (HookEvent σ π)} (hdue : due = before ++ (h, params) :: rest)
      (hcalls : t'.filterMap HookEvent.call? = before ++ [(h, params)])
      (hbody : h.body params s = (some f, s')) (huntold : h.Untold f cause)
      (ht : t = t' ++ [.escaped cause])

private theorem Calls.serves (hcalls : Calls event params hooks s t s' escape) :
    Serves (hooks.map (·, params)) (t ++ escape.toList.map .escaped) := by
  cases escape with
  | none =>
    rw [Option.toList_none, List.map_nil, List.append_nil]
    exact .complete hcalls.calls hcalls.not_escaped
  | some cause =>
    obtain ⟨before, h, rest, f, s₁, s₂, rfl, hbody, huntold, hcalled⟩ := hcalls.escapes
    have hdue : (before ++ h :: rest).map (·, params) =
        before.map (·, params) ++ (h, params) :: rest.map (·, params) := by simp
    exact .cut hdue (by simpa using hcalled) hbody huntold rfl

private theorem Broadcasts.serves {added : List (DocumentEvent × Callback σ π)} {steps : List (HookStep σ π)}
    {traces : List (List (HookEvent σ π))} (h : Broadcasts added steps s traces s') :
    List.Forall₂ Serves (dueCalls added steps) traces := by
  induction h with
  | nil => exact .nil
  | add _ ih => exact ih
  | broadcast hcalls _ ih => exact .cons hcalls.serves ih

private theorem runFrom_run {r : Callbacks σ π} {added : List (DocumentEvent × Callback σ π)}
    (hr : r.Holds added) (steps : List (HookStep σ π)) (w : HookState σ π) :
    ∃ traces s, Broadcasts added steps w.shared traces s ∧
      (r.run steps).runFrom w = (.ok (), ⟨s, w.events ++ traces.flatten⟩) := by
  induction steps generalizing r added w with
  | nil => exact ⟨[], w.shared, .nil _ _, by simp [Callbacks.run]⟩
  | cons step rest ih =>
    cases step with
    | add event h =>
      obtain ⟨traces, s, hrest, hrun⟩ := ih (hr.add event h) w
      exact ⟨traces, s, .add hrest, hrun⟩
    | broadcast event params =>
      obtain ⟨t, s, escape, hcalls, hfirst⟩ :=
        Callbacks.runFrom_callEach event params (r.ofEvent event) w
      obtain ⟨traces, s', hrest, hrun⟩ := ih hr ⟨s, w.events ++ (t ++ escape.toList.map .escaped)⟩
      refine ⟨_, s', .broadcast (hr event ▸ hcalls) hrest, ?_⟩
      rw [Callbacks.run, HookM.runFrom_bind, HookM.runFrom_tryCatch, Callbacks.broadcast, hfirst]
      cases escape with
      | none => simpa [Callbacks.ended] using hrun
      | some f => simpa [Callbacks.ended] using hrun

/-- All exceptions of a hook can be told. -/
structure Callback.Told (h : Callback σ π) : Prop where
  name : ∃ name, h.name = .ok name
  text : ∀ params s f s', h.body params s = (some f, s') → ∃ text, (h.failure f).text = .ok text

theorem Callback.Told.not_untold {f cause : HookFailure} (h : Callback σ π) (htold : h.Told)
    (hbody : h.body params s = (some f, s')) : ¬ h.Untold f cause := by
  intro huntold
  obtain ⟨name, hname⟩ := htold.name
  obtain ⟨text, htext⟩ := htold.text _ _ _ _ hbody
  cases huntold with
  | nameless herror => cases hname.symm.trans herror
  | textless _ herror => cases htext.symm.trans herror

private theorem mem_dueCalls {added : List (DocumentEvent × Callback σ π)} {steps : List (HookStep σ π)}
    {due : List (Callback σ π × π)} (hdue : due ∈ dueCalls added steps) (hmem : (h, params) ∈ due) :
    (∃ event, (event, h) ∈ added) ∨ ∃ event, .add event h ∈ steps := by
  induction steps generalizing added with
  | nil => cases hdue
  | cons step rest ih =>
    cases step with
    | add event other =>
      rcases ih hdue with ⟨event', hadded⟩ | ⟨event', hadded⟩
      · rcases List.mem_append.mp hadded with hadded | hadded
        · exact .inl ⟨event', hadded⟩
        · obtain ⟨rfl, rfl⟩ := Prod.mk.inj (List.mem_singleton.mp hadded)
          exact .inr ⟨event', List.mem_cons_self⟩
      · exact .inr ⟨event', List.mem_cons_of_mem _ hadded⟩
    | broadcast event _ =>
      rcases List.mem_cons.mp hdue with rfl | hdue
      · obtain ⟨hook, hhook, heq⟩ := List.mem_map.mp hmem
        obtain ⟨rfl, -⟩ := Prod.mk.inj heq
        obtain ⟨⟨event', _⟩, hpair, rfl⟩ := List.mem_map.mp hhook
        exact .inl ⟨event', List.mem_of_mem_filter hpair⟩
      · rcases ih hdue with hadded | ⟨event', hadded⟩
        · exact .inl hadded
        · exact .inr ⟨event', List.mem_cons_of_mem _ hadded⟩

private theorem complete_of_told {dues : List (List (Callback σ π × π))}
    {traces : List (List (HookEvent σ π))} (h : List.Forall₂ Serves dues traces)
    (htold : ∀ due ∈ dues, ∀ call ∈ due, call.1.Told) :
    traces.map (·.filterMap HookEvent.call?) = dues ∧ ∀ t ∈ traces, ∀ f, .escaped f ∉ t := by
  induction h with
  | nil => exact ⟨rfl, by simp⟩
  | cons hserves _ ih =>
    obtain ⟨hfirst, hothers⟩ := List.forall_mem_cons.mp htold
    obtain ⟨hcalls, hnone⟩ := ih hothers
    cases hserves with
    | complete hcalled hnever =>
      exact ⟨by rw [List.map_cons, hcalled, hcalls], List.forall_mem_cons.mpr ⟨hnever, hnone⟩⟩
    | cut hdue _ hbody huntold _ =>
      have hhook := hfirst _ (hdue ▸ List.mem_append_right _ List.mem_cons_self)
      exact absurd huntold (hhook.not_untold _ hbody)

/-- **Broadcasts call their hooks in order, up to one that cannot be told.** Whatever hooks are added and whatever
is broadcast, in any order, and whichever calls fail: what has happened is what each broadcast leaves, one after
another, and each broadcast makes the calls of the hooks that were added for its event, once each, in their order
and with the parameters of the event; an exception of a call is logged after it and before the next one, by the
name of the event and of the hook, the class and the text. It makes all of these calls, or it ends with an
exception at a call that fails and whose hook has no name or whose exception has no text. So no exception leaves a
broadcast when all of them can be told. The exception that is logged is the one that was raised, except for the
end of an iteration in a coroutine. -/
theorem broadcasts_ordered (steps : List (HookStep σ π)) (s : σ) :
    ∃ traces s', (Callbacks.run {} steps).runFrom { shared := s } = (.ok (), ⟨s', traces.flatten⟩) ∧
      Broadcasts [] steps s traces s' ∧
      List.Forall₂ Serves (dueCalls [] steps) traces ∧
      ((∀ event h, .add event h ∈ steps → h.Told) →
        traces.map (·.filterMap HookEvent.call?) = dueCalls [] steps ∧
          ∀ t ∈ traces, ∀ f, .escaped f ∉ t) ∧
      ∀ (h : Callback σ π) (f : HookFailure),
        h.failure f ≠ f ↔ h.coroutine = true ∧ ∃ text, f = .iterationEnd text := by
  obtain ⟨traces, s', htraces, hrun⟩ := runFrom_run Callbacks.holds_nil steps { shared := s }
  refine ⟨traces, s', by simpa using hrun, htraces, htraces.serves, fun htold => ?_, fun h f => ?_⟩
  · refine complete_of_told htraces.serves fun due hdue call hcall => ?_
    rcases mem_dueCalls hdue hcall with ⟨event, hadded⟩ | ⟨event, hadded⟩
    · cases hadded
    · exact htold event call.1 hadded
  · cases hcoroutine : h.coroutine <;> cases f <;>
      simp [Callback.failure, HookFailure.leavingCoroutine, hcoroutine]

/-- A hook without a name that fails ends the broadcast, and the hook after it is not called. -/
example :
    let nameless : HookFailure := .other "AttributeError" "'functools.partial' object has no attribute '__name__'"
    let partly : Callback Unit String :=
      { name := .error nameless, body := fun _ s => (some (.other "ValueError" "m"), s) }
    let second : Callback Unit String := { name := .ok "second", body := fun _ s => (none, s) }
    ((Callbacks.run {} [.add .opened partly, .add .opened second, .broadcast .opened "file:///a"]).runFrom
      { shared := () }).2.events = [.called partly "file:///a", .escaped nameless] := rfl

end FormatServer
