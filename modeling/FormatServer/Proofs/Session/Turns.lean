import FormatServer.Session.Progress

/-!
What a turn does, by the few things that turns are made of. A relation between a session and what becomes of it
that allows each of them allows every turn (`Turnwise.take`), so what turns leave alone is said of those few things.
-/

namespace FormatServer

namespace Session

/-- A relation between a session and what becomes of it that allows all that turns are made of. -/
structure Turnwise (R : Session → Session → Prop) : Prop where
  refl : ∀ s, R s s
  trans : ∀ {s₁ s₂ s₃}, R s₁ s₂ → R s₂ s₃ → R s₁ s₃
  /-- something is said, or done on the disk or with processes, or a timer is set -/
  does : ∀ s disk trace timers orphans launched nextToken,
    R s { s with disk, trace, timers, orphans, launched, nextToken }
  /-- settings of documents are kept or dropped -/
  keep : ∀ s documents, R s { s with cache := { s.cache with documents } }
  enqueue : ∀ s t, R s (s.enqueue t)
  /-- a request waits in a phase in which it has not ended -/
  wait : ∀ s (j : Job) p, (∀ r, p ≠ .done r) → R s (s.setJob { j with phase := p })
  proceed : ∀ s j p, R s (s.proceed j p)
  finish : ∀ s j r, R s (s.finish j r)

namespace Turnwise

variable {R : Session → Session → Prop}

private theorem send (h : Turnwise R) (s : Session) (m : Outgoing) : R s (s.send m) :=
  h.does s s.disk _ s.timers s.orphans s.launched s.nextToken

private theorem absorb (h : Turnwise R) (s : Session) (d : Disk) (events : List RunEvent) :
    R s (s.absorb d events) :=
  h.does s d _ s.timers s.orphans s.launched s.nextToken

private theorem schedule (h : Turnwise R) (s : Session) (delay : Nat) (t : Turn) :
    R s (s.schedule delay t) :=
  h.does s s.disk s.trace _ s.orphans s.launched s.nextToken

private theorem takeToken (h : Turnwise R) (s : Session) : R s s.takeToken.2 :=
  h.does s s.disk s.trace s.timers s.orphans s.launched (s.nextToken + 1)

private theorem launches (h : Turnwise R) (s : Session) :
    R s { s with launched := s.launched + 1 } :=
  h.does s s.disk s.trace s.timers s.orphans (s.launched + 1) s.nextToken

private theorem settle (h : Turnwise R) (s : Session) (j : Job) (o : Outcome) : R s (s.settle j o) := by
  cases o with
  | edits edits => exact h.proceed s j _
  | failed e => exact h.trans (h.send s _) (h.proceed _ j _)
  | crashed c => exact h.proceed s j _

/-- A run that ends settles its request. -/
private theorem ends (h : Turnwise R) (s : Session) (j : Job) (stage : Stage Outcome) :
    R s ((s.absorb stage.disk stage.events).settle j stage.result) :=
  h.trans (h.absorb s _ _) (h.settle _ j _)

private theorem connect (h : Turnwise R) (s : Session) (j : Job) (run : Run) (steps : List ScriptStep)
    (turns : Nat) : R s (s.connect j run steps turns) := by
  cases turns with
  | zero =>
    rw [Session.connect, Session.launch]
    split
    · exact h.trans (h.wait s j _ (by simp)) (h.enqueue _ _)
    · exact h.trans (h.schedule s _ _) (h.proceed _ j _)
  | succ turns => exact h.proceed s j _

private theorem startRun (h : Turnwise R) (s : Session) (j : Job) (settings : Settings) :
    R s (s.startRun j settings) := by
  unfold Session.startRun
  split
  · exact h.proceed s j _
  · dsimp only
    split
    · exact h.trans (h.takeToken s) (h.trans (h.absorb _ _ _) (h.settle _ j _))
    · exact h.trans (h.takeToken s) (h.trans (h.absorb _ _ _) (h.trans (h.launches _) (h.connect _ j _ _ _)))

private theorem ask (h : Turnwise R) (s : Session) (j : Job) : R s (s.ask j) := by
  have hsent : R s ((s.takeToken.2.send (.configuration s.takeToken.1 j.uri)).setJob
      { j with phase := .asking }) :=
    h.trans (h.trans (h.takeToken s) (h.send _ _)) (h.wait _ j _ (by simp))
  unfold Session.ask
  dsimp only
  split
  · exact hsent
  · exact h.trans hsent (h.enqueue _ _)

private theorem begin (h : Turnwise R) (s : Session) (j : Job) : R s (s.begin j) := by
  unfold Session.begin
  split
  · exact h.proceed s j _
  · split
    · exact h.settle s j _
    · split
      · exact h.startRun s j _
      · split
        · exact h.startRun s j _
        · exact h.ask s j

private theorem takeReply (h : Turnwise R) (s : Session) (j : Job) (r : ClientReply) :
    R s (s.takeReply j r) := by
  unfold Session.takeReply
  split
  · exact h.proceed s j _
  · exact h.send s _
  · exact h.refl s

private theorem takeAnswer (h : Turnwise R) (s : Session) (j : Job) (a : ClientAnswer) :
    R s (s.takeAnswer j a) := by
  unfold Session.takeAnswer
  split
  · exact h.proceed s j _
  · next v =>
    split
    · next settings cache hsettle =>
      have hcache : cache = { s.cache with documents := cache.documents } := by
        unfold SettingsCache.settle at hsettle
        cases hmerged : s.cache.globals.merged (if v.isMap then v else .null) with
        | error e => simp [hmerged, bind, Except.bind] at hsettle
        | ok t =>
          simp only [hmerged, bind, Except.bind, pure, Except.pure, Except.ok.injEq,
            Prod.mk.injEq] at hsettle
          rw [← hsettle.2]
          rfl
      rw [hcache]
      exact h.trans (h.keep s _) (h.startRun _ j settings)
    · split
      · exact h.settle s j _
      · exact h.proceed s j _

private theorem abandon (h : Turnwise R) (s : Session) (o : Orphan) : R s (s.abandon o) :=
  h.trans (h.does s s.disk s.trace s.timers (s.orphans ++ [o]) s.launched s.nextToken) (h.enqueue _ _)

private theorem playStep (h : Turnwise R) (s : Session) (j : Job) (run : Run)
    (steps : List ScriptStep) : R s (s.playStep j run steps) := by
  unfold Session.playStep
  split
  · exact h.trans (h.absorb s _ _) (h.proceed _ j _)
  · exact h.wait s j _ (by simp)
  · exact h.trans (h.wait s j _ (by simp)) (h.schedule _ _ _)
  · dsimp only
    split
    · exact h.trans (h.absorb s _ _) (h.proceed _ j _)
    · exact h.trans (h.absorb s _ _) (h.trans (h.ends _ j _) (h.abandon _ _))

private theorem resign (h : Turnwise R) (s : Session) (j : Job) (stage : Stage Unit) :
    R s (s.resign j stage) :=
  h.trans (h.absorb s _ _) (h.proceed _ j _)

private theorem bury (h : Turnwise R) (s : Session) (j : Job) (run : Run) (why : Farewell)
    (turns : Nat) : R s (s.bury j run why turns) := by
  cases turns with
  | succ turns => exact h.proceed s j _
  | zero =>
    cases why with
    | expired => exact h.ends s j (run.timeOut s.disk)
    | withdrawn => exact h.resign s j _
    | unconnected => exact h.resign s j _

private theorem kill (h : Turnwise R) (s : Session) (j : Job) (run : Run) (steps : List ScriptStep)
    (why : Farewell) : R s (s.kill j run steps why) := by
  unfold Session.kill
  split
  · exact h.trans (h.absorb s _ _) (h.bury _ j run why _)
  · exact h.trans (h.ends s j _) (h.abandon _ _)

private theorem giveUp (h : Turnwise R) (s : Session) (j : Job) : R s (s.giveUp j) := by
  unfold Session.giveUp
  split
  · exact h.kill s j _ _ _
  · exact h.kill s j _ _ _
  · exact h.kill s j _ _ _
  · exact h.resign s j _
  · exact h.proceed s j _

private theorem advance (h : Turnwise R) (s : Session) (j : Job) : R s (s.advance j) := by
  unfold Session.advance
  split
  · exact h.finish s j _
  · exact h.ends s j _
  · exact h.bury s j _ _ _
  · exact h.bury s j _ _ _
  · exact h.giveUp s j
  · exact h.begin s j
  · exact h.takeAnswer s j _
  · exact h.connect s j _ _ _
  · exact h.playStep s j _ _
  · exact h.bury s j _ _ _
  · exact h.refl s
  · exact h.refl s

private theorem wake (h : Turnwise R) (s : Session) (j : Job) : R s (s.wake j) := by
  unfold Session.wake
  split
  · exact h.playStep s j _ _
  · exact h.refl s

private theorem expire (h : Turnwise R) (s : Session) (j : Job) : R s (s.expire j) := by
  unfold Session.expire
  split
  · exact h.kill s j _ _ _
  · exact h.kill s j _ _ _
  · exact h.refl s

private theorem playOrphan (h : Turnwise R) (s : Session) (o : Orphan) : R s (s.playOrphan o) := by
  have hdoes : ∀ disk trace timers orphans, R s { s with disk, trace, timers, orphans } :=
    fun disk trace timers orphans => h.does s disk trace timers orphans s.launched s.nextToken
  unfold Session.playOrphan
  dsimp only
  split
  · exact hdoes _ _ _ _
  · exact hdoes _ _ _ _
  · exact hdoes _ _ _ _
  · exact h.trans (hdoes _ _ _ _) (h.enqueue _ _)

private theorem withJob (h : Turnwise R) (s : Session) (number : Nat) {f : Session → Job → Session}
    (hf : ∀ j, R s (f s j)) : R s (s.withJob number f) := by
  unfold Session.withJob
  split
  · exact h.refl s
  · exact hf _

/-- **A relation that allows all that turns are made of allows every turn.** -/
theorem take (h : Turnwise R) (s : Session) (t : Turn) : R s (s.take t) := by
  cases t with
  | advance number => exact h.withJob s number (h.advance s)
  | reply number r =>
    exact h.withJob s number (f := fun s j => s.takeReply j r) fun j => h.takeReply s j r
  | wake number => exact h.withJob s number (h.wake s)
  | expire number => exact h.withJob s number (h.expire s)
  | orphan pid =>
    rw [Session.take]
    split
    · exact h.refl s
    · exact h.playOrphan s _
  | opened uri => exact h.send s _
  | closed uri => exact h.trans (h.send s _) (h.keep _ _)

end Turnwise

end Session

end FormatServer
