import FormatServer.Proofs.Session.Fetches
import FormatServer.Proofs.Session.OpenDocuments

/-!
Settings that are kept for documents that are not open. Kept settings go by the URI of the request they were
asked for, open documents by the decoded one, and the answer of a client is kept whenever it comes. Main
statement (`lingering_settings`): when no turn is waiting, settings are kept for a document that is not open
exactly when it was closed while the client was being asked for them, or by a happening that does not name the
URI they are kept by (`Lingers`).
-/

namespace FormatServer

open Happening

namespace Happening

def drops (uri : String) : Happening → Bool
  | mark x => x.invalidates uri
  | _ => false

end Happening

/-- The settings of a document linger: they have been kept and not dropped since, and the document has been closed
and not opened since. -/
inductive Lingers (uri : String) (es : List Happening) : Prop where
  /-- The client was asked before the closing, and its answer was kept after it. -/
  | answered {p q r : List Happening} {x : Happening} {n : Nat} {v : Settings}
      (hsplit : es = p ++ x :: (q ++ .mark (.kept n uri v) :: r))
      (hasked : .mark (.asked n uri) ∈ p) (hcloses : x.closes uri = true)
      (hclosed : ∀ y ∈ q ++ r, y.opens uri = false) (hkept : ∀ y ∈ r, y.drops uri = false)
  /-- The document was closed by another spelling of its URI, or its workspace was left. -/
  | unnamed {p q r : List Happening} {x : Happening} {n : Nat} {v : Settings}
      (hsplit : es = p ++ .mark (.kept n uri v) :: (q ++ x :: r))
      (hcloses : x.closes uri = true) (hother : x ≠ .shut uri)
      (hclosed : ∀ y ∈ r, y.opens uri = false) (hkept : ∀ y ∈ q ++ x :: r, y.drops uri = false)

/-! ## Open and closed -/

/-- A document that was closed and has not been opened since is not open. -/
theorem not_open_of_closed {uri : String} {x : Happening} (hx : x.closes uri = true)
    (a : List Happening) {b : List Happening} (hb : ∀ y ∈ b, y.opens uri = false) :
    openAfter uri (a ++ x :: b) = false := by
  induction b using List.reverseRecOn with
  | nil => rw [openAfter_concat, openNext, opens_of_closes hx, hx, Bool.not_true, Bool.and_false,
      Bool.or_false]
  | append_singleton b y ih =>
    have hclosed := ih fun z hz => hb z (List.mem_append_left _ hz)
    have hy := hb y (List.mem_append_right _ List.mem_cons_self)
    rw [← List.cons_append, ← List.append_assoc, openAfter_concat, openNext, hclosed, hy,
      Bool.false_and, Bool.or_false]

/-- A document that was open and is no longer was closed, and has not been opened since. -/
theorem closed_split {uri : String} {p r : List Happening} (hopen : openAfter uri p = true)
    (hclosed : openAfter uri (p ++ r) = false) :
    ∃ a x b, r = a ++ x :: b ∧ x.closes uri = true ∧ ∀ y ∈ b, y.opens uri = false := by
  induction r using List.reverseRecOn with
  | nil => rw [List.append_nil, hopen] at hclosed; cases hclosed
  | append_singleton r y ih =>
    rw [← List.append_assoc, openAfter_concat, openNext, Bool.or_eq_false_iff] at hclosed
    obtain ⟨hy, hstays⟩ := hclosed
    cases hbefore : openAfter uri (p ++ r) with
    | true =>
      have hcloses : y.closes uri = true := by simpa [hbefore] using hstays
      exact ⟨r, y, [], rfl, hcloses, by simp⟩
    | false =>
      obtain ⟨a, x, b, rfl, hx, hb⟩ := ih hbefore
      refine ⟨a, x, b ++ [y], by simp, hx, ?_⟩
      intro z hz
      rcases List.mem_append.mp hz with hz | hz
      · exact hb z hz
      · rwa [List.mem_singleton.mp hz]

/-- The closing of a document is yet to be handled until its settings are dropped. -/
theorem closing_of_shut {uri : String} (a : List Happening) {b : List Happening}
    (hb : .mark (.dropped uri) ∉ b) : closingAfter uri (a ++ .shut uri :: b) = true := by
  induction b using List.reverseRecOn with
  | nil => rw [closingAfter_concat, closingNext, decide_eq_true rfl, Bool.true_or]
  | append_singleton b y ih =>
    have hclosing := ih fun hmem => hb (List.mem_append_left _ hmem)
    have hy : y ≠ .mark (.dropped uri) := by
      rintro rfl
      exact hb (List.mem_append_right _ List.mem_cons_self)
    rw [← List.cons_append, ← List.append_assoc, closingAfter_concat, closingNext, hclosing,
      decide_eq_true hy, Bool.and_self, Bool.or_true]

/-! ## Kept -/

/-- What was kept and not dropped since is there. -/
theorem latest_of_kept {uri : String} {n : Nat} {v : Settings} (a : List Mark) {b : List Mark}
    (hb : ∀ x ∈ b, x.invalidates uri = false) :
    (latest uri (a ++ .kept n uri v :: b)).isSome = true := by
  induction b using List.reverseRecOn with
  | nil => rw [latest_concat, Mark.keptAfter, if_pos rfl, Option.isSome_some]
  | append_singleton b x ih =>
    have hkept := ih fun y hy => hb y (List.mem_append_left _ hy)
    have hx := hb x (List.mem_append_right _ List.mem_cons_self)
    rw [← List.cons_append, ← List.append_assoc, latest_concat]
    cases x with
    | kept job u settings =>
      rw [Mark.keptAfter]
      split
      · rfl
      · exact hkept
    | dropped u =>
      rw [Mark.keptAfter, if_neg (of_decide_eq_false hx)]
      exact hkept
    | cleared => cases hx
    | _ => exact hkept

/-- What is marked in a course happens in it. -/
private theorem mark_split {es : List Happening} {a b : List Mark} {x : Mark}
    (h : es.filterMap mark? = a ++ x :: b) :
    ∃ p q, es = p ++ .mark x :: q ∧ p.filterMap mark? = a ∧ q.filterMap mark? = b := by
  obtain ⟨p, r, rfl, hp, hr⟩ := List.filterMap_eq_append_iff.mp h
  obtain ⟨q, y, t, rfl, hq, hy, ht⟩ := List.filterMap_eq_cons_iff.mp hr
  obtain rfl : y = .mark x := by
    cases y with
    | mark z => exact congrArg Happening.mark (Option.some.inj hy)
    | _ => cases hy
  refine ⟨p ++ q, t, by simp, ?_, ht⟩
  have hnone : q.filterMap mark? = [] := List.filterMap_eq_nil_iff.mpr hq
  rw [List.filterMap_append, hp, hnone, List.append_nil]

private theorem drops_eq_false {uri : String} {es : List Happening} :
    (∀ y ∈ es, y.drops uri = false) ↔ ∀ x ∈ es.filterMap mark?, x.invalidates uri = false := by
  constructor
  · intro h x hx
    obtain ⟨y, hy, hyx⟩ := List.mem_filterMap.mp hx
    cases y with
    | mark z => exact Option.some.inj hyx ▸ h _ hy
    | _ => cases hyx
  · intro h y hy
    cases y with
    | mark z => exact h z (List.mem_filterMap.mpr ⟨_, hy, rfl⟩)
    | _ => rfl

/-- What was kept last, and not dropped since. -/
private theorem kept_split {uri : String} {es : List Happening} {n : Nat} {v : Settings}
    (h : latest uri (es.filterMap mark?) = some (n, v)) :
    ∃ a b, es = a ++ .mark (.kept n uri v) :: b ∧ ∀ y ∈ b, y.drops uri = false := by
  obtain ⟨a, b, hmarks, hb⟩ := latest_split h
  obtain ⟨p, q, hsplit, -, rfl⟩ := mark_split hmarks
  exact ⟨p, q, hsplit, drops_eq_false.mpr hb⟩

/-! ## Courses at rest -/

variable {es : List Happening} {s : Session}

/-- **When no turn is waiting, every closing has been handled.** -/
theorem Course.handled (h : Course es [] s) (hrest : s.ready = []) (hgoing : s.status ≠ .ended)
    {uri : String} {a b : List Happening} (hsplit : es = a ++ .shut uri :: b) :
    .mark (.dropped uri) ∈ b := by
  by_contra hmem
  have hwaiting := h.closing hgoing uri (hsplit ▸ closing_of_shut a hmem)
  rw [hrest] at hwaiting
  cases hwaiting

/-- **What lingers is there, and its document is not open.** -/
theorem Lingers.kept {uri : String} (h : Lingers uri es) :
    (latest uri (es.filterMap mark?)).isSome = true ∧ openAfter uri es = false := by
  cases h with
  | @answered p q r x n v hsplit _ hcloses hclosed hkept =>
    constructor
    · have hmarks : es = (p ++ x :: q) ++ .mark (.kept n uri v) :: r := by simp [hsplit]
      rw [hmarks, List.filterMap_append]
      exact latest_of_kept _ (drops_eq_false.mp hkept)
    · rw [hsplit]
      refine not_open_of_closed hcloses p fun y hy => ?_
      simp only [List.mem_append, List.mem_cons] at hy hclosed
      rcases hy with hy | rfl | hy
      · exact hclosed y (Or.inl hy)
      · rfl
      · exact hclosed y (Or.inr hy)
  | @unnamed p q r x n v hsplit hcloses _ hclosed hkept =>
    constructor
    · rw [hsplit, List.filterMap_append]
      exact latest_of_kept _ (drops_eq_false.mp hkept)
    · have hopen : es = (p ++ .mark (.kept n uri v) :: q) ++ x :: r := by simp [hsplit]
      rw [hopen]
      exact not_open_of_closed hcloses _ hclosed

/-- What was kept was asked for before. -/
private theorem Course.asked_of_kept {turns : List Turn} (h : Course es turns s)
    {a b : List Happening} {n : Nat} {uri : String} {v : Settings}
    (hsplit : es = a ++ .mark (.kept n uri v) :: b) : .mark (.asked n uri) ∈ a := by
  have hfollows := h.history.fetched.follows (a.filterMap mark?) (.kept n uri v) (b.filterMap mark?)
    (by rw [hsplit, List.filterMap_append]; rfl)
  obtain ⟨x, hx, hmark⟩ := List.mem_filterMap.mp hfollows.1
  cases x with
  | mark y => exact Option.some.inj hmark ▸ hx
  | _ => cases hmark

/-- **What is kept for a document that is not open lingers.** -/
theorem Course.lingers (h : Course es [] s) (hrest : s.ready = []) (hgoing : s.status ≠ .ended)
    {uri : String} {n : Nat} {v : Settings}
    (hlatest : latest uri (es.filterMap mark?) = some (n, v)) (hclosed : openAfter uri es = false) :
    Lingers uri es := by
  obtain ⟨a, b, hkept, hb⟩ := kept_split hlatest
  -- The document was open when the client was asked, so it was closed after that.
  obtain ⟨p, r, rfl⟩ := List.append_of_mem (h.asked_of_kept hkept)
  have hopen : openAfter uri (p ++ [.mark (.asked n uri)]) = true := by
    have hbefore : openAfter uri p = true :=
      h.asked p _ (r ++ .mark (.kept n uri v) :: b) (by simp [hkept]) n uri rfl
    rw [openAfter_concat, hbefore]
    rfl
  have hafter : openAfter uri ((p ++ [.mark (.asked n uri)]) ++ (r ++ .mark (.kept n uri v) :: b)) =
      false := by
    rw [← hclosed, hkept]
    simp
  obtain ⟨c, x, d, hx, hcloses, hd⟩ := closed_split hopen hafter
  have hne : x ≠ .mark (.kept n uri v) := by
    rintro rfl
    cases hcloses
  rcases split_cases hx.symm hne with ⟨q, rfl, rfl⟩ | ⟨q, rfl, rfl⟩
  · have hsplit : es = (p ++ .mark (.asked n uri) :: c) ++ x :: (q ++ .mark (.kept n uri v) :: b) := by
      simp [hkept]
    refine .answered hsplit (by simp) hcloses (fun y hy => hd y ?_) hb
    simp only [List.mem_append, List.mem_cons] at hy ⊢
    exact hy.imp id Or.inr
  · refine .unnamed hkept hcloses ?_ hd hb
    rintro rfl
    -- Had the closing named the URI, it would have been handled and nothing kept.
    have hsplit : es = (p ++ .mark (.asked n uri) :: r ++ .mark (.kept n uri v) :: q) ++
        .shut uri :: d := by
      simp [hkept]
    have hdropped := h.handled hrest hgoing hsplit
    have hdrops := hb _ (List.mem_append_right q (List.mem_cons_of_mem _ hdropped))
    simp [drops, Mark.invalidates] at hdrops

/-- Settings that were kept last were asked for after a closing, or kept after it, or the closing does not name
their URI or is yet to be handled. -/
private theorem Course.kept_after_closing {turns : List Turn} (h : Course es turns s)
    {p q b : List Happening} {x : Happening} {n : Nat} {uri : String} {v : Settings}
    (hsplit : es = (p ++ x :: q) ++ b)
    (hlatest : latest uri ((p ++ x :: q).filterMap mark?) = some (n, v))
    (hcloses : x.closes uri = true) :
    .mark (.asked n uri) ∈ q ∨ (.mark (.asked n uri) ∈ p ∧ .mark (.kept n uri v) ∈ q) ∨
      x ≠ .shut uri ∨ closingAfter uri (p ++ x :: q) = true := by
  obtain ⟨a, c, hkept, hc⟩ := kept_split hlatest
  have hne : ∀ y, x ≠ .mark y := by
    rintro y rfl
    cases hcloses
  rcases split_cases hkept (hne _) with ⟨d, rfl, rfl⟩ | ⟨d, _, rfl⟩
  · have hasked : .mark (.asked n uri) ∈ p ++ x :: d :=
      h.asked_of_kept (b := c ++ b) (v := v) (by simp [hsplit])
    simp only [List.mem_append, List.mem_cons, (hne _).symm, false_or] at hasked
    rcases hasked with hasked | hasked
    · exact Or.inr (Or.inl ⟨hasked, List.mem_append_right _ List.mem_cons_self⟩)
    · exact Or.inl (List.mem_append_left _ hasked)
  · by_cases hnamed : x = .shut uri
    · subst hnamed
      refine Or.inr (Or.inr (Or.inr (closing_of_shut p fun hdropped => ?_)))
      have hdrops := hc _ (List.mem_append_right d (List.mem_cons_of_mem _ hdropped))
      simp [drops, Mark.invalidates] at hdrops
    · exact Or.inr (Or.inr (Or.inl hnamed))

/-- **Which settings linger.** In every course:
when no turn is waiting, settings are kept for a document that is not open exactly when they linger: the document
was closed while the client was being asked for them, or by a happening that does not name their URI;
a request that goes on with kept settings goes on with what was kept last, and where the document was closed
before, the client was asked for them after the closing, except when it was asked before and its answer kept after
the closing, or when the closing does not name their URI or is yet to be handled. -/
theorem lingering_settings (h : Course es [] s) (hrest : s.ready = []) (hgoing : s.status ≠ .ended) :
    (∀ uri, (s.cache.contains uri = true ∧ s.isOpen uri = false) ↔ Lingers uri es) ∧
    ∀ a job uri v b, es = a ++ .mark (.used job uri v) :: b →
      ∃ n, latest uri (a.filterMap mark?) = some (n, v) ∧
        ∀ p x q, a = p ++ x :: q → x.closes uri = true →
          .mark (.asked n uri) ∈ q ∨ (.mark (.asked n uri) ∈ p ∧ .mark (.kept n uri v) ∈ q) ∨
            x ≠ .shut uri ∨ closingAfter uri a = true := by
  have hfetched := h.history.fetched
  constructor
  · intro uri
    have hcontains : s.cache.contains uri = (latest uri (es.filterMap mark?)).isSome := by
      rw [SettingsCache.contains, (show s.cache.find? uri = _ from hfetched.settings uri),
        Option.isSome_map]
    rw [hcontains, h.isOpen uri]
    constructor
    · rintro ⟨hsome, hclosed⟩
      obtain ⟨⟨n, v⟩, hlatest⟩ := Option.isSome_iff_exists.mp hsome
      exact h.lingers hrest hgoing hlatest hclosed
    · exact Lingers.kept
  · rintro a job uri v b rfl
    obtain ⟨_, _, n, hlatest⟩ := hfetched.follows (a.filterMap mark?) (.used job uri v)
      (b.filterMap mark?) (by rw [List.filterMap_append]; rfl)
    refine ⟨n, hlatest, ?_⟩
    rintro p x q rfl hcloses
    exact h.kept_after_closing rfl hlatest hcloses

/-- The settings of a document are asked for by another spelling of its URI, and stay when it is closed. -/
theorem lingering_settings_spelling :
    let disk : Disk := ⟨[([['t', 'm', 'p']], .directory)]⟩
    let reply : ClientReply := .result (.list [.map [(.text "command", .list [.text "fmt"])]])
    let first : Session := { directory := .ofString "/tmp", disk, cache := {} }
    let opened := { first with reply }.deliver [
      .ok (.call (.number 1) (.handshake ⟨none, [], [], true, false⟩)),
      .ok (.notice (.opened ⟨"file:///a.src", "text", 1, "a"⟩))]
    let formatted := opened.deliver [.ok (.call (.number 2) (.format "file:///a%2Esrc" none))]
    let closed := formatted.deliver [.ok (.notice (.closed "file:///a.src"))]
    ∃ es, Course es [] closed ∧ closed.ready = [] ∧ closed.status ≠ .ended ∧
      Lingers "file:///a%2Esrc" es := by
  intro disk reply first opened formatted closed
  have hstart : Session.start .null first.directory id disk = .ok first := rfl
  obtain ⟨es₁, hopened⟩ := ((Course.start hstart).surround first.script reply disk).deliver [
    .ok (.call (.number 1) (.handshake ⟨none, [], [], true, false⟩)),
    .ok (.notice (.opened ⟨"file:///a.src", "text", 1, "a"⟩))]
  obtain ⟨es₂, hformatted⟩ :=
    hopened.deliver [.ok (.call (.number 2) (.format "file:///a%2Esrc" none))]
  obtain ⟨es₃, hclosed⟩ := hformatted.deliver [.ok (.notice (.closed "file:///a.src"))]
  have hrest : closed.ready = [] := List.isEmpty_iff.mp (by decide +kernel)
  have hgoing : closed.status ≠ .ended := by decide +kernel
  have hkept : closed.cache.contains "file:///a%2Esrc" = true := by decide +kernel
  have hshut : closed.isOpen "file:///a%2Esrc" = false := by decide +kernel
  have hlingers := (lingering_settings hclosed hrest hgoing).1 "file:///a%2Esrc"
  exact ⟨_, hclosed, hrest, hgoing, hlingers.mp ⟨hkept, hshut⟩⟩

end FormatServer
