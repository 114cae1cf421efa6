import FormatServer.Proofs.Session.Course
import FormatServer.Proofs.Session.Fetches
import FormatServer.Proofs.Session.Turns

/-!
The open documents in a course, and the closings that are yet to be handled. Turns touch no open document and
lose no other turn (`carries_take`), and messages open and close documents as it is noted (`receives`). So a
document is open as what has happened says (`Course.isOpen`), and while the closing of a document has not been
handled, its turn is waiting (`Course.closing`).
-/

namespace FormatServer

open Happening

namespace Session

/-! ## What turns leave alone -/

structure Carries (s s' : Session) : Prop where
  workspace : s'.workspace = s.workspace
  status : s'.status = s.status
  ready : s.ready <+: s'.ready

theorem Carries.trans {s₁ s₂ s₃ : Session} (h : s₁.Carries s₂) (h' : s₂.Carries s₃) :
    s₁.Carries s₃ :=
  ⟨h'.workspace.trans h.workspace, h'.status.trans h.status, h.ready.trans h'.ready⟩

theorem Carries.refl (s : Session) : s.Carries s := ⟨rfl, rfl, List.prefix_rfl⟩

/-- Nothing of the documents and the queue is touched. -/
private theorem carries_of_eq {s s' : Session} (hworkspace : s'.workspace = s.workspace)
    (hstatus : s'.status = s.status) (hready : s'.ready = s.ready) : s.Carries s' :=
  ⟨hworkspace, hstatus, hready ▸ List.prefix_rfl⟩

private theorem carries_send (s : Session) (m : Outgoing) : s.Carries (s.send m) :=
  carries_of_eq rfl rfl rfl

private theorem carries_setJob (s : Session) (j : Job) : s.Carries (s.setJob j) :=
  carries_of_eq rfl rfl rfl

private theorem carries_enqueue (s : Session) (t : Turn) : s.Carries (s.enqueue t) :=
  ⟨rfl, rfl, List.prefix_append _ _⟩

private theorem turnwise_carries : Turnwise Carries where
  refl := .refl
  trans := .trans
  does _ _ _ _ _ _ _ := carries_of_eq rfl rfl rfl
  keep _ _ := carries_of_eq rfl rfl rfl
  enqueue := carries_enqueue
  wait s _ _ _ := carries_setJob s _
  proceed s _ _ := (carries_setJob s _).trans (carries_enqueue _ _)
  finish _ _ _ := carries_of_eq rfl rfl rfl

/-- **Turns touch no open document and lose no other turn.** -/
theorem carries_take (s : Session) (t : Turn) : s.Carries (s.take t) := turnwise_carries.take s t

/-! ## What messages do -/

/-- A message opens and closes documents as it is noted. Unless it ends the session, no turn is lost, and the
closing of a document waits for its turn. -/
structure Receives (s : Session) (x : Option Happening) (s' : Session) : Prop where
  documents : ∀ uri, s'.isOpen uri = x.toList.foldl (openNext uri) (s.isOpen uri)
  turns : s'.status ≠ .ended → s.ready <+: s'.ready ∧ ∀ u, x = some (.shut u) → .closed u ∈ s'.ready

private theorem Carries.isOpen {s s' : Session} (h : s.Carries s') (uri : String) :
    s'.isOpen uri = s.isOpen uri := by
  rw [Session.isOpen, h.workspace]
  rfl

/-- A message that opens and closes nothing. -/
private theorem receives_of_carries {s s' : Session} (h : s.Carries s') {x : Option Happening}
    (hx : ∀ y ∈ x, ∃ m, y = .mark m) : s.Receives x s' := by
  have hdocuments : ∀ (uri : String) (b : Bool), x.toList.foldl (openNext uri) b = b := by
    intro uri b
    cases x with
    | none => rfl
    | some y =>
      obtain ⟨m, rfl⟩ := hx y rfl
      exact openNext_mark uri b m
  refine ⟨fun uri => ?_, fun _ => ⟨h.ready, fun u hu => ?_⟩⟩
  · rw [hdocuments, h.isOpen]
  · obtain ⟨m, hm⟩ := hx _ hu
    cases hm

private theorem receives_none {s s' : Session} (h : s.Carries s') : s.Receives none s' :=
  receives_of_carries h (by simp)

private theorem carries_withdraw (s : Session) (number : Nat) : s.Carries (s.withdraw number) := by
  unfold withdraw
  split
  · exact .refl s
  · dsimp only
    split
    · exact (carries_setJob s _).trans (carries_enqueue _ _)
    · exact (carries_setJob s _).trans (carries_enqueue _ _)
    · exact carries_setJob s _

private theorem carries_cancelAll (s : Session) : s.Carries s.cancelAll := by
  unfold cancelAll
  generalize s.withdrawable = pairs
  induction pairs generalizing s with
  | nil => exact .refl s
  | cons pair rest ih => exact (carries_withdraw s pair.2).trans (ih _)

private theorem carries_cancel (s : Session) (id : RequestId) : s.Carries (s.cancel id) := by
  unfold cancel
  split
  · exact .refl s
  · next number _ =>
    have hbut : s.Carries { s with withdrawable := s.withdrawableBut id } := carries_of_eq rfl rfl rfl
    exact hbut.trans (carries_withdraw _ number)

private theorem carries_configured (s : Session) (pushed : Value) :
    s.Carries (s.configured pushed) := by
  unfold configured
  split
  · exact carries_of_eq rfl rfl rfl
  · split
    · exact carries_of_eq rfl rfl rfl
    · split
      · exact carries_send s _
      · exact carries_send s _

private theorem carries_clientReady (s : Session) : s.Carries s.clientReady := by
  have hwatch : ∀ s : Session,
      s.Carries (if s.folderEvents then { s with watchesFolders := true } else s) := by
    intro s
    split
    · exact carries_of_eq rfl rfl rfl
    · exact .refl s
  unfold clientReady
  dsimp only
  split
  · refine Carries.trans ?_ (hwatch _)
    exact carries_of_eq rfl rfl rfl
  · exact hwatch s

private theorem carries_foldersChanged (s : Session) (changed : Bool) :
    s.Carries (s.foldersChanged changed) := by
  unfold foldersChanged
  split
  · exact carries_send s _
  · split
    · exact carries_send s _
    · exact .refl s

private theorem carries_loadWorkspace {s s' : Session} {root : Path}
    (h : s.loadWorkspace root = .ok s') : s.Carries s' := by
  unfold loadWorkspace at h
  split at h
  · next settings found _ =>
    obtain rfl := Except.ok.inj h
    split
    · exact carries_of_eq rfl rfl rfl
    · exact carries_of_eq rfl rfl rfl
  · split at h
    · obtain rfl := Except.ok.inj h
      exact carries_send s _
    · cases h

/-- A handshake that can be read starts with no document open. -/
private theorem receives_handshake (s : Session) (id : RequestId) (c : ClientProfile) :
    s.Receives (s.observeDocuments (.call id (.handshake c))) (s.handshake id c) := by
  have hx : s.observeDocuments (.call id (.handshake c)) =
      (Uri.parse (c.rootUri.getD "").toList).toOption.map fun _ => .reset := rfl
  rw [hx]
  unfold handshake
  cases Uri.parse (c.rootUri.getD "").toList with
  | error e => exact receives_none (carries_send s _)
  | ok parts =>
    have hmet : ∀ {s' : Session}, (s.meet c).Carries s' → s.Receives (some .reset) s' := by
      intro s' h
      refine ⟨fun uri => ?_, fun _ => ⟨h.ready, fun u hu => by cases hu⟩⟩
      rw [h.isOpen]
      simp [isOpen, meet, DocumentStore.contains, DocumentStore.find?, openNext, opens, closes]
    dsimp only
    split
    · exact hmet (carries_send _ _)
    · split
      · exact hmet (carries_send _ _)
      · split
        · exact hmet (carries_send _ _)
        · exact hmet (carries_send _ _)
        · split
          · next hload => exact hmet ((carries_loadWorkspace hload).trans (carries_send _ _))
          · exact hmet (carries_send _ _)

private theorem isOpen_of_workspace {s : Session} {w : Workspace} (h : s.workspace = some w)
    (uri : String) : s.isOpen uri = w.store.contains uri := by
  rw [isOpen, h]
  rfl

private theorem workspace_setStore {s : Session} {w : Workspace} (h : s.workspace = some w)
    (store : DocumentStore) : (s.setStore store).workspace = some { w with store } := by
  rw [setStore, h]
  rfl

private theorem receives_documentOpened (s : Session) (d : Document) :
    s.Receives (s.observeDocuments (.notice (.opened d))) (s.documentOpened d) := by
  have hx : s.observeDocuments (.notice (.opened d)) =
      s.workspace.bind fun w => (w.store.openDocument d).toOption.map fun _ => .opened d.uri := rfl
  rw [hx]
  unfold documentOpened withStore
  cases hworkspace : s.workspace with
  | none => exact receives_none (carries_send s _)
  | some w =>
    rw [Option.bind_some]
    dsimp only
    cases hopened : w.store.openDocument d with
    | error e => exact receives_none (carries_send s _)
    | ok store =>
      refine ⟨fun uri => ?_, fun _ => ⟨List.prefix_append _ _, fun u hu => by cases hu⟩⟩
      have hopen : ((s.setStore store).enqueue (.opened d.uri)).isOpen uri = store.contains uri :=
        isOpen_of_workspace (workspace_setStore hworkspace store) uri
      have hnext : (Option.some (opened d.uri)).toList.foldl (openNext uri) (s.isOpen uri) =
          (decide (Uri.decode d.uri = Uri.decode uri) || w.store.contains uri) := by
        simp [openNext, opens, closes, isOpen_of_workspace hworkspace]
      refine hopen.trans (Eq.trans ?_ hnext.symm)
      rw [DocumentStore.contains, DocumentStore.find?_openDocument hopened]
      by_cases huri : Uri.decode uri = Uri.decode d.uri
      · simp [huri]
      · simp [huri, Ne.symm huri, DocumentStore.contains]

private theorem contains_changedStore {uri : String} {version : Int} {texts : List String}
    {store store' : DocumentStore} (h : changedStore uri version texts store = some store')
    (u : String) : store'.contains u = store.contains u := by
  induction texts generalizing store with
  | nil => rw [Option.some.inj h]
  | cons text rest ih =>
    obtain ⟨next, hnext, hrest⟩ := Option.bind_eq_some_iff.mp h
    rw [ih hrest, DocumentStore.contains_change hnext]

private theorem receives_documentChanged (s : Session) (uri : String) (version : Int)
    (texts : List String) : s.Receives none (s.documentChanged uri version texts) := by
  unfold documentChanged withStore
  cases hworkspace : s.workspace with
  | none => exact receives_none (carries_send s _)
  | some w =>
    dsimp only
    cases hchanged : changedStore uri version texts w.store with
    | none => exact receives_none (carries_send s _)
    | some store =>
      refine ⟨fun u => ?_, fun _ => ⟨List.prefix_rfl, fun u hu => by cases hu⟩⟩
      have hopen : (s.setStore store).isOpen u = store.contains u :=
        isOpen_of_workspace (workspace_setStore hworkspace store) u
      refine hopen.trans ?_
      rw [contains_changedStore hchanged]
      exact (isOpen_of_workspace hworkspace u).symm

private theorem receives_documentClosed (s : Session) (uri : String) :
    s.Receives (s.observeDocuments (.notice (.closed uri))) (s.documentClosed uri) := by
  have hx : s.observeDocuments (.notice (.closed uri)) = s.workspace.map fun _ => .shut uri := rfl
  rw [hx]
  unfold documentClosed withStore
  cases hworkspace : s.workspace with
  | none => exact receives_none (carries_send s _)
  | some w =>
    refine ⟨fun u => ?_, fun _ => ⟨List.prefix_append _ _, fun u hu => ?_⟩⟩
    · have hopen : ((s.setStore (w.store.close uri)).enqueue (.closed uri)).isOpen u =
          (w.store.close uri).contains u :=
        isOpen_of_workspace (workspace_setStore hworkspace _) u
      refine hopen.trans ?_
      rw [DocumentStore.contains, DocumentStore.find?_close, Option.map_some, Option.toList_some,
        List.foldl_cons, List.foldl_nil, isOpen_of_workspace hworkspace]
      by_cases huri : Uri.decode u = Uri.decode uri
      · simp [openNext, opens, closes, huri]
      · simp [openNext, opens, closes, huri, Ne.symm huri, DocumentStore.contains]
    · obtain rfl := Happening.shut.inj (Option.some.inj hu)
      exact List.mem_append_right _ (List.mem_singleton.mpr rfl)

/-- A message that neither opens nor closes documents leaves at most a mark. -/
private theorem receives_other {s s' : Session} (h : s.Carries s') (m : Incoming)
    (hm : s.observeDocuments m = none) :
    s.Receives ((s.observeDocuments m).or ((s.observeMessage m).map .mark)) s' := by
  rw [hm, Option.none_or]
  refine receives_of_carries h fun y hy => ?_
  obtain ⟨x, _, rfl⟩ := Option.map_eq_some_iff.mp hy
  exact ⟨x, rfl⟩

private theorem receives_handleCall (s : Session) (id : RequestId) (c : Call) :
    s.Receives ((s.observeDocuments (.call id c)).or ((s.observeMessage (.call id c)).map .mark))
      (s.handleCall id c) := by
  cases c with
  | handshake client =>
    have hmessage : s.observeMessage (.call id (.handshake client)) = none := rfl
    rw [hmessage, Option.map_none, Option.or_none]
    exact receives_handshake s id client
  | shutdown =>
    have hcancelled := carries_cancelAll s
    refine ⟨fun uri => hcancelled.isOpen uri, fun _ => ⟨hcancelled.ready, fun u hu => by cases hu⟩⟩
  | format uri range =>
    have haccept : s.Carries (s.accept id uri range) := ⟨rfl, rfl, List.prefix_append _ _⟩
    exact receives_other haccept (.call id (.format uri range)) rfl
  | command name => exact receives_other (carries_send s _) _ rfl
  | other method => exact receives_other (carries_send s _) _ rfl

private theorem receives_exit (s : Session) : s.Receives none s.exit :=
  ⟨fun _ => rfl, fun h => absurd rfl h⟩

private theorem receives_handleNotice (s : Session) (n : Notice) :
    s.Receives ((s.observeDocuments (.notice n)).or ((s.observeMessage (.notice n)).map .mark))
      (s.handleNotice n) := by
  cases n with
  | opened d =>
    have hmessage : s.observeMessage (.notice (.opened d)) = none := rfl
    rw [hmessage, Option.map_none, Option.or_none]
    exact receives_documentOpened s d
  | closed uri =>
    have hmessage : s.observeMessage (.notice (.closed uri)) = none := rfl
    rw [hmessage, Option.map_none, Option.or_none]
    exact receives_documentClosed s uri
  | changed uri version texts => exact receives_documentChanged s uri version texts
  | exit => exact receives_exit s
  | ready => exact receives_other (carries_clientReady s) _ rfl
  | configured settings => exact receives_other (carries_configured s settings) _ rfl
  | folders changed => exact receives_other (carries_foldersChanged s changed) _ rfl
  | cancel id => exact receives_other (carries_cancel s id) _ rfl
  | other => exact receives_other (.refl s) _ rfl

/-- **Messages open and close documents as it is noted.** -/
theorem receives (s : Session) (m : Except MessageFault Incoming) :
    s.Receives (s.happening (.receive m)) (s.receive m) := by
  have hstopped : ∀ {m' : Incoming}, s.status ≠ .running → s.happening (.receive (.ok m')) = none :=
    fun h => if_neg h
  have hhandles := handles_receive s m
  generalize s.receive m = s' at hhandles
  cases hhandles with
  | finished hended =>
    have hnone : s.happening (.receive m) = none := by
      cases m with
      | error fault => rfl
      | ok m => exact hstopped (by simp [hended])
    rw [hnone]
    exact receives_none (.refl s)
  | fault => exact receives_none (carries_send s _)
  | call hrunning id c =>
    rw [happening, if_pos hrunning]
    exact receives_handleCall s id c
  | notice hrunning n =>
    rw [happening, if_pos hrunning]
    exact receives_handleNotice s n
  | ignored hrunning =>
    rw [happening, if_pos hrunning]
    exact receives_none (.refl s)
  | exit _ hother =>
    rw [hstopped hother]
    exact receives_exit s
  | unhandled hother =>
    rw [hstopped hother]
    exact receives_none (.refl s)

/-- A session that goes on after a message went on before. -/
theorem going_of_receive {s : Session} {m : Except MessageFault Incoming}
    (hgoing : (s.receive m).status ≠ .ended) : s.status ≠ .ended := by
  intro hended
  unfold receive at hgoing
  rw [if_pos hended] at hgoing
  exact hgoing hended

/-- A turn leaves at most a mark. -/
private theorem openAfter_turn (s : Session) (t : Turn) (uri : String) (es : List Happening) :
    openAfter uri (es ++ (s.happening (.turn t)).toList) = openAfter uri es := by
  rw [openAfter, List.foldl_append, happening_turn]
  cases s.observeTurn t with
  | none => rfl
  | some x => exact openNext_mark uri _ x

private theorem isOpen_of_advance {s : Session} {j : Job} {n : Nat} {uri : String}
    (h : s.observeAdvance j = some (.asked n uri)) : s.isOpen uri = true := by
  unfold observeAdvance at h
  split at h
  · cases h
  · cases h
  · cases h
  · obtain ⟨_, _, hended⟩ := Option.map_eq_some_iff.mp h
    cases hended
  · unfold observeBegin at h
    split at h
    · cases h
    · next w hworkspace =>
      split at h
      · cases h
      · next hopen =>
        split at h
        · cases h
        · split at h
          · cases h
          · obtain ⟨_, rfl⟩ := Mark.asked.inj (Option.some.inj h)
            rw [isOpen_of_workspace hworkspace]
            simpa using hopen
  · split at h <;> cases h
  · cases h

/-- The client is asked for the settings of a document that is open. -/
private theorem isOpen_of_asked {s : Session} {m : Move} {n : Nat} {uri : String}
    (h : s.happening m = some (.mark (.asked n uri))) : s.isOpen uri = true := by
  have hmark : s.observe m = some (.asked n uri) := by
    have hmarks := mark?_happening s m
    rw [h] at hmarks
    exact Option.toList_eq_singleton_iff.mp hmarks.symm
  obtain ⟨_, j, -, hj⟩ := observeAdvance_of_fetcher hmark (by simp [Mark.fetcher?])
  exact isOpen_of_advance hj

end Session

/-! ## Courses -/

variable {es : List Happening} {turns : List Turn} {s : Session}

/-- **A document is open as what has happened says.** -/
theorem Course.isOpen (h : Course es turns s) (uri : String) : s.isOpen uri = openAfter uri es := by
  induction h with
  | start h =>
    obtain ⟨globals, -, rfl⟩ := Session.eq_of_start h
    rfl
  | receive _ m ih =>
    rw [openAfter, List.foldl_append, (Session.receives _ m).documents, ih]
    rfl
  | gather _ ih => exact ih
  | @take es before after t s _ ih => rw [Session.openAfter_turn, (Session.carries_take s t).isOpen, ih]
  | drift _ hdrift ih =>
    obtain ⟨more, timers, now, rfl⟩ := hdrift
    exact ih
  | surround _ script reply disk ih => exact ih

/-- What is yet to be handled after a happening was closed in it, or was to be handled before and still is. -/
private theorem closing_append_toList {uri : String} {x : Option Happening}
    (h : closingAfter uri (es ++ x.toList) = true) :
    x = some (.shut uri) ∨ closingAfter uri es = true ∧ x ≠ some (.mark (.dropped uri)) := by
  cases x with
  | none =>
    rw [Option.toList_none, List.append_nil] at h
    exact Or.inr ⟨h, by simp⟩
  | some x =>
    rw [Option.toList_some, closingAfter_concat, closingNext, Bool.or_eq_true, Bool.and_eq_true] at h
    rcases h with hshut | ⟨hes, hother⟩
    · exact Or.inl (congrArg some (of_decide_eq_true hshut))
    · exact Or.inr ⟨hes, fun hdropped => of_decide_eq_true hother (Option.some.inj hdropped)⟩

/-- **The closing of a document waits in the queue until it is handled.** -/
theorem Course.closing (h : Course es turns s) (hgoing : s.status ≠ .ended) (uri : String)
    (hclosing : closingAfter uri es = true) : .closed uri ∈ turns ++ s.ready := by
  induction h with
  | start h => cases hclosing
  | @receive es turns s _ m ih =>
    obtain ⟨hready, hshut⟩ := (Session.receives s m).turns hgoing
    rcases closing_append_toList hclosing with hx | ⟨hes, _⟩
    · exact List.mem_append_right _ (hshut uri hx)
    · rcases List.mem_append.mp (ih (Session.going_of_receive hgoing) hes) with hmem | hmem
      · exact List.mem_append_left _ hmem
      · exact List.mem_append_right _ (hready.subset hmem)
  | @gather es turns s _ ih =>
    rw [List.append_nil]
    exact ih hgoing hclosing
  | @take es before after t s _ ih =>
    have hcarries := Session.carries_take s t
    rcases closing_append_toList hclosing with hx | ⟨hes, hx⟩
    · obtain ⟨_, _, hmark⟩ := Option.map_eq_some_iff.mp hx
      cases hmark
    · have hother : t ≠ .closed uri := by
        rintro rfl
        exact hx rfl
      have hmem := ih (hcarries.status ▸ hgoing) hes
      simp only [List.mem_append, List.mem_cons, hother.symm, false_or] at hmem ⊢
      exact hmem.imp id fun hmem => hcarries.ready.subset hmem
  | drift _ hdrift ih =>
    obtain ⟨more, timers, now, rfl⟩ := hdrift
    rw [← List.append_assoc]
    exact List.mem_append_left _ (ih hgoing hclosing)
  | surround _ script reply disk ih => exact ih hgoing hclosing

/-- **The client is only asked for the settings of documents that are open.** -/
theorem Course.asked (h : Course es turns s) :
    ∀ a x b, es = a ++ x :: b → ∀ n uri, x = .mark (.asked n uri) → openAfter uri a = true := by
  have hstep : ∀ {es : List Happening} {turns : List Turn} {s : Session} (_ : Course es turns s)
      (m : Session.Move),
      (∀ a x b, es = a ++ x :: b → ∀ n uri, x = .mark (.asked n uri) → openAfter uri a = true) →
      ∀ a x b, es ++ (s.happening m).toList = a ++ x :: b →
        ∀ n uri, x = .mark (.asked n uri) → openAfter uri a = true := by
    intro es turns s hcourse m hes
    cases hx : s.happening m with
    | none => rwa [Option.toList_none, List.append_nil]
    | some x =>
      refine forall_split_concat
        (P := fun a x => ∀ n uri, x = .mark (.asked n uri) → openAfter uri a = true) hes ?_
      rintro n uri rfl
      rw [← hcourse.isOpen uri]
      exact Session.isOpen_of_asked hx
  induction h with
  | start h => exact fun a x b hsplit => absurd hsplit (by simp)
  | receive h m ih => exact hstep h (.receive m) ih
  | gather h ih => exact ih
  | take h ih => exact hstep h (.turn _) ih
  | drift h _ ih => exact ih
  | surround h _ _ _ ih => exact ih

end FormatServer
