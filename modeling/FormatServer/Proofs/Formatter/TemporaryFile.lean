import Mathlib.Data.List.Infix
import FormatServer.Proofs.Formatter.Output

/-!
The temporary file of a run. A run that starts has its text there (`start_ok`), and one that does not leaves no
file behind (`start_error`). After a file was removed nothing is there, or there is one warning
(`vacated_cleanUp`). A token that no name holds yet gives the file a place where nothing stands and to which no
other path in use leads (`place_of_token`).
-/

namespace FormatServer

/-! ## Removing the file -/

def unremoved (p : Path) (e : DiskError) : RunEvent :=
  .logged .warning ("Could not remove " ++ p.toString ++ ": " ++ e.message p)

/-- **Removing a file is said to have failed exactly when a directory is in its place.** -/
theorem cleanUp_of_leads {d : Disk} {p : Path} {l : Location} (h : d.Leads p l) :
    (cleanUp d p).2 = if d.find? l = some .directory then [unremoved p .isDirectory] else [] := by
  rw [cleanUp, Disk.remove_of_leads h]
  cases d.find? l with
  | none => rfl
  | some e => cases e <;> rfl

theorem touched_cleanUp (d : Disk) (p : Path) : Disk.Touched p d (cleanUp d p).1 := by
  unfold cleanUp
  cases hremove : d.remove p with
  | ok d' => exact (Disk.touched_remove hremove).1
  | error e => cases e <;> exact .refl p d

/-- After a file could not be written there is nothing to remove. -/
private theorem cleanUp_of_write_error {d : Disk} {p : Path} {content : List UInt8} {e : DiskError}
    (h : d.write p content = .error e) :
    cleanUp d p = (d, if e = .notFound then [] else [unremoved p e]) := by
  rw [cleanUp, Disk.remove_of_write_error h]
  cases e <;> rfl

/-! ## Warnings -/

def Silent (events : List SessionEvent) : Prop := ∀ p e, Session.eventOf (unremoved p e) ∉ events

/-- One event says that what is at a path could not be removed, and no other event says so of any path. -/
def WarnsOnce (p : Path) (e : DiskError) (events : List SessionEvent) : Prop :=
  ∃ before after, events = before ++ Session.eventOf (unremoved p e) :: after ∧ Silent before ∧
    Silent after

@[simp] theorem silent_nil : Silent [] := fun _ _ => List.not_mem_nil

@[simp] theorem silent_append (a b : List SessionEvent) : Silent (a ++ b) ↔ Silent a ∧ Silent b := by
  simp only [Silent, List.mem_append, not_or, forall_and]

@[simp] theorem silent_cons (x : SessionEvent) (rest : List SessionEvent) :
    Silent (x :: rest) ↔ (∀ p e, Session.eventOf (unremoved p e) ≠ x) ∧ Silent rest := by
  simp only [Silent, List.mem_cons, not_or, forall_and]

@[simp] theorem silent_outputEvents (logs : List String) :
    Silent ((outputEvents logs).map Session.eventOf) := by
  simp [Silent, outputEvents, unremoved, Session.eventOf]

@[simp] theorem silent_killNotice (run : Run) : Silent [Session.eventOf run.killNotice] := by
  intro p e hmem
  simp only [Run.killNotice, unremoved, Session.eventOf, List.mem_cons, List.not_mem_nil, or_false,
    SessionEvent.sent.injEq, Outgoing.log.injEq, true_and] at hmem
  have hchars := congrArg String.toList hmem
  simp at hchars

@[simp] theorem silent_signal (run : Run) (why : Farewell) : Silent [Session.eventOf (run.signal why)] := by
  cases why <;> simp [Run.signal, unremoved, Session.eventOf]

@[simp] theorem silent_spared (pid : Nat) (group : Bool) :
    Silent [Session.eventOf (.spared pid group)] := by
  simp [unremoved, Session.eventOf]

@[simp] theorem disk_endWith {α : Type} (result : α) (d : Disk) (p : Path) (events : List RunEvent) :
    (endWith result d p events).disk = (cleanUp d p).1 := rfl

@[simp] theorem events_endWith {α : Type} (result : α) (d : Disk) (p : Path)
    (events : List RunEvent) : (endWith result d p events).events = events ++ (cleanUp d p).2 := rfl

theorem WarnsOnce.append {p : Path} {e : DiskError} {events later : List SessionEvent}
    (h : WarnsOnce p e events) (hlater : Silent later) : WarnsOnce p e (events ++ later) := by
  obtain ⟨before, after, rfl, hbefore, hafter⟩ := h
  exact ⟨before, after ++ later, by simp, hbefore, by simp [hafter, hlater]⟩

theorem WarnsOnce.prepend {p : Path} {e : DiskError} {events earlier : List SessionEvent}
    (h : WarnsOnce p e events) (hearlier : Silent earlier) : WarnsOnce p e (earlier ++ events) := by
  obtain ⟨before, after, rfl, hbefore, hafter⟩ := h
  exact ⟨earlier ++ before, after, by simp, by simp [hearlier, hbefore], hafter⟩

/-- A disk where a file was to be removed, and what was said. -/
inductive Vacated (p : Path) (d : Disk) (events : List SessionEvent) : Prop where
  /-- nothing is there -/
  | gone (hentry : d.entryAt? p = none) (hsilent : Silent events)
  /-- what is there cannot be removed, and there is one warning -/
  | refused {e : DiskError} (hremove : d.remove p = .error e) (he : e ≠ .notFound)
      (hwarns : WarnsOnce p e events)

theorem Vacated.append {p : Path} {d : Disk} {events later : List SessionEvent}
    (h : Vacated p d events) (hlater : Silent later) : Vacated p d (events ++ later) := by
  cases h with
  | gone hentry hsilent => exact .gone hentry (by simp [hsilent, hlater])
  | refused hremove he hwarns => exact .refused hremove he (hwarns.append hlater)

theorem Vacated.prepend {p : Path} {d : Disk} {events earlier : List SessionEvent}
    (h : Vacated p d events) (hearlier : Silent earlier) : Vacated p d (earlier ++ events) := by
  cases h with
  | gone hentry hsilent => exact .gone hentry (by simp [hsilent, hearlier])
  | refused hremove he hwarns => exact .refused hremove he (hwarns.prepend hearlier)

/-- **After a file was removed nothing is there**, or there is one warning. -/
theorem vacated_cleanUp (d : Disk) (p : Path) :
    Vacated p (cleanUp d p).1 ((cleanUp d p).2.map Session.eventOf) := by
  have hrefused : ∀ e, d.remove p = .error e → e ≠ .notFound →
      Vacated p d ([unremoved p e].map Session.eventOf) := fun e hremove he =>
    .refused hremove he ⟨[], [], rfl, silent_nil, silent_nil⟩
  unfold cleanUp
  cases hremove : d.remove p with
  | ok d' => exact .gone (Disk.touched_remove hremove).2 silent_nil
  | error e =>
    cases e with
    | notFound => exact .gone (Disk.entryAt?_of_notFound hremove) silent_nil
    | notDirectory => exact hrefused .notDirectory hremove (by decide)
    | isDirectory => exact hrefused .isDirectory hremove (by decide)
    | nameTooLong => exact hrefused .nameTooLong hremove (by decide)

/-! ## Names with a token -/

namespace Text

private theorem splitOn_append {sep : Char} {t : List Char} (h : sep ∉ t) (b : List Char) :
    ∃ piece rest, splitOn sep (t ++ b) = (t ++ piece) :: rest := by
  induction t with
  | nil =>
    cases hb : splitOn sep b with
    | nil =>
      cases b with
      | nil => cases hb
      | cons c rest =>
        rw [splitOn] at hb
        split at hb
        · cases hb
        · split at hb <;> cases hb
    | cons piece rest => exact ⟨piece, rest, hb⟩
  | cons c t ih =>
    obtain ⟨hc, ht⟩ := List.ne_and_not_mem_of_not_mem_cons h
    obtain ⟨piece, rest, hsplit⟩ := ih ht
    refine ⟨piece, rest, ?_⟩
    rw [List.cons_append, splitOn, if_neg hc.symm, hsplit]
    rfl

/-- What holds no separator stays in one piece. -/
theorem exists_mem_splitOn {sep : Char} {t : List Char} (h : sep ∉ t) (a b : List Char) :
    ∃ piece ∈ splitOn sep (a ++ (t ++ b)), t <:+: piece := by
  induction a with
  | nil =>
    obtain ⟨piece, rest, hsplit⟩ := splitOn_append h b
    refine ⟨t ++ piece, ?_, (List.prefix_append t piece).isInfix⟩
    rw [List.nil_append, hsplit]
    exact List.mem_cons_self
  | cons c a ih =>
    obtain ⟨piece, hmem, hpiece⟩ := ih
    rw [List.cons_append, splitOn]
    split
    · exact ⟨piece, List.mem_cons_of_mem _ hmem, hpiece⟩
    · split
      · next hnil =>
        rw [hnil] at hmem
        cases hmem
      · next first rest hsplit =>
        rw [hsplit] at hmem
        rcases List.mem_cons.mp hmem with rfl | hmem
        · exact ⟨c :: piece, List.mem_cons_self, hpiece.trans (List.suffix_cons c piece).isInfix⟩
        · exact ⟨piece, List.mem_cons_of_mem _ hmem, hpiece⟩

private theorem slash_not_mem_toDigitsCore (fuel n : Nat) (ds : List Char) (h : '/' ∉ ds) :
    '/' ∉ Nat.toDigitsCore 16 fuel n ds := by
  induction fuel generalizing n ds with
  | zero => exact h
  | succ fuel ih =>
    have hdigit : Nat.digitChar (n % 16) ≠ '/' := by
      have hlt : n % 16 < 16 := Nat.mod_lt n (by decide)
      generalize n % 16 = d at hlt
      revert d
      decide
    have hnext : '/' ∉ Nat.digitChar (n % 16) :: ds := by simp [hdigit.symm, h]
    rw [Nat.toDigitsCore]
    split
    · exact hnext
    · exact ih _ _ hnext

end Text

private theorem toList_tokenOf (n : Nat) :
    (tokenOf n).toList = "00000000-0000-4000-8000-".toList ++ Text.hexadecimal 12 n := by
  unfold tokenOf
  generalize Text.hexadecimal 12 n = digits
  simp

theorem slash_not_mem_tokenOf (n : Nat) : '/' ∉ (tokenOf n).toList := by
  rw [toList_tokenOf, Text.hexadecimal, List.mem_append, List.mem_append]
  rintro (h | h | h)
  · revert h
    decide
  · cases List.eq_of_mem_replicate h
  · exact Text.slash_not_mem_toDigitsCore _ _ [] (by simp) h

/-- Nothing as long as a token is passed over in a path. -/
private theorem two_lt_length_of_token {n : Nat} {part : List Char} (h : (tokenOf n).toList <:+: part) :
    2 < part.length := by
  have hlength := h.length_le
  rw [toList_tokenOf, List.length_append] at hlength
  have h24 : "00000000-0000-4000-8000-".toList.length = 24 := by decide
  omega

/-- **A token stands in one component of the path that it is for.** -/
theorem exists_part_of_token {directory p : Path} {s : Settings} {n : Nat} {uri : String}
    (h : temporaryPath directory s (tokenOf n) uri = .ok p) :
    ∃ part ∈ p.parts, (tokenOf n).toList <:+: part := by
  unfold temporaryPath at h
  cases hparse : Uri.parse uri.toList with
  | error e => simp [hparse, bind, Except.bind] at h
  | ok parsed =>
    simp only [hparse, bind, Except.bind, pure, Except.pure, Except.ok.injEq] at h
    obtain ⟨part, hmem, hpart⟩ := Text.exists_mem_splitOn (slash_not_mem_tokenOf n)
      (s.tempPrefix.toList ++ ['-'])
      (let own := (Path.ofChars parsed.decodedPath).extension
       if own.isEmpty then s.defaultExtension.toList else own)
    have hcounts : Path.isPart part = true := by
      have hlength := two_lt_length_of_token hpart
      unfold Path.isPart
      rw [Bool.and_eq_true, decide_eq_true_eq, decide_eq_true_eq]
      constructor
      · rintro rfl
        simp at hlength
      · rintro rfl
        simp at hlength
    have hname : part ∈ (Path.ofChars (temporaryName s (tokenOf n) parsed)).parts := by
      refine List.mem_filter.mpr ⟨?_, hcounts⟩
      simpa [temporaryName] using hmem
    refine ⟨part, ?_, hpart⟩
    rw [← h, Path.append]
    split
    · exact List.mem_append_right _ hname
    · exact hname

/-! ## Places with a token -/

namespace Disk

/-- A token is in no name on a disk. -/
def Lacks (d : Disk) (token : List Char) : Prop :=
  ∀ entry ∈ d.entries, ∀ name ∈ entry.1, ¬ token <:+: name

instance (d : Disk) (token : List Char) : Decidable (d.Lacks token) :=
  inferInstanceAs (Decidable (∀ entry ∈ d.entries, ∀ name ∈ entry.1, ¬ token <:+: name))

private theorem Lacks.find?_eq_none {d : Disk} {token : List Char} (h : d.Lacks token) {l : Location}
    {name : List Char} (hname : name ∈ l) (htoken : token <:+: name) : d.find? l = none := by
  have hl : l ≠ [] := List.ne_nil_of_mem hname
  rw [find?, if_neg hl, List.lookup_eq_none_iff]
  rintro entry hentry
  have hne : l ≠ entry.1 := fun he => h entry hentry name (he ▸ hname) htoken
  simpa using hne

/-- The names of a place are components of the path that leads there. -/
private theorem mem_of_follow {d : Disk} {start l : Location} {names : List (List Char)}
    (h : d.follow start names = .ok l) {name : List Char} (hname : name ∈ l) :
    name ∈ start ∨ name ∈ names := by
  induction names generalizing start with
  | nil =>
    rw [follow, Except.ok.injEq] at h
    exact .inl (h ▸ hname)
  | cons first rest ih =>
    rw [follow] at h
    split at h
    · cases h
    · cases h
    · split at h
      · exact (ih h).imp List.mem_of_mem_dropLast (List.mem_cons_of_mem _)
      · split at h
        · cases h
        · rcases ih h with hstart | hrest
          · rcases List.mem_append.mp hstart with hstart | hfirst
            · exact .inl hstart
            · exact .inr (List.mem_singleton.mp hfirst ▸ List.mem_cons_self)
          · exact .inr (List.mem_cons_of_mem _ hrest)

/-- No directory has a name with the token, so the name with the token is the last one on the way. -/
private theorem exists_mem_of_follow {d : Disk} {token : List Char} (hlacks : d.Lacks token)
    {start l : Location} {names : List (List Char)} (h : d.follow start names = .ok l)
    {part : List Char} (hpart : part ∈ names) (htoken : token <:+: part) (hup : part ≠ ['.', '.']) :
    ∃ name ∈ l, token <:+: name := by
  induction names generalizing start with
  | nil => cases hpart
  | cons first rest ih =>
    have hrest : ∀ {next : Location}, d.follow next rest = .ok l → part ∈ rest →
        ∃ name ∈ l, token <:+: name := fun hnext hmem => ih hnext hmem
    rw [follow] at h
    split at h
    · cases h
    · cases h
    · split at h
      · next hfirst =>
        rcases List.mem_cons.mp hpart with rfl | hmem
        · exact absurd hfirst hup
        · exact hrest h hmem
      · split at h
        · cases h
        · rcases List.mem_cons.mp hpart with rfl | hmem
          · cases rest with
            | nil =>
              rw [follow, Except.ok.injEq] at h
              exact ⟨part, h ▸ List.mem_append_right _ (List.mem_singleton_self _), htoken⟩
            | cons next rest =>
              have hnone := hlacks.find?_eq_none (l := start ++ [part])
                (List.mem_append_right _ (List.mem_singleton_self _)) htoken
              rw [follow, hnone] at h
              cases h
          · exact hrest h hmem

private theorem follow_of_locate {d : Disk} {p : Path} {l : Location} (h : d.locate p = .ok l) :
    d.follow [] p.parts = .ok l := by
  unfold locate at h
  split at h
  · cases h
  · exact h

/-- **A token that is in no name gives a place of its own**: nothing stands there, and no path without the token
leads there. -/
theorem place_of_token {d : Disk} {n : Nat} (hlacks : d.Lacks (tokenOf n).toList) {p : Path}
    (hp : ∃ part ∈ p.parts, (tokenOf n).toList <:+: part) {l : Location} (h : d.locate p = .ok l) :
    d.find? l = none ∧ ∀ (q : Path) (d' : Disk) (k : Location),
      (∀ part ∈ q.parts, ¬ (tokenOf n).toList <:+: part) → d'.locate q = .ok k → k ≠ l := by
  obtain ⟨part, hpart, htoken⟩ := hp
  have hup : part ≠ ['.', '.'] := by
    rintro rfl
    have hlength := two_lt_length_of_token htoken
    simp at hlength
  obtain ⟨name, hname, hin⟩ := exists_mem_of_follow hlacks (follow_of_locate h) hpart htoken hup
  refine ⟨hlacks.find?_eq_none hname hin, ?_⟩
  rintro q d' k hq hk rfl
  rcases mem_of_follow (follow_of_locate hk) hname with hnil | hmem
  · cases hnil
  · exact hq name hmem hin

end Disk

/-! ## Runs that start, and runs that do not -/

section

variable {c : RunContext} {r : FormatRequest} {d : Disk} {n : Nat}

structure Starts (c : RunContext) (r : FormatRequest) (d : Disk) (run : Run) (d' : Disk)
    (events : List SessionEvent) : Prop where
  path : temporaryPath c.directory r.settings c.token r.uri = .ok run.process.path
  file : ∃ document l, c.store.find? r.uri = some document ∧ d.locate run.process.path = .ok l ∧
    d'.Leads run.process.path l ∧ d'.find? l = some (.file (given c r document))
  touched : Disk.Touched run.process.path d d'
  silent : Silent events

/-- **What a start does that succeeds.** -/
theorem start_ok {run : Run} (h : (start c r d).result = .ok run) :
    Starts c r d run (start c r d).disk ((start c r d).events.map Session.eventOf) := by
  obtain ⟨document, p, d', hstarted⟩ := exists_started h
  obtain ⟨l, hlocate, hl, rfl⟩ := Disk.locate_of_write hstarted.write
  obtain ⟨l', hleads, hentry, -⟩ := Disk.leads_of_write hstarted.write
  obtain rfl := Disk.locate_unique hlocate hleads.locate_self
  have hstart := start_started hstarted
  rw [hstart, Except.ok.injEq] at h
  subst h
  rw [hstart]
  exact ⟨hstarted.path, ⟨document, l, hstarted.isOpen, hlocate, hleads, hentry⟩,
    Disk.touched_write hstarted.write, by simp [opening, unremoved, Session.eventOf]⟩

inductive NeverStarts (c : RunContext) (r : FormatRequest) (d : Disk) (o : Outcome) (d' : Disk)
    (events : List SessionEvent) : Prop where
  /-- there is no text, or no name for a file -/
  | unnamed (hname : ∀ document p, c.store.find? r.uri = some document →
        temporaryPath c.directory r.settings c.token r.uri = .ok p → '\x00' ∈ p.chars)
      (hdisk : d' = d) (hsilent : Silent events)
  /-- the file cannot be written -/
  | unwritten {p : Path} {e : DiskError}
      (hpath : temporaryPath c.directory r.settings c.token r.uri = .ok p)
      (ho : o = .failed (.temporaryFile p.toString (e.message p))) (hdisk : d' = d)
      (hvacated : Vacated p d events)
  /-- the file was written, and removed when no process could be started -/
  | unspawned {p : Path} (hpath : temporaryPath c.directory r.settings c.token r.uri = .ok p)
      (htouched : Disk.Touched p d d') (hentry : d'.entryAt? p = none) (hsilent : Silent events)

/-- What is said later is no part of the start. -/
theorem NeverStarts.append {o : Outcome} {d' : Disk} {events later : List SessionEvent}
    (h : NeverStarts c r d o d' events) (hlater : Silent later) :
    NeverStarts c r d o d' (events ++ later) := by
  cases h with
  | unnamed hname hdisk hsilent => exact .unnamed hname hdisk (by simp [hsilent, hlater])
  | unwritten hpath ho hdisk hvacated => exact .unwritten hpath ho hdisk (hvacated.append hlater)
  | unspawned hpath htouched hentry hsilent =>
    exact .unspawned hpath htouched hentry (by simp [hsilent, hlater])

/-- A file that was just written is removed, and nothing is said. -/
private theorem neverStarts_endWith {document : Document} {p : Path} {d' : Disk}
    (h : Written c r d document p d') (o : Outcome) {events : List RunEvent}
    (hevents : Silent (events.map Session.eventOf)) :
    let stage : Stage (Except Outcome Run) := endWith (.error o) d' p events
    NeverStarts c r d o stage.disk (stage.events.map Session.eventOf) := by
  obtain ⟨d₂, hremove⟩ := Disk.remove_of_write h.write
  obtain ⟨htouched, hentry⟩ := Disk.touched_remove hremove
  have hclean : cleanUp d' p = (d₂, []) := by rw [cleanUp, hremove]
  intro stage
  rw [disk_endWith, events_endWith, hclean, List.append_nil]
  exact .unspawned h.path ((Disk.touched_write h.write).trans htouched) hentry hevents

private theorem silent_opening (r : FormatRequest) (p : Path) :
    Silent ([opening r p].map Session.eventOf) := by
  simp [opening, unremoved, Session.eventOf]

/-- **A run that does not start leaves no file behind**, and warns at most of what it could not write. -/
theorem start_error {o : Outcome} (h : (start c r d).result = .error o) :
    NeverStarts c r d o (start c r d).disk ((start c r d).events.map Session.eventOf) := by
  cases hopen : c.store.find? r.uri with
  | none =>
    have hstart : start c r d = ⟨.error (.failed (.documentNotFound r.uri)), d, []⟩ := by
      simp [start, hopen]
    rw [hstart]
    exact .unnamed (by simp [hopen]) rfl silent_nil
  | some document =>
    cases hpath : temporaryPath c.directory r.settings c.token r.uri with
    | error e =>
      have hstart : start c r d = ⟨.error (.crashed (.uri e)), d, []⟩ := by
        simp [start, hopen, hpath]
      rw [hstart]
      exact .unnamed (by simp [hpath]) rfl silent_nil
    | ok p =>
      have hnamed : Named c r document p := ⟨hopen, hpath⟩
      by_cases hnull : '\x00' ∈ p.chars
      · have hstart : start c r d = ⟨.error (.crashed .nullByte), d, [opening r p]⟩ := by
          simp [start, hopen, hpath, hnull, opening]
        rw [hstart]
        exact .unnamed (by simpa [hpath] using fun _ _ => hnull) rfl (silent_opening r p)
      · cases hwrite : d.write p (given c r document) with
        | error e =>
          have hstart := start_named (d := d) hnamed hnull
          rw [hwrite] at hstart
          rw [hstart] at h ⊢
          obtain rfl := Except.error.inj h
          have hdisk : (cleanUp d p).1 = d := by rw [cleanUp_of_write_error hwrite]
          have hvacated := vacated_cleanUp d p
          rw [hdisk] at hvacated
          refine .unwritten hpath rfl hdisk ?_
          rw [events_endWith, List.map_append]
          exact hvacated.prepend (silent_opening r p)
        | ok d' =>
          have hwritten : Written c r d document p d' := ⟨hnamed, hnull, hwrite⟩
          have hopening := silent_opening r p
          have hstart := start_written hwritten
          rw [spawn] at hstart
          cases hcommand : r.settings.command with
          | nil =>
            simp only [hcommand] at hstart
            rw [hstart] at h ⊢
            obtain rfl := Except.error.inj h
            exact neverStarts_endWith hwritten _ hopening
          | cons program arguments =>
            simp only [hcommand] at hstart
            split at hstart
            · rw [hstart] at h ⊢
              obtain rfl := Except.error.inj h
              exact neverStarts_endWith hwritten _ hopening
            · cases hrefusal : c.script.refusal with
              | none => simp [hrefusal, hstart] at h
              | some number =>
                rw [hrefusal] at hstart
                rw [hstart] at h ⊢
                obtain rfl := Except.error.inj h
                refine neverStarts_endWith hwritten _ ?_
                simp [opening, unremoved, Session.eventOf]

/-- **A run with a fresh token that does not start leaves all entries as they were.** -/
theorem NeverStarts.find?_of_token {o : Outcome} {d' : Disk} {events : List SessionEvent}
    (h : NeverStarts c r d o d' events) (htoken : c.token = tokenOf n)
    (hlacks : d.Lacks (tokenOf n).toList) (k : Location) : d'.find? k = d.find? k := by
  cases h with
  | unnamed hname hdisk hsilent => rw [hdisk]
  | unwritten hpath ho hdisk hvacated => rw [hdisk]
  | @unspawned p hpath htouched hentry hsilent =>
    rw [htoken] at hpath
    by_cases hk : d.locate p = .ok k
    · rw [(Disk.place_of_token hlacks (exists_part_of_token hpath) hk).1]
      rw [Disk.entryAt?, htouched.locate hk] at hentry
      exact hentry
    · exact htouched.same k hk

/-! ## Starts on other disks -/

/-- Two starts come to the same, as far as the run and the entry in the place of its file are concerned. -/
structure SameStart (stage stage' : Stage (Except Outcome Run)) : Prop where
  result : stage'.result = stage.result
  events : stage'.events = stage.events
  file : ∀ run, stage.result = .ok run → ∃ l, stage.disk.Leads run.process.path l ∧
    stage'.disk.Leads run.process.path l ∧ stage'.disk.find? l = stage.disk.find? l

private theorem sameStart_of_error {stage stage' : Stage (Except Outcome Run)} {o : Outcome}
    (h : stage.result = .error o) (hresult : stage'.result = stage.result)
    (hevents : stage'.events = stage.events) : SameStart stage stage' :=
  ⟨hresult, hevents, fun run hrun => by rw [h] at hrun; cases hrun⟩

private theorem sameStart_spawn {p : Path} {d₁ d₂ : Disk} {l : Location} (h₁ : d₁.Leads p l)
    (h₂ : d₂.Leads p l) (hentry : d₂.find? l = d₁.find? l) (range : TextRange)
    (events : List RunEvent) :
    SameStart (spawn c r range p d₁ events) (spawn c r range p d₂ events) := by
  have hends : ∀ (o : Outcome) (events : List RunEvent),
      SameStart (endWith (.error o) d₁ p events) (endWith (.error o) d₂ p events) := by
    intro o events
    refine sameStart_of_error (o := o) rfl rfl ?_
    rw [events_endWith, events_endWith, cleanUp_of_leads h₁, cleanUp_of_leads h₂, hentry]
  have hread : d₂.read p = d₁.read p := by
    rw [Disk.read_of_leads h₁, Disk.read_of_leads h₂, hentry]
  unfold spawn
  split
  · exact hends _ _
  · dsimp only
    split
    · exact hends _ _
    · rw [hread]
      split
      · exact hends _ _
      · refine ⟨rfl, rfl, fun run hrun => ?_⟩
        obtain rfl := Except.ok.inj hrun
        exact ⟨l, h₁, h₂, hentry⟩

/-- **What a start does depends on what its file's path leads to alone.** -/
theorem sameStart_of_alike {d' : Disk}
    (h : ∀ p, temporaryPath c.directory r.settings c.token r.uri = .ok p → Disk.AlikeAt p d d') :
    SameStart (start c r d) (start c r d') := by
  cases hopen : c.store.find? r.uri with
  | none =>
    have hstart : ∀ d, start c r d = ⟨.error (.failed (.documentNotFound r.uri)), d, []⟩ := by
      intro d
      simp [start, hopen]
    rw [hstart, hstart]
    exact sameStart_of_error rfl rfl rfl
  | some document =>
    cases hpath : temporaryPath c.directory r.settings c.token r.uri with
    | error e =>
      have hstart : ∀ d, start c r d = ⟨.error (.crashed (.uri e)), d, []⟩ := by
        intro d
        simp [start, hopen, hpath]
      rw [hstart, hstart]
      exact sameStart_of_error rfl rfl rfl
    | ok p =>
      have hnamed : Named c r document p := ⟨hopen, hpath⟩
      by_cases hnull : '\x00' ∈ p.chars
      · have hstart : ∀ d, start c r d = ⟨.error (.crashed .nullByte), d, [opening r p]⟩ := by
          intro d
          simp [start, hopen, hpath, hnull, opening]
        rw [hstart, hstart]
        exact sameStart_of_error rfl rfl rfl
      · rw [start_named hnamed hnull, start_named hnamed hnull]
        cases hwrite : d.write p (given c r document) with
        | error e =>
          have hwrite' := Disk.write_error_of_alike (h p hpath) hwrite
          rw [hwrite']
          refine sameStart_of_error rfl rfl ?_
          rw [events_endWith, events_endWith, cleanUp_of_write_error hwrite,
            cleanUp_of_write_error hwrite']
        | ok d₁ =>
          obtain ⟨d₁', l, hwrite', hl, hl', hentry, hentry'⟩ :=
            Disk.write_ok_of_alike (h p hpath) hwrite
          rw [hwrite']
          exact sameStart_spawn hl hl' (hentry'.trans hentry.symm) _ _

end

end FormatServer
