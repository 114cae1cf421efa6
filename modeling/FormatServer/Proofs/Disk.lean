import FormatServer.Formatter.Script
import FormatServer.Proofs.Lookup

/-!
One file on a disk. A path that a file was written to leads to one place (`Disk.Leads`), and goes on leading
there whatever becomes of that place: writing, changing and reading the file are then about the entry at the
place alone (`find?_change`, `read_of_leads`), and touch no other entry (`SameBut`). Wherever a path leads,
changing and removing what is there touches no other entry either (`Touched`).
-/

namespace FormatServer.Disk

/-! ## Entries -/

theorem find?_erase (d : Disk) (l k : Location) (hl : l ≠ []) :
    (d.erase l).find? k = if k = l then none else d.find? k := by
  by_cases hroot : k = []
  · simp [find?, hroot, Ne.symm hl]
  · simp only [find?, hroot, if_false, erase]
    exact lookup_filter_ne d.entries l k

theorem find?_put (d : Disk) (l k : Location) (e : FileEntry) (hl : l ≠ []) :
    (d.put l e).find? k = if k = l then some e else d.find? k := by
  by_cases hroot : k = []
  · simp [find?, hroot, Ne.symm hl]
  have herase := find?_erase d l k hl
  simp only [find?, hroot, if_false] at herase ⊢
  rw [put, lookup_cons_ite, herase]
  by_cases hk : k = l
  · simp [hk]
  · simp [hk]

def SameBut (l : Location) (d d' : Disk) : Prop := ∀ k, k ≠ l → d'.find? k = d.find? k

theorem SameBut.refl (l : Location) (d : Disk) : SameBut l d d := fun _ _ => rfl

theorem SameBut.trans {l : Location} {d₁ d₂ d₃ : Disk} (h : SameBut l d₁ d₂)
    (h' : SameBut l d₂ d₃) : SameBut l d₁ d₃ := fun k hk => (h' k hk).trans (h k hk)

theorem sameBut_erase (d : Disk) (l : Location) : SameBut l d (d.erase l) := by
  intro k hk
  rw [find?, find?, erase, lookup_filter_ne, if_neg hk]

theorem sameBut_put (d : Disk) (l : Location) (e : FileEntry) : SameBut l d (d.put l e) := by
  intro k hk
  rw [← sameBut_erase d l k hk, find?, find?, put, lookup_cons_ite, if_neg hk]

/-! ## Places -/

def DirectoriesStay (d d' : Disk) : Prop :=
  ∀ k, d.find? k = some .directory → d'.find? k = some .directory

theorem DirectoriesStay.refl (d : Disk) : d.DirectoriesStay d := fun _ h => h

theorem DirectoriesStay.trans {d₁ d₂ d₃ : Disk} (h : d₁.DirectoriesStay d₂)
    (h' : d₂.DirectoriesStay d₃) : d₁.DirectoriesStay d₃ := fun k hk => h' k (h k hk)

/-- What becomes of a place that is no directory takes no directory away. -/
theorem SameBut.directoriesStay {d d' : Disk} {l : Location} (h : SameBut l d d')
    (hl : d.find? l = some .directory → d'.find? l = some .directory) : d.DirectoriesStay d' := by
  intro k hk
  by_cases he : k = l
  · exact he ▸ hl (he ▸ hk)
  · rw [h k he]
    exact hk

/-- Only directories are passed on the way to a place, so the way stays with them. -/
private theorem follow_of_directoriesStay {d d' : Disk} (hstay : d.DirectoriesStay d') {l : Location}
    (start : Location) (names : List (List Char)) (h : d.follow start names = .ok l) :
    d'.follow start names = .ok l := by
  induction names generalizing start with
  | nil => simpa [follow] using h
  | cons name rest ih =>
    cases hstart : d.find? start with
    | none => simp [follow, hstart] at h
    | some e =>
      cases e with
      | file content => simp [follow, hstart] at h
      | directory =>
        simp only [follow, hstart, hstay start hstart] at h ⊢
        split at h
        · next hup => rw [if_pos hup]; exact ih _ h
        · next hup =>
          rw [if_neg hup]
          split at h
          · exact absurd h (by simp)
          · next hname => rw [if_neg hname]; exact ih _ h

private theorem locate_of_directoriesStay {d d' : Disk} (hstay : d.DirectoriesStay d') {p : Path}
    {l : Location} (h : d.locate p = .ok l) : d'.locate p = .ok l := by
  unfold locate at h ⊢
  split at h
  · exact absurd h (by simp)
  · next hlength =>
    rw [if_neg hlength]
    exact follow_of_directoriesStay hstay [] p.parts h

/-- A path leads to a place that is not the root, whatever stands there. -/
structure Leads (d : Disk) (p : Path) (l : Location) : Prop where
  locate : ∀ d', SameBut l d d' → d'.locate p = .ok l
  ne_root : l ≠ []

theorem Leads.of_sameBut {d d' : Disk} {p : Path} {l : Location} (h : d.Leads p l)
    (hsame : SameBut l d d') : d'.Leads p l :=
  ⟨fun d₂ h₂ => h.locate d₂ (hsame.trans h₂), h.ne_root⟩

theorem Leads.locate_self {d : Disk} {p : Path} {l : Location} (h : d.Leads p l) :
    d.locate p = .ok l := h.locate d (.refl l d)

/-- A path leads to one place. -/
theorem Leads.unique {d : Disk} {p : Path} {l l' : Location} (h : d.Leads p l)
    (h' : d.Leads p l') : l = l' :=
  Except.ok.inj (h.locate_self.symm.trans h'.locate_self)

theorem leads_of_locate {d : Disk} {p : Path} {l : Location} (h : d.locate p = .ok l)
    (hl : d.find? l ≠ some .directory) : d.Leads p l := by
  refine ⟨?_, ?_⟩
  · intro d' hsame
    exact locate_of_directoriesStay (hsame.directoriesStay fun hdir => absurd hdir hl) h
  · rintro rfl
    exact hl rfl

/-- **A path goes on leading to its place** while no directory is taken away. -/
theorem Leads.of_directoriesStay {d d' : Disk} {p : Path} {l : Location} (h : d.Leads p l)
    (hstay : d.DirectoriesStay d') : d'.Leads p l := by
  refine ⟨fun d₂ hsame => ?_, h.ne_root⟩
  -- The way does not pass the place itself, so it is there when nothing stands at the place.
  refine locate_of_directoriesStay ?_ (h.locate _ (sameBut_erase d l))
  intro k hk
  rw [find?_erase d l k h.ne_root] at hk
  split at hk
  · cases hk
  · next hne =>
    rw [hsame k hne]
    exact hstay k hk

/-- A file is written where no directory stands. -/
theorem locate_of_write {d d' : Disk} {p : Path} {content : List UInt8}
    (h : d.write p content = .ok d') : ∃ l, d.locate p = .ok l ∧ d.find? l ≠ some .directory ∧
      d' = d.put l (.file content) := by
  unfold write at h
  cases hlocate : d.locate p with
  | error e => simp [hlocate, bind, Except.bind] at h
  | ok l =>
    have hl : d.find? l ≠ some .directory := by
      intro hdir
      simp [hlocate, bind, Except.bind, hdir, throw, throwThe, MonadExceptOf.throw] at h
    refine ⟨l, rfl, hl, ?_⟩
    simp only [hlocate, bind, Except.bind] at h
    exact (Except.ok.inj h).symm

/-- **A path that a file was written to leads to its place.** -/
theorem leads_of_write {d d' : Disk} {p : Path} {content : List UInt8}
    (h : d.write p content = .ok d') :
    ∃ l, d'.Leads p l ∧ d'.find? l = some (.file content) ∧ SameBut l d d' := by
  obtain ⟨l, hlocate, hl, rfl⟩ := locate_of_write h
  have hleads := leads_of_locate hlocate hl
  have hsame : SameBut l d (d.put l (.file content)) := sameBut_put d l _
  refine ⟨l, hleads.of_sameBut hsame, ?_, hsame⟩
  rw [find?_put d l l _ hleads.ne_root, if_pos rfl]

/-- Reading a file is reading the entry at its place. -/
theorem read_of_leads {d : Disk} {p : Path} {l : Location} (h : d.Leads p l) :
    d.read p = match d.find? l with
      | none => .error .notFound
      | some .directory => .error .isDirectory
      | some (.file content) => .ok content := by
  rw [read, h.locate_self]
  rfl

theorem change_of_leads {d : Disk} {p : Path} {l : Location} (h : d.Leads p l) (c : FileChange) :
    d.change p c = match c.apply (d.find? l) with
      | none => d.erase l
      | some e => d.put l e := by
  cases hentry : c.apply (d.find? l) <;> simp only [change, h.locate_self, hentry]

theorem find?_change {d : Disk} {p : Path} {l : Location} (h : d.Leads p l) (c : FileChange) :
    (d.change p c).find? l = c.apply (d.find? l) := by
  rw [change_of_leads h]
  cases c.apply (d.find? l) with
  | none => rw [find?_erase d l l h.ne_root, if_pos rfl]
  | some e => rw [find?_put d l l e h.ne_root, if_pos rfl]

/-! ## Work on a path -/

/-- All names on the way to a place are in the path, so it leads to one place on all disks. -/
private theorem follow_unique {d d' : Disk} {start l l' : Location} {names : List (List Char)}
    (h : d.follow start names = .ok l) (h' : d'.follow start names = .ok l') : l = l' := by
  induction names generalizing start with
  | nil => exact (Except.ok.inj h).symm.trans (Except.ok.inj h')
  | cons name rest ih =>
    rw [follow] at h h'
    split at h
    · cases h
    · cases h
    · split at h'
      · cases h'
      · cases h'
      · split at h
        · next hup =>
          rw [if_pos hup] at h'
          exact ih h h'
        · next hup =>
          rw [if_neg hup] at h'
          split at h
          · cases h
          · next hname =>
            rw [if_neg hname] at h'
            exact ih h h'

theorem locate_unique {d d' : Disk} {p : Path} {l l' : Location} (h : d.locate p = .ok l)
    (h' : d'.locate p = .ok l') : l = l' := by
  unfold locate at h h'
  split at h
  · cases h
  · next hlength =>
    rw [if_neg hlength] at h'
    exact follow_unique h h'

private theorem follow_congr {d d' : Disk} (h : ∀ k, d'.find? k = d.find? k) (l : Location)
    (names : List (List Char)) : d'.follow l names = d.follow l names := by
  induction names generalizing l with
  | nil => rfl
  | cons name rest ih =>
    rw [follow, follow, h]
    simp only [ih]

/-- Where a path leads is a matter of the entries. -/
theorem locate_congr {d d' : Disk} (h : ∀ k, d'.find? k = d.find? k) (p : Path) :
    d'.locate p = d.locate p := by
  rw [locate, locate, follow_congr h]

/-- A disk after work on a path: no entry has changed but the one in its place, and no directory has gone. -/
structure Touched (p : Path) (d d' : Disk) : Prop where
  same : ∀ k, d.locate p ≠ .ok k → d'.find? k = d.find? k
  stay : d.DirectoriesStay d'

namespace Touched

variable {p : Path} {d₁ d₂ d₃ : Disk} {l : Location}

/-- Nothing has changed. -/
theorem of_same (h : ∀ k, d₂.find? k = d₁.find? k) : Touched p d₁ d₂ :=
  ⟨fun k _ => h k, fun k hk => (h k).trans hk⟩

theorem refl (p : Path) (d : Disk) : Touched p d d := of_same fun _ => rfl

theorem trans (h : Touched p d₁ d₂) (h' : Touched p d₂ d₃) : Touched p d₁ d₃ := by
  refine ⟨fun k hk => ?_, h.stay.trans h'.stay⟩
  refine (h'.same k fun hk₂ => ?_).trans (h.same k hk)
  cases hlocate : d₁.locate p with
  | ok l => exact hk (hlocate.trans (congrArg _ (locate_unique hlocate hk₂)))
  | error e =>
    -- Where the path leads nowhere all entries are as they were.
    have hsame : ∀ k, d₂.find? k = d₁.find? k := fun k => h.same k (by simp [hlocate])
    rw [locate_congr hsame, hlocate] at hk₂
    cases hk₂

theorem sameBut (h : Touched p d₁ d₂) (hlocate : d₁.locate p = .ok l) : SameBut l d₁ d₂ :=
  fun k hk => h.same k fun hk' => hk (locate_unique hk' hlocate)

theorem locate (h : Touched p d₁ d₂) (hlocate : d₁.locate p = .ok l) : d₂.locate p = .ok l :=
  locate_of_directoriesStay h.stay hlocate

end Touched

private theorem touched_of_sameBut {d d' : Disk} {p : Path} {l : Location}
    (hlocate : d.locate p = .ok l) (h : SameBut l d d')
    (hl : d.find? l = some .directory → d'.find? l = some .directory) : Touched p d d' :=
  ⟨fun k hk => h k fun he => hk (he ▸ hlocate), h.directoriesStay hl⟩

/-- Writing a file puts it in the place of no directory. -/
theorem touched_write {d d' : Disk} {p : Path} {content : List UInt8}
    (h : d.write p content = .ok d') : Touched p d d' := by
  obtain ⟨l, hlocate, hl, rfl⟩ := locate_of_write h
  exact touched_of_sameBut hlocate (sameBut_put d l _) fun hdir => absurd hdir hl

/-- **A change of a file touches no other entry**, and leaves a directory as it is. -/
theorem touched_change (d : Disk) (p : Path) (c : FileChange) : Touched p d (d.change p c) := by
  unfold change
  cases hlocate : d.locate p with
  | error e => exact .refl p d
  | ok l =>
    have hdir : d.find? l = some .directory → c.apply (d.find? l) = some .directory := by
      intro hdir
      rw [hdir]
      cases c <;> rfl
    dsimp only
    split
    · next hnone =>
      refine touched_of_sameBut hlocate (sameBut_erase d l) fun hl => ?_
      rw [hdir hl] at hnone
      cases hnone
    · next e hentry =>
      refine touched_of_sameBut hlocate (sameBut_put d l e) fun hl => ?_
      obtain rfl := Option.some.inj ((hdir hl).symm.trans hentry)
      by_cases hroot : l = []
      · simp [find?, hroot]
      · rw [find?_put d l l _ hroot, if_pos rfl]

theorem sameBut_change {d : Disk} {p : Path} {l : Location} (h : d.Leads p l) (c : FileChange) :
    SameBut l d (d.change p c) := (touched_change d p c).sameBut h.locate_self

theorem Leads.change {d : Disk} {p : Path} {l : Location} (h : d.Leads p l) (c : FileChange) :
    (d.change p c).Leads p l := h.of_sameBut (sameBut_change h c)

/-! ## Removing a file -/

theorem remove_of_leads {d : Disk} {p : Path} {l : Location} (h : d.Leads p l) :
    d.remove p = match d.find? l with
      | none => .error .notFound
      | some .directory => .error .isDirectory
      | some (.file _) => .ok (d.erase l) := by
  rw [remove, h.locate_self]
  rfl

/-- What cannot be written cannot be removed either, for the same reason. -/
theorem remove_of_write_error {d : Disk} {p : Path} {content : List UInt8} {e : DiskError}
    (h : d.write p content = .error e) : d.remove p = .error e := by
  unfold write at h
  unfold remove
  cases hlocate : d.locate p with
  | error e' =>
    rw [hlocate] at h
    exact h
  | ok l =>
    simp only [hlocate, bind, Except.bind] at h ⊢
    cases hl : d.find? l with
    | none => simp [hl, pure, Except.pure] at h
    | some entry =>
      cases entry with
      | file content => simp [hl, pure, Except.pure] at h
      | directory =>
        simp only [hl] at h ⊢
        exact h

/-- **A file that is removed is gone**, and nothing else. -/
theorem touched_remove {d d' : Disk} {p : Path} (h : d.remove p = .ok d') :
    Touched p d d' ∧ d'.entryAt? p = none := by
  unfold remove at h
  cases hlocate : d.locate p with
  | error e => simp [hlocate, bind, Except.bind] at h
  | ok l =>
    simp only [hlocate, bind, Except.bind] at h
    split at h
    · cases h
    · cases h
    · next content hl =>
      obtain rfl := Except.ok.inj h
      have htouched : Touched p d (d.erase l) :=
        touched_of_sameBut hlocate (sameBut_erase d l) fun hdir => by simp [hdir] at hl
      have hroot : l ≠ [] := by
        rintro rfl
        cases hl
      refine ⟨htouched, ?_⟩
      rw [entryAt?, htouched.locate hlocate]
      dsimp only
      rw [find?_erase d l l hroot, if_pos rfl]

theorem entryAt?_of_notFound {d : Disk} {p : Path} (h : d.remove p = .error .notFound) :
    d.entryAt? p = none := by
  unfold remove at h
  unfold entryAt?
  cases hlocate : d.locate p with
  | error e => rfl
  | ok l =>
    simp only [hlocate, bind, Except.bind] at h ⊢
    split at h
    · next hl => exact hl
    · cases h
    · cases h

/-- A file that was just written can be removed. -/
theorem remove_of_write {d d' : Disk} {p : Path} {content : List UInt8}
    (h : d.write p content = .ok d') : ∃ d₂, d'.remove p = .ok d₂ := by
  obtain ⟨l, hleads, hentry, -⟩ := leads_of_write h
  rw [remove_of_leads hleads, hentry]
  exact ⟨_, rfl⟩

/-! ## Other disks -/

structure AlikeAt (p : Path) (d d' : Disk) : Prop where
  locate : d'.locate p = d.locate p
  entry : ∀ l, d.locate p = .ok l → d'.find? l = d.find? l

theorem write_error_of_alike {d d' : Disk} {p : Path} (h : AlikeAt p d d') {content : List UInt8}
    {e : DiskError} (hwrite : d.write p content = .error e) : d'.write p content = .error e := by
  unfold write at hwrite ⊢
  rw [h.locate]
  cases hlocate : d.locate p with
  | error e' =>
    rw [hlocate] at hwrite
    exact hwrite
  | ok l =>
    simp only [hlocate, bind, Except.bind] at hwrite ⊢
    rw [h.entry l hlocate]
    split at hwrite
    · exact hwrite
    · cases hwrite

/-- What can be written can be written on a disk that is alike too, at the same place. -/
theorem write_ok_of_alike {d d₁ d' : Disk} {p : Path} (h : AlikeAt p d d') {content : List UInt8}
    (hwrite : d.write p content = .ok d₁) :
    ∃ d₁' l, d'.write p content = .ok d₁' ∧ d₁.Leads p l ∧ d₁'.Leads p l ∧
      d₁.find? l = some (.file content) ∧ d₁'.find? l = some (.file content) := by
  obtain ⟨l, hlocate, hl, rfl⟩ := locate_of_write hwrite
  have hlocate' : d'.locate p = .ok l := h.locate.trans hlocate
  have hl' : d'.find? l ≠ some .directory := by rwa [h.entry l hlocate]
  have hput : d'.write p content = .ok (d'.put l (.file content)) := by
    simp only [write, hlocate', bind, Except.bind]
    rfl
  have hleads := leads_of_locate hlocate hl
  have hleads' := leads_of_locate hlocate' hl'
  refine ⟨_, l, hput, hleads.of_sameBut (sameBut_put d l _),
    hleads'.of_sameBut (sameBut_put d' l _), ?_, ?_⟩
  · rw [find?_put d l l _ hleads.ne_root, if_pos rfl]
  · rw [find?_put d' l l _ hleads.ne_root, if_pos rfl]

end FormatServer.Disk
