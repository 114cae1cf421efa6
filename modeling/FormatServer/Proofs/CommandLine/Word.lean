import Mathlib.Data.List.Nodup
import FormatServer.CommandLine.Choices
import FormatServer.Proofs.Lookup

/-!
What a single word of a command line is taken for. A word names a switch by its full name or by a start that no
other long name has (`StandsFor`); what stands behind an equals sign is its value, and letters may follow a name of
one dash (`Written`). Main statement (`readWord_eq_iff`): these words are read as switches, those that could be short
for several names are refused, and all others are values or words that mean nothing.
-/

namespace FormatServer.CommandLine

open Text

/-! ## The names of switches -/

theorem lookup_names_iff (name : String) (s : Switch) : names.lookup name = some s ↔ (name, s) ∈ names :=
  lookup_eq_some_iff_mem (by decide)

theorem equals_not_mem_name : ∀ entry ∈ names, '=' ∉ entry.1.toList := by decide

theorem nodup_names : names.Nodup := by decide

/-- A name has one dash and a letter, or two dashes in front. -/
theorem name_shape : ∀ entry ∈ names,
    isShort entry.1 = true ∧ entry.1.toList.length = 2 ∧ entry.1.toList.head? = some '-' ∨
      isShort entry.1 = false ∧ ['-', '-'] <+: entry.1.toList := by decide

/-- Help alone has a name of one dash. -/
theorem short_name : ∀ entry ∈ names, isShort entry.1 = true → entry = ("-h", .help) := by decide

/-- A name stands for an entry among those of the switches: it is the name there, or a start of that name which has
two dashes and is a start of no other name. -/
inductive StandsFor : List Char → String × Switch → Prop where
  | full {entry : String × Switch} (hentry : entry ∈ names) : StandsFor entry.1.toList entry
  | start {stem : List Char} {entry : String × Switch} (hdashes : ['-', '-'] <+: stem) (hentry : entry ∈ names)
      (hstart : stem <+: entry.1.toList) (honly : ∀ other ∈ names, stem <+: other.1.toList → other = entry) :
      StandsFor stem entry

variable {w : String} {stem cs : List Char} {attached : Option (List Char)} {entry : String × Switch}

theorem StandsFor.mem (h : StandsFor stem entry) : entry ∈ names := by
  cases h with
  | full hentry => exact hentry
  | start _ hentry _ _ => exact hentry

/-- What stands in a word in front of its first equals sign, and what stands behind it if there is one. -/
inductive Stem : List Char → List Char → Option (List Char) → Prop where
  | whole {cs : List Char} (h : '=' ∉ cs) : Stem cs cs none
  | cut {stem value : List Char} (h : '=' ∉ stem) : Stem (stem ++ '=' :: value) stem (some value)

private theorem stem_cutAt (cs : List Char) : Stem cs (cutAt '=' cs).1 (cutAt '=' cs).2 := by
  induction cs with
  | nil => exact .whole (by simp)
  | cons c rest ih =>
    by_cases hc : c = '='
    · subst hc
      simpa [cutAt] using @Stem.cut [] rest (by simp)
    · have hne : '=' ≠ c := Ne.symm hc
      rw [cutAt, if_neg hc]
      generalize cutAt '=' rest = p at ih
      obtain ⟨stem, attached⟩ := p
      dsimp only at ih ⊢
      cases ih with
      | whole h => exact .whole (by simp [hne, h])
      | @cut _ value h => exact @Stem.cut (c :: stem) value (by simp [hne, h])

private theorem cutAt_append (h : '=' ∉ stem) (value : List Char) :
    cutAt '=' (stem ++ '=' :: value) = (stem, some value) := by
  induction stem with
  | nil => simp [cutAt]
  | cons c rest ih =>
    obtain ⟨hc, hrest⟩ := not_or.mp fun hor => h (List.mem_cons.mpr hor)
    rw [List.cons_append, cutAt, if_neg (Ne.symm hc), ih hrest]

private theorem cutAt_of_not_mem (h : '=' ∉ cs) : cutAt '=' cs = (cs, none) := by
  induction cs with
  | nil => rfl
  | cons c rest ih =>
    obtain ⟨hc, hrest⟩ := not_or.mp fun hor => h (List.mem_cons.mpr hor)
    rw [cutAt, if_neg (Ne.symm hc), ih hrest]

theorem Stem.cutAt_eq (h : Stem cs stem attached) : cutAt '=' cs = (stem, attached) := by
  cases h with
  | whole h => exact cutAt_of_not_mem h
  | cut h => exact cutAt_append h _

theorem Stem.eq_of_none (h : Stem cs stem none) : stem = cs := by
  cases h
  rfl

theorem Stem.isPrefix (h : Stem cs stem attached) : stem <+: cs := by
  cases h with
  | whole _ => exact List.prefix_rfl
  | cut _ => exact List.prefix_append _ _

/-! ## What a word can be -/

inductive Written (w : String) (entry : String × Switch) : Option (List Char) → Prop where
  | named {stem : List Char} {attached : Option (List Char)} (hstem : Stem w.toList stem attached)
      (hname : StandsFor stem entry) : Written w entry attached
  /-- letters right behind a name of one dash -/
  | letters {letters : List Char} (hentry : entry ∈ names) (hshort : isShort entry.1 = true)
      (hw : w.toList = entry.1.toList ++ letters) (hne : letters ≠ []) (hequals : letters.head? ≠ some '=') :
      Written w entry (some letters)

theorem Written.mem (h : Written w entry attached) : entry ∈ names := by
  cases h with
  | named _ hname => exact hname.mem
  | letters hentry _ _ _ _ => exact hentry

/-- A word with a dash in front that is no name and no start of one. -/
inductive Unlike (w : String) : Prop where
  | long {stem : List Char} {attached : Option (List Char)} (hstem : Stem w.toList stem attached)
      (hdashes : ['-', '-'] <+: stem) (hnone : ∀ entry ∈ names, ¬ stem <+: entry.1.toList)
  | short {c : Char} {rest : List Char} (hw : w.toList = '-' :: c :: rest) (hc : c ≠ '-')
      (hnone : ∀ entry ∈ names, entry.1.toList ≠ ['-', c])

/-- A word that can be a value: it has no dash in front, or is nothing but a dash, or is like no switch and either a
negative number or a text with a space. -/
inductive IsValue (w : String) : Prop where
  | plain (h : w.toList.head? ≠ some '-')
  | dash (h : w.toList = ['-'])
  | like (h : Unlike w) (hlooks : isNegativeNumber w.toList = true ∨ ' ' ∈ w.toList)

inductive IsAmbiguous (w : String) : Ambiguity → Prop where
  | mk {stem : List Char} {attached : Option (List Char)} {x y : String × Switch}
      (hstem : Stem w.toList stem attached) (hdashes : ['-', '-'] <+: stem)
      (hnone : ∀ entry ∈ names, entry.1.toList ≠ stem) (hx : x ∈ names) (hy : y ∈ names) (hne : x ≠ y)
      (hstarts : stem <+: x.1.toList ∧ stem <+: y.1.toList) :
      IsAmbiguous w ⟨w, (names.filter fun entry => stem.isPrefixOf entry.1.toList).map (·.1)⟩

inductive Taken (w : String) : Except Ambiguity Word → Prop where
  | switch {entry : String × Switch} {attached : Option (List Char)} (h : Written w entry attached) :
      Taken w (.ok (.switch entry.2 entry.1 attached))
  | value (h : IsValue w) : Taken w (.ok .plain)
  | unknown (h : Unlike w) (hnumber : isNegativeNumber w.toList = false) (hspace : ' ' ∉ w.toList) :
      Taken w (.ok .unknown)
  | ambiguous {a : Ambiguity} (h : IsAmbiguous w a) : Taken w (.error a)

/-! ## Reading -/

/-- A word that starts with a full name has a dash in front and something behind it. -/
private theorem dashed_of_name (hentry : entry ∈ names) (h : entry.1.toList <+: w.toList) :
    ∃ c rest, w.toList = '-' :: c :: rest := by
  have hshape : ∀ entry ∈ names, ['-'] <+: entry.1.toList ∧ 2 ≤ entry.1.toList.length := by decide
  obtain ⟨⟨tail, htail⟩, hlength⟩ := hshape entry hentry
  obtain ⟨more, hmore⟩ := h
  cases tail with
  | nil => simp [← htail] at hlength
  | cons c rest => exact ⟨c, rest ++ more, by rw [← hmore, ← htail]; rfl⟩

/-- A word with a dash in front that is no full name may be one with a value behind it. -/
private theorem readWord_dashed {c : Char} {rest : List Char} (hw : w.toList = '-' :: c :: rest)
    (hnone : ∀ entry ∈ names, entry.1 ≠ w) (hstem : Stem w.toList stem attached) :
    (∀ s value, names.lookup (String.ofList stem) = some s → attached = some value →
      readWord w = .ok (.switch s (String.ofList stem) (some value))) ∧
    (names.lookup (String.ofList stem) = none →
      readWord w = if c = '-' then readLong w else .ok (readShort w)) := by
  have hword : names.lookup w = none := by
    cases hlookup : names.lookup w with
    | none => rfl
    | some s => exact absurd rfl (hnone (w, s) ((lookup_names_iff w s).mp hlookup))
  rw [readWord]
  split
  · next second tail heq =>
    obtain ⟨rfl, -⟩ := List.cons.inj (List.cons.inj (hw.symm.trans heq)).2
    simp only [hword, hstem.cutAt_eq]
    constructor
    · rintro s value hs rfl
      simp only [hs]
    · intro hs
      simp only [hs]
  · next hnot => exact absurd hw (hnot c rest)

private theorem readWord_of_not_dashed (h : ∀ c rest, w.toList ≠ '-' :: c :: rest) :
    readWord w = .ok .plain := by
  rw [readWord]
  split
  · next c rest hw => exact absurd hw (h c rest)
  · rfl

/-- A full name is read as its switch. -/
private theorem readWord_of_name (hentry : entry ∈ names) :
    readWord entry.1 = .ok (.switch entry.2 entry.1 none) := by
  obtain ⟨c, rest, hw⟩ := dashed_of_name hentry List.prefix_rfl
  rw [readWord]
  split
  · rw [(lookup_names_iff entry.1 entry.2).mpr hentry]
  · next hnot => exact absurd hw (hnot c rest)

/-- A word with an equals sign in it is no full name. -/
private theorem ne_of_joined {value : List Char} (hstem : Stem w.toList stem (some value)) :
    ∀ entry ∈ names, entry.1 ≠ w := by
  rintro entry hentry rfl
  have hequals := equals_not_mem_name entry hentry
  generalize entry.1.toList = cs at hstem hequals
  cases hstem
  simp at hequals

/-- A full name with a value is read as its switch. -/
private theorem readWord_of_joined {value : List Char} (hentry : entry ∈ names)
    (hstem : Stem w.toList entry.1.toList (some value)) :
    readWord w = .ok (.switch entry.2 entry.1 (some value)) := by
  obtain ⟨c, rest, hw⟩ := dashed_of_name hentry hstem.isPrefix
  obtain ⟨hjoined, -⟩ := readWord_dashed hw (ne_of_joined hstem) hstem
  rw [String.ofList_toList] at hjoined
  exact hjoined entry.2 value ((lookup_names_iff entry.1 entry.2).mpr hentry) rfl

/-- What a word is taken for whose stem is no full name. -/
private theorem readWord_of_stem {c : Char} {rest : List Char} (hw : w.toList = '-' :: c :: rest)
    (hstem : Stem w.toList stem attached) (hnone : ∀ entry ∈ names, entry.1.toList ≠ stem) :
    readWord w = if c = '-' then readLong w else .ok (readShort w) := by
  have hword : ∀ entry ∈ names, entry.1 ≠ w := by
    cases attached with
    | some value => exact ne_of_joined hstem
    | none =>
      rintro entry hentry rfl
      have hne := hnone entry hentry
      generalize entry.1.toList = cs at hstem hne
      cases hstem
      exact hne rfl
  have hname : names.lookup (String.ofList stem) = none := by
    cases hlookup : names.lookup (String.ofList stem) with
    | none => rfl
    | some s =>
      have hmem := (lookup_names_iff (String.ofList stem) s).mp hlookup
      exact absurd String.toList_ofList (hnone _ hmem)
  exact (readWord_dashed hw hword hstem).2 hname

/-! ## Names that are shortened -/

theorem mem_candidates : entry ∈ candidates stem ↔ entry ∈ names ∧ stem <+: entry.1.toList := by
  simp [candidates]

private theorem candidates_of_start (hentry : entry ∈ names) (hstart : stem <+: entry.1.toList)
    (honly : ∀ other ∈ names, stem <+: other.1.toList → other = entry) : candidates stem = [entry] := by
  have hnodup : (candidates stem).Nodup := nodup_names.filter _
  have hall : ∀ other ∈ candidates stem, other = entry := fun other hother =>
    honly other (mem_candidates.mp hother).1 (mem_candidates.mp hother).2
  have hmem : entry ∈ candidates stem := mem_candidates.mpr ⟨hentry, hstart⟩
  generalize candidates stem = found at hnodup hall hmem
  cases found with
  | nil => cases hmem
  | cons first more =>
    obtain ⟨hfirst, -⟩ := List.nodup_cons.mp hnodup
    obtain rfl := hall first List.mem_cons_self
    cases more with
    | nil => rfl
    | cons second _ => exact absurd (hall second (by simp) ▸ List.mem_cons_self) hfirst

private theorem readLong_eq (w : String) :
    readLong w = match candidates (cutAt '=' w.toList).1 with
      | [] => .ok (leftover w.toList)
      | [(name, s)] => .ok (.switch s name (cutAt '=' w.toList).2)
      | many => .error ⟨w, many.map (·.1)⟩ := rfl

/-- A name that starts a word of one dash is of one dash. -/
private theorem eq_of_isPrefix {c : Char} {rest : List Char} (hentry : entry ∈ names) (hc : c ≠ '-')
    (h : entry.1.toList <+: '-' :: c :: rest) : entry.1.toList = ['-', c] ∧ isShort entry.1 = true := by
  obtain ⟨more, hmore⟩ := h
  rcases name_shape entry hentry with ⟨hshort, hlength, -⟩ | ⟨-, tail, htail⟩
  · have htake := congrArg (List.take 2) hmore
    rw [← hlength, List.take_left, hlength] at htake
    exact ⟨htake, hshort⟩
  · rw [← htail] at hmore
    exact absurd (List.cons.inj (List.cons.inj hmore).2).1.symm hc

/-! ## Every word is taken for what it is -/

private theorem taken_leftover (h : Unlike w) : Taken w (.ok (leftover w.toList)) := by
  rw [leftover]
  split
  · next hlooks => exact .value (.like h (by simpa using hlooks))
  · next hlooks =>
    obtain ⟨hnumber, hspace⟩ : isNegativeNumber w.toList = false ∧ ' ' ∉ w.toList := by simpa using hlooks
    exact .unknown h hnumber hspace

private theorem taken_readLong (hstem : Stem w.toList stem attached) (hdashes : ['-', '-'] <+: stem)
    (hnone : ∀ entry ∈ names, entry.1.toList ≠ stem) : Taken w (readLong w) := by
  rw [readLong_eq, hstem.cutAt_eq]
  dsimp only
  cases hfound : candidates stem with
  | nil =>
    refine taken_leftover (.long hstem hdashes fun entry hentry hstart => ?_)
    have hmem := mem_candidates.mpr ⟨hentry, hstart⟩
    rw [hfound] at hmem
    cases hmem
  | cons first more =>
    obtain ⟨hfirst, hstart⟩ := mem_candidates.mp (hfound ▸ List.mem_cons_self : first ∈ candidates stem)
    cases more with
    | nil =>
      refine .switch (.named hstem (.start hdashes hfirst hstart fun other hother h => ?_))
      simpa [hfound] using mem_candidates.mpr ⟨hother, h⟩
    | cons second rest =>
      have hmem : second ∈ candidates stem := by simp [hfound]
      obtain ⟨hsecond, hstart'⟩ := mem_candidates.mp hmem
      have hne : first ≠ second := by
        have hnodup : (candidates stem).Nodup := nodup_names.filter _
        rw [hfound] at hnodup
        rintro rfl
        exact (List.nodup_cons.mp hnodup).1 List.mem_cons_self
      have htaken : Taken w (.error ⟨w, (candidates stem).map (·.1)⟩) :=
        .ambiguous (.mk hstem hdashes hnone hfirst hsecond hne ⟨hstart, hstart'⟩)
      rwa [hfound] at htaken

private theorem stem_dashed {c : Char} {rest : List Char} (hw : w.toList = '-' :: c :: rest) (hc : c ≠ '=')
    (hstem : Stem w.toList stem attached) : stem = '-' :: c :: (cutAt '=' rest).1 := by
  have hcut := congrArg Prod.fst hstem.cutAt_eq
  rw [hw, cutAt, if_neg (by decide), cutAt, if_neg hc] at hcut
  exact hcut.symm

/-- The stem of a word of one dash is its first letter exactly when nothing follows it, or an equals sign. -/
private theorem stem_eq_iff {c : Char} {rest : List Char} (hw : w.toList = '-' :: c :: rest) (hc : c ≠ '=')
    (hstem : Stem w.toList stem attached) : stem = ['-', c] ↔ rest = [] ∨ rest.head? = some '=' := by
  rw [stem_dashed hw hc hstem]
  cases rest with
  | nil => simp [cutAt]
  | cons d more => by_cases hd : d = '=' <;> simp [cutAt, hd]

private theorem taken_readShort {c : Char} {rest : List Char} (hw : w.toList = '-' :: c :: rest) (hc : c ≠ '-')
    (hstem : Stem w.toList stem attached) (hnone : ∀ entry ∈ names, entry.1.toList ≠ stem) :
    Taken w (.ok (readShort w)) := by
  rw [readShort, hw]
  simp only [List.take_succ_cons, List.take_zero, List.drop_succ_cons, List.drop_zero]
  cases hlookup : names.lookup (String.ofList ['-', c]) with
  | some s =>
    have hentry := (lookup_names_iff _ s).mp hlookup
    have hstart : (String.ofList ['-', c]).toList <+: '-' :: c :: rest := by simp
    obtain ⟨hname, hshort⟩ := eq_of_isPrefix hentry hc hstart
    have hletter : c ≠ '=' := by
      rintro rfl
      exact equals_not_mem_name _ hentry (by simp [hname])
    have hstem' : stem ≠ ['-', c] := fun heq => hnone _ hentry (hname.trans heq.symm)
    rw [Ne, stem_eq_iff hw hletter hstem] at hstem'
    obtain ⟨hne, hequals⟩ := not_or.mp hstem'
    have hwritten : Written w (String.ofList ['-', c], s) (some rest) :=
      .letters hentry hshort (by simp [hw]) hne hequals
    exact .switch hwritten
  | none =>
    have hunlike : Unlike w := by
      refine .short hw hc fun entry hentry hname => ?_
      rw [← hname, String.ofList_toList, (lookup_names_iff entry.1 entry.2).mpr hentry] at hlookup
      cases hlookup
    exact hw ▸ taken_leftover hunlike

/-- **A word is taken for what it is.** -/
theorem taken_readWord (w : String) : Taken w (readWord w) := by
  by_cases hdashed : ∃ c rest, w.toList = '-' :: c :: rest
  · obtain ⟨c, rest, hw⟩ := hdashed
    have hstem := stem_cutAt w.toList
    generalize cutAt '=' w.toList = p at hstem
    obtain ⟨stem, attached⟩ := p
    dsimp only at hstem
    by_cases hfull : ∃ entry ∈ names, entry.1.toList = stem
    · obtain ⟨entry, hentry, rfl⟩ := hfull
      have htaken := Taken.switch (.named hstem (.full hentry))
      cases attached with
      | none =>
        obtain rfl := String.toList_inj.mp hstem.eq_of_none
        rwa [readWord_of_name hentry]
      | some value => rwa [readWord_of_joined hentry hstem]
    · have hnone : ∀ entry ∈ names, entry.1.toList ≠ stem := fun entry hentry heq =>
        hfull ⟨entry, hentry, heq⟩
      rw [readWord_of_stem hw hstem hnone]
      by_cases hc : c = '-'
      · subst hc
        rw [if_pos rfl]
        exact taken_readLong hstem (stem_dashed hw (by decide) hstem ▸ ⟨_, rfl⟩) hnone
      · rw [if_neg hc]
        exact taken_readShort hw hc hstem hnone
  · rw [readWord_of_not_dashed fun c rest hw => hdashed ⟨c, rest, hw⟩]
    refine .value ?_
    rcases hw : w.toList with _ | ⟨first, rest⟩
    · exact .plain (by simp [hw])
    · by_cases hfirst : first = '-'
      · subst hfirst
        cases rest with
        | nil => exact .dash hw
        | cons c rest => exact absurd ⟨c, rest, hw⟩ hdashed
      · exact .plain (by simp [hw, hfirst])

private theorem eq_of_name_eq {other : String × Switch} (hentry : entry ∈ names) (hother : other ∈ names)
    (h : entry.1 = other.1) : entry = other := by
  have hlookup := (lookup_names_iff entry.1 entry.2).mpr hentry
  rw [h, (lookup_names_iff other.1 other.2).mpr hother] at hlookup
  exact Prod.ext h (Option.some.inj hlookup).symm

/-- A full name stands for itself alone. -/
private theorem StandsFor.eq_of_full {other : String × Switch} (h : StandsFor stem entry) (hother : other ∈ names)
    (hfull : other.1.toList = stem) : other = entry := by
  cases h with
  | full hentry => exact eq_of_name_eq hother hentry (String.toList_inj.mp hfull)
  | start _ _ _ honly => exact honly other hother (hfull ▸ List.prefix_rfl)

private theorem readLong_of_start (hstem : Stem w.toList stem attached) (hentry : entry ∈ names)
    (hstart : stem <+: entry.1.toList) (honly : ∀ other ∈ names, stem <+: other.1.toList → other = entry) :
    readLong w = .ok (.switch entry.2 entry.1 attached) := by
  rw [readLong_eq, hstem.cutAt_eq]
  dsimp only
  rw [candidates_of_start hentry hstart honly]

/-- A word whose stem has two dashes has them as well. -/
private theorem dashed_of_stem (hstem : Stem w.toList stem attached) (hdashes : ['-', '-'] <+: stem) :
    ∃ rest, w.toList = '-' :: '-' :: rest := by
  obtain ⟨rest, hrest⟩ := hdashes.trans hstem.isPrefix
  exact ⟨rest, hrest.symm⟩

private theorem readWord_of_named (hstem : Stem w.toList stem attached) (hname : StandsFor stem entry) :
    readWord w = .ok (.switch entry.2 entry.1 attached) := by
  by_cases hfull : ∃ other ∈ names, other.1.toList = stem
  · obtain ⟨other, hother, heq⟩ := hfull
    obtain rfl := hname.eq_of_full hother heq
    subst heq
    cases attached with
    | none =>
      obtain rfl := String.toList_inj.mp hstem.eq_of_none
      exact readWord_of_name hother
    | some value => exact readWord_of_joined hother hstem
  · have hnone : ∀ entry ∈ names, entry.1.toList ≠ stem := fun entry hentry heq => hfull ⟨entry, hentry, heq⟩
    cases hname with
    | full hentry => exact absurd rfl (hnone entry hentry)
    | start hdashes hentry hstart honly =>
      obtain ⟨rest, hw⟩ := dashed_of_stem hstem hdashes
      rw [readWord_of_stem hw hstem hnone, if_pos rfl]
      exact readLong_of_start hstem hentry hstart honly

/-- What is read of a word with one dash that has no full name in front. -/
private theorem readWord_of_one_dash {c : Char} {rest : List Char} (hw : w.toList = '-' :: c :: rest) (hc : c ≠ '-')
    (hnone : ∀ entry ∈ names, entry.1.toList = ['-', c] → rest ≠ [] ∧ rest.head? ≠ some '=') :
    readWord w = .ok (match names.lookup (String.ofList ['-', c]) with
      | some s => .switch s (String.ofList ['-', c]) (some rest)
      | none => leftover w.toList) := by
  have hstem := stem_cutAt w.toList
  have hfull : ∀ entry ∈ names, entry.1.toList ≠ (cutAt '=' w.toList).1 := by
    intro entry hentry heq
    obtain ⟨hname, -⟩ := eq_of_isPrefix hentry hc (hw ▸ heq ▸ hstem.isPrefix)
    have hletter : c ≠ '=' := by
      rintro rfl
      exact equals_not_mem_name entry hentry (by simp [hname])
    obtain ⟨hne, hequals⟩ := hnone entry hentry hname
    rcases (stem_eq_iff hw hletter hstem).mp (heq.symm.trans hname) with hnil | hhead
    · exact hne hnil
    · exact hequals hhead
  rw [readWord_of_stem hw hstem hfull, if_neg hc, readShort, hw]
  rfl

private theorem readWord_of_letters {letters : List Char} (hentry : entry ∈ names)
    (hshort : isShort entry.1 = true) (hw : w.toList = entry.1.toList ++ letters) (hne : letters ≠ [])
    (hequals : letters.head? ≠ some '=') : readWord w = .ok (.switch entry.2 entry.1 (some letters)) := by
  obtain rfl := short_name entry hentry hshort
  rw [readWord_of_one_dash hw (by decide) fun _ _ _ => ⟨hne, hequals⟩]
  rfl

private theorem readWord_of_unlike (h : Unlike w) : readWord w = .ok (leftover w.toList) := by
  cases h with
  | @long stem attached hstem hdashes hnone =>
    obtain ⟨rest, hw⟩ := dashed_of_stem hstem hdashes
    have hfull : ∀ entry ∈ names, entry.1.toList ≠ stem := by
      rintro entry hentry rfl
      exact hnone entry hentry List.prefix_rfl
    have hcandidates : candidates stem = [] :=
      List.eq_nil_iff_forall_not_mem.mpr fun entry hentry =>
        hnone entry (mem_candidates.mp hentry).1 (mem_candidates.mp hentry).2
    rw [readWord_of_stem hw hstem hfull, if_pos rfl, readLong_eq, hstem.cutAt_eq]
    dsimp only
    rw [hcandidates]
  | @short c rest hw hc hnone =>
    have hlookup : names.lookup (String.ofList ['-', c]) = none := by
      cases hlookup : names.lookup (String.ofList ['-', c]) with
      | none => rfl
      | some s => exact absurd String.toList_ofList (hnone _ ((lookup_names_iff _ s).mp hlookup))
    rw [readWord_of_one_dash hw hc fun entry hentry heq => absurd heq (hnone entry hentry), hlookup]

private theorem readWord_of_ambiguous {a : Ambiguity} (h : IsAmbiguous w a) : readWord w = .error a := by
  cases h with
  | @mk stem attached x y hstem hdashes hnone hx hy hne hstarts =>
    obtain ⟨rest, hw⟩ := dashed_of_stem hstem hdashes
    rw [readWord_of_stem hw hstem hnone, if_pos rfl, readLong_eq, hstem.cutAt_eq]
    dsimp only
    change _ = Except.error (⟨w, (candidates stem).map (·.1)⟩ : Ambiguity)
    have hx' := mem_candidates.mpr ⟨hx, hstarts.1⟩
    have hy' := mem_candidates.mpr ⟨hy, hstarts.2⟩
    generalize candidates stem = found at hx' hy'
    match found with
    | [] => cases hx'
    | [first] => exact absurd ((List.mem_singleton.mp hx').trans (List.mem_singleton.mp hy').symm) hne
    | first :: second :: more => rfl

/-- **What a word is read as is what it is taken for.** -/
theorem readWord_eq_iff (w : String) (r : Except Ambiguity Word) : readWord w = r ↔ Taken w r := by
  refine ⟨fun h => h ▸ taken_readWord w, fun h => ?_⟩
  cases h with
  | switch h =>
    cases h with
    | named hstem hname => exact readWord_of_named hstem hname
    | letters hentry hshort hw hne hequals => exact readWord_of_letters hentry hshort hw hne hequals
  | value h =>
    cases h with
    | plain h =>
      refine readWord_of_not_dashed fun c rest hw => h ?_
      rw [hw]
      rfl
    | dash h =>
      refine readWord_of_not_dashed fun c rest hw => ?_
      rw [h] at hw
      cases hw
    | like h hlooks => rw [readWord_of_unlike h, leftover, if_pos (by simpa using hlooks)]
  | unknown h hnumber hspace => rw [readWord_of_unlike h, leftover, if_neg (by simp [hnumber, hspace])]
  | ambiguous h => exact readWord_of_ambiguous h

theorem readWord_eq_error_iff (w : String) (a : Ambiguity) : readWord w = .error a ↔ IsAmbiguous w a := by
  rw [readWord_eq_iff]
  refine ⟨fun h => ?_, .ambiguous⟩
  cases h with
  | ambiguous h => exact h

theorem readWord_eq_switch_iff (w : String) (entry : String × Switch) (attached : Option (List Char)) :
    readWord w = .ok (.switch entry.2 entry.1 attached) ↔ Written w entry attached := by
  obtain ⟨name, s⟩ := entry
  rw [readWord_eq_iff]
  refine ⟨fun h => ?_, fun h => .switch h⟩
  cases h with
  | switch h => exact h

theorem readWord_eq_plain_iff (w : String) : readWord w = .ok .plain ↔ IsValue w := by
  rw [readWord_eq_iff]
  refine ⟨fun h => ?_, .value⟩
  cases h with
  | value h => exact h

end FormatServer.CommandLine
