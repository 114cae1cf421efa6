import Mathlib.Data.List.Infix
import Mathlib.Tactic.SplitIfs
import FormatServer.Command.Quoting
import FormatServer.Proofs.Settings.Layer

/-!
Command lines as they are written. A line of quoted and escaped words splits into these words
(`split_writeLine`). A line that is cut short is refused exactly when the cut leaves a quote open or a backslash
without its character, and for just that (`split_cut`). Main statement (`quoted_commands_agree`): a written line
and the list of its words are the same command.
-/

namespace FormatServer

namespace Command

/-! ## Places -/

/-- The place after one more character. -/
def Place.next : Place → Char → Place
  | between, c | bare, c =>
    if isSeparator c then between
    else if c = '\'' then single
    else if c = '"' then double
    else if c = '\\' then bareEscape
    else bare
  | bareEscape, _ => bare
  | single, c => if c = '\'' then bare else single
  | double, c => if c = '"' then bare else if c = '\\' then doubleEscape else double
  | doubleEscape, _ => double

def Place.after (p : Place) (cs : List Char) : Place := cs.foldl next p

def Place.missing? : Place → Option SplitError
  | between | bare => none
  | single | double => some .openQuote
  | bareEscape | doubleEscape => some .danglingEscape

@[simp] theorem Place.after_nil (p : Place) : p.after [] = p := rfl

@[simp] theorem Place.after_cons (p : Place) (c : Char) (cs : List Char) :
    p.after (c :: cs) = (p.next c).after cs := rfl

@[simp] theorem Place.after_append (p : Place) (a b : List Char) :
    p.after (a ++ b) = (p.after a).after b := List.foldl_append

/-- One character moves the reader to its next place, and no fault is found on the way. -/
private theorem exists_splitFrom_cons (p : Place) (word : List Char) (c : Char) (rest : List Char) :
    ∃ word', ∀ cause, splitFrom p word (c :: rest) = .error cause ↔
      splitFrom (p.next c) word' rest = .error cause := by
  have hmap : ∀ (r : Except SplitError (List (List Char))) (cause : SplitError),
      r.map (word.reverse :: ·) = .error cause ↔ r = .error cause := by
    intro r cause
    cases r <;> simp [Except.map]
  cases p with
  | between =>
    rw [splitFrom, Place.next]
    split_ifs <;> exact ⟨_, fun _ => Iff.rfl⟩
  | bare =>
    rw [splitFrom, Place.next]
    split_ifs
    · exact ⟨[], hmap _⟩
    all_goals exact ⟨_, fun _ => Iff.rfl⟩
  | bareEscape => exact ⟨c :: word, fun _ => Iff.rfl⟩
  | single =>
    rw [splitFrom, Place.next]
    split_ifs <;> exact ⟨_, fun _ => Iff.rfl⟩
  | double =>
    rw [splitFrom, Place.next]
    split_ifs <;> exact ⟨_, fun _ => Iff.rfl⟩
  | doubleEscape =>
    rw [splitFrom, Place.next]
    split_ifs <;> exact ⟨_, fun _ => Iff.rfl⟩

/-- **A line is refused for what is missing at its end**, whatever words it holds. -/
theorem splitFrom_eq_error_iff (p : Place) (word cs : List Char) (cause : SplitError) :
    splitFrom p word cs = .error cause ↔ (p.after cs).missing? = some cause := by
  induction cs generalizing p word with
  | nil => cases p <;> simp [splitFrom, Place.missing?]
  | cons c rest ih =>
    obtain ⟨word', hnext⟩ := exists_splitFrom_cons p word c rest
    rw [hnext, ih, Place.after_cons]

/-! ## Written words -/

variable {p : Place} {gap part word : List Char} {style : Style} {cause : SplitError}

/-- A quote or a backslash outside quotes opens something, whether a word has begun or not. -/
private theorem next_of_outside (hp : p.missing? = none) :
    p.next '\'' = .single ∧ p.next '"' = .double ∧ p.next '\\' = .bareEscape := by
  cases p <;> first | decide | cases hp

private theorem outside_gap (hp : p.missing? = none) (hgap : ∀ c ∈ gap, isSeparator c = true) :
    (p.after gap).missing? = none := by
  induction gap generalizing p with
  | nil => exact hp
  | cons c rest ih =>
    obtain ⟨hc, hrest⟩ := List.forall_mem_cons.mp hgap
    have hnext : p.next c = .between := by
      cases p with
      | between | bare => exact if_pos hc
      | _ => cases hp
    rw [Place.after_cons, hnext]
    exact ih rfl hrest

private theorem after_single (word : List Char) :
    Place.single.after (word.flatMap singleChar) = .single := by
  induction word with
  | nil => rfl
  | cons c rest ih =>
    have hc : Place.single.after (singleChar c) = .single := by
      by_cases hquote : c = '\''
      · subst hquote
        decide
      · simp [singleChar, Place.next, hquote]
    rw [List.flatMap_cons, Place.after_append, hc, ih]

private theorem after_double (word : List Char) :
    Place.double.after (word.flatMap doubleChar) = .double := by
  induction word with
  | nil => rfl
  | cons c rest ih =>
    have hc : Place.double.after (doubleChar c) = .double := by
      by_cases hescape : c = '"' ∨ c = '\\'
      · simp [doubleChar, Place.next, hescape]
      · obtain ⟨hquote, hslash⟩ := not_or.mp hescape
        simp [doubleChar, Place.next, hquote, hslash]
    rw [List.flatMap_cons, Place.after_append, hc, ih]

private theorem outside_bare (hp : p.missing? = none) (word : List Char) :
    (p.after (word.flatMap fun c => ['\\', c])).missing? = none := by
  induction word generalizing p with
  | nil => exact hp
  | cons c rest ih =>
    rw [List.flatMap_cons, Place.after_append, Place.after_cons, (next_of_outside hp).2.2]
    exact ih rfl

/-- **A written word leaves nothing open.** -/
theorem outside_write (hp : p.missing? = none) (style : Style) (word : List Char) :
    (p.after (style.write word)).missing? = none := by
  obtain ⟨hsingle, hdouble, -⟩ := next_of_outside hp
  cases style with
  | single =>
    rw [Style.write, List.cons_append, Place.after_cons, hsingle, Place.after_append, after_single]
    rfl
  | double =>
    rw [Style.write, List.cons_append, Place.after_cons, hdouble, Place.after_append, after_double]
    rfl
  | bare => exact outside_bare hp word

/-! ## Cuts -/

/-- What is left of a written word that is cut within quotes, or between a backslash and its character; and what
is missing then. -/
inductive Style.Cut : Style → List Char → List Char → SplitError → Prop where
  /-- between single quotes -/
  | single (before after : List Char) :
      Cut .single (before ++ after) ('\'' :: before.flatMap singleChar) .openQuote
  /-- between the double quotes around a single quote, before it or after it -/
  | quote (before after : List Char) {part : List Char}
      (hpart : part = ['\'', '"'] ∨ part = ['\'', '"', '\'']) :
      Cut .single (before ++ '\'' :: after) ('\'' :: before.flatMap singleChar ++ part) .openQuote
  /-- between double quotes -/
  | double (before after : List Char) :
      Cut .double (before ++ after) ('"' :: before.flatMap doubleChar) .openQuote
  /-- after a backslash between double quotes -/
  | escape (before after : List Char) {c : Char} (hc : c = '"' ∨ c = '\\') :
      Cut .double (before ++ c :: after) ('"' :: before.flatMap doubleChar ++ ['\\']) .danglingEscape
  /-- after a backslash outside quotes -/
  | bare (before : List Char) (c : Char) (after : List Char) :
      Cut .bare (before ++ c :: after) (before.flatMap (fun c => ['\\', c]) ++ ['\\']) .danglingEscape

private theorem prefix_append_cases {α : Type} {part a b : List α} (h : part <+: a ++ b) :
    part <+: a ∨ ∃ q, part = a ++ q ∧ q <+: b := by
  rcases List.prefix_or_prefix_of_prefix h (List.prefix_append a b) with hpart | ⟨q, rfl⟩
  · exact .inl hpart
  · exact .inr ⟨q, rfl, (List.prefix_append_right_inj a).mp h⟩

/-- What comes before a place in a text that is written item by item: whole items, and a part of the next. -/
private theorem prefix_flatMap {α β : Type} {f : α → List β} {l : List α} {part : List β}
    (h : part <+: l.flatMap f) :
    part = l.flatMap f ∨ ∃ a x b q, l = a ++ x :: b ∧ part = a.flatMap f ++ q ∧ q <+: (f x).dropLast := by
  induction l generalizing part with
  | nil => exact .inl (List.prefix_nil.mp h)
  | cons x rest ih =>
    rw [List.flatMap_cons] at h
    by_cases hx : f x <+: part
    · obtain ⟨later, rfl⟩ := hx
      rcases ih ((List.prefix_append_right_inj _).mp h) with rfl | ⟨a, y, b, q, rfl, rfl, hq⟩
      · exact .inl List.flatMap_cons.symm
      · exact .inr ⟨x :: a, y, b, q, rfl, by simp, hq⟩
    · obtain ⟨t, ht⟩ :=
        (List.prefix_or_prefix_of_prefix h (List.prefix_append _ _)).resolve_right hx
      have hne : t ≠ [] := by
        rintro rfl
        rw [List.append_nil] at ht
        exact hx (ht ▸ List.prefix_rfl)
      refine .inr ⟨[], x, rest, part, rfl, rfl, ?_⟩
      rw [← ht, List.dropLast_append_of_ne_nil hne]
      exact List.prefix_append _ _

private theorem missing_of_cut (hp : p.missing? = none) (h : style.Cut word part cause) :
    (p.after part).missing? = some cause := by
  obtain ⟨hsingle, hdouble, -⟩ := next_of_outside hp
  cases h with
  | single =>
    rw [Place.after_cons, hsingle, after_single]
    rfl
  | quote before after hpart =>
    rw [List.cons_append, Place.after_cons, hsingle, Place.after_append, after_single]
    rcases hpart with rfl | rfl <;> rfl
  | double =>
    rw [Place.after_cons, hdouble, after_double]
    rfl
  | escape =>
    rw [List.cons_append, Place.after_cons, hdouble, Place.after_append, after_double]
    rfl
  | bare before =>
    rw [Place.after_append, Place.after_cons, (next_of_outside (outside_bare hp before)).2.2]
    rfl

/-- A text that starts a quoted word is empty, or the whole word, or cut behind the opening quote. -/
private theorem prefix_quoted {quote : Char} {body part : List Char}
    (h : part <+: quote :: body ++ [quote]) :
    part = [] ∨ part = quote :: body ++ [quote] ∨ ∃ q, part = quote :: q ∧ q <+: body := by
  rcases List.prefix_cons_iff.mp h with rfl | ⟨q, rfl, hq⟩
  · exact .inl rfl
  · rcases List.prefix_concat_iff.mp hq with rfl | hq
    · exact .inr (.inl rfl)
    · exact .inr (.inr ⟨q, rfl, hq⟩)

private theorem cut_single {q : List Char} (hq : q <+: word.flatMap singleChar)
    (h : (Place.single.after q).missing? = some cause) : Style.Cut .single word ('\'' :: q) cause := by
  rcases prefix_flatMap hq with rfl | ⟨before, c, after, q, rfl, rfl, hchar⟩
  · rw [after_single] at h
    obtain rfl := Option.some.inj h
    simpa using Style.Cut.single word []
  rw [Place.after_append, after_single] at h
  -- Only what stands for a single quote is cut between characters.
  by_cases hc : c = '\''
  · subst hc
    have hcut := (List.mem_inits _ _).mpr hchar
    simp only [singleChar, if_true, List.dropLast, List.inits, List.map_cons, List.map_nil,
      List.mem_cons, List.not_mem_nil, or_false] at hcut
    rcases hcut with rfl | rfl | rfl | rfl | rfl
    · obtain rfl := Option.some.inj h
      simpa using Style.Cut.single before ('\'' :: after)
    · cases h
    · obtain rfl := Option.some.inj h
      exact .quote before after (.inl rfl)
    · obtain rfl := Option.some.inj h
      exact .quote before after (.inr rfl)
    · cases h
  · rw [singleChar, if_neg hc] at hchar
    obtain rfl := List.prefix_nil.mp hchar
    obtain rfl := Option.some.inj h
    simpa using Style.Cut.single before (c :: after)

private theorem cut_double {q : List Char} (hq : q <+: word.flatMap doubleChar)
    (h : (Place.double.after q).missing? = some cause) : Style.Cut .double word ('"' :: q) cause := by
  rcases prefix_flatMap hq with rfl | ⟨before, c, after, q, rfl, rfl, hchar⟩
  · rw [after_double] at h
    obtain rfl := Option.some.inj h
    simpa using Style.Cut.double word []
  rw [Place.after_append, after_double] at h
  have hwhole : q = [] →
      Style.Cut .double (before ++ c :: after) ('"' :: (before.flatMap doubleChar ++ q)) cause := by
    rintro rfl
    obtain rfl := Option.some.inj h
    simpa using Style.Cut.double before (c :: after)
  by_cases hc : c = '"' ∨ c = '\\'
  · rw [doubleChar, if_pos hc] at hchar
    rcases List.prefix_cons_iff.mp hchar with hnil | ⟨q, rfl, htail⟩
    · exact hwhole hnil
    · obtain rfl := List.prefix_nil.mp htail
      obtain rfl := Option.some.inj h
      exact .escape before after hc
  · rw [doubleChar, if_neg hc] at hchar
    exact hwhole (List.prefix_nil.mp hchar)

private theorem cut_bare (hp : p.missing? = none) (hpart : part <+: Style.bare.write word)
    (h : (p.after part).missing? = some cause) : Style.Cut .bare word part cause := by
  rcases prefix_flatMap hpart with rfl | ⟨before, c, after, q, rfl, rfl, hchar⟩
  · rw [outside_bare hp] at h
    cases h
  have hbefore := outside_bare hp before
  rw [Place.after_append] at h
  rcases List.prefix_cons_iff.mp hchar with rfl | ⟨q, rfl, htail⟩
  · rw [Place.after_nil, hbefore] at h
    cases h
  · obtain rfl := List.prefix_nil.mp htail
    rw [Place.after_cons, (next_of_outside hbefore).2.2] at h
    obtain rfl := Option.some.inj h
    exact .bare before c after

/-- **A part of a written word that leaves something open is cut** within quotes or at an escape. -/
private theorem cut_of_missing (hp : p.missing? = none) (hpart : part <+: style.write word)
    (h : (p.after part).missing? = some cause) : style.Cut word part cause := by
  have hwhole : part ≠ style.write word := by
    rintro rfl
    rw [outside_write hp] at h
    cases h
  have hnil : part ≠ [] := by
    rintro rfl
    rw [Place.after_nil, hp] at h
    cases h
  obtain ⟨hsingle, hdouble, -⟩ := next_of_outside hp
  cases style with
  | single =>
    obtain ⟨q, rfl, hq⟩ := ((prefix_quoted hpart).resolve_left hnil).resolve_left hwhole
    rw [Place.after_cons, hsingle] at h
    exact cut_single hq h
  | double =>
    obtain ⟨q, rfl, hq⟩ := ((prefix_quoted hpart).resolve_left hnil).resolve_left hwhole
    rw [Place.after_cons, hdouble] at h
    exact cut_double hq h
  | bare => exact cut_bare hp hpart h

inductive LineCut : List Written → List Char → SplitError → Prop where
  | here {w : Written} {part : List Char} {cause : SplitError} (rest : List Written)
      (h : w.style.Cut w.word part cause) : LineCut (w :: rest) (w.gap ++ part) cause
  | later {rest : List Written} {cut : List Char} {cause : SplitError} (w : Written)
      (h : LineCut rest cut cause) : LineCut (w :: rest) (w.gap ++ w.style.write w.word ++ cut) cause

/-- Words that are written one after another: each can be written in its style, and there is a gap before each but
the first. -/
def IsLine : List Written → Prop
  | [] => True
  | w :: rest => (∀ c ∈ w.gap, isSeparator c = true) ∧ w.style.Admits w.word ∧
      ∀ v ∈ rest, IsGap v.gap ∧ v.style.Admits v.word

/-- The gaps of words hold nothing but separators. -/
private def Gapped (line : List Written) : Prop := ∀ w ∈ line, ∀ c ∈ w.gap, isSeparator c = true

private theorem missing_of_lineCut {line : List Written} {cut : List Char} (hline : Gapped line)
    (hp : p.missing? = none) (h : LineCut line cut cause) : (p.after cut).missing? = some cause := by
  induction h generalizing p with
  | here rest h =>
    rw [Place.after_append]
    exact missing_of_cut (outside_gap hp (hline _ List.mem_cons_self)) h
  | later w h ih =>
    obtain ⟨hgap, hrest⟩ := List.forall_mem_cons.mp hline
    rw [Place.after_append, Place.after_append]
    exact ih hrest (outside_write (outside_gap hp hgap) w.style w.word)

private theorem lineCut_of_missing {line : List Written} {cut : List Char} (hline : Gapped line)
    (hp : p.missing? = none) (hcut : cut <+: writeLine line) (h : (p.after cut).missing? = some cause) :
    LineCut line cut cause := by
  induction line generalizing p cut with
  | nil =>
    obtain rfl := List.prefix_nil.mp hcut
    rw [Place.after_nil, hp] at h
    cases h
  | cons w rest ih =>
    obtain ⟨hgap, hrest⟩ := List.forall_mem_cons.mp hline
    have hbegun := outside_gap hp hgap
    rw [writeLine, List.append_assoc] at hcut
    -- The cut is in the gap, in the word, or behind it.
    rcases prefix_append_cases hcut with hcut | ⟨part, rfl, hpart⟩
    · rw [outside_gap hp fun c hc => hgap c (hcut.subset hc)] at h
      cases h
    · rw [Place.after_append] at h
      rcases prefix_append_cases hpart with hpart | ⟨later, rfl, hlater⟩
      · exact .here rest (cut_of_missing hbegun hpart h)
      · rw [Place.after_append] at h
        rw [← List.append_assoc]
        exact .later w (ih hrest (outside_write hbegun w.style w.word) hlater h)

/-- **A line that is cut short is refused exactly for what the cut leaves open.** -/
theorem split_cut {line : List Written} (hline : IsLine line) {cut : List Char}
    (hcut : cut <+: writeLine line) (cause : SplitError) :
    split cut = .error cause ↔ LineCut line cut cause := by
  have hgapped : Gapped line := by
    cases line with
    | nil => exact fun w hw => by cases hw
    | cons w rest => exact List.forall_mem_cons.mpr ⟨hline.1, fun v hv => (hline.2.2 v hv).1.2⟩
  rw [split, splitFrom_eq_error_iff]
  exact ⟨lineCut_of_missing hgapped rfl hcut, missing_of_lineCut hgapped rfl⟩

/-! ## Whole lines -/

private theorem splitFrom_single (word rest : List Char) (read : List Char) :
    splitFrom .single read (word.flatMap singleChar ++ '\'' :: rest) =
      splitFrom .bare (word.reverse ++ read) rest := by
  induction word generalizing read with
  | nil => simp [splitFrom]
  | cons c word ih =>
    rw [List.flatMap_cons, List.append_assoc, List.reverse_cons, List.append_assoc]
    by_cases hc : c = '\''
    · subst hc
      simp [singleChar, splitFrom, isSeparator, ih]
    · simp [singleChar, splitFrom, hc, ih]

private theorem splitFrom_double (word rest : List Char) (read : List Char) :
    splitFrom .double read (word.flatMap doubleChar ++ '"' :: rest) =
      splitFrom .bare (word.reverse ++ read) rest := by
  induction word generalizing read with
  | nil => simp [splitFrom]
  | cons c word ih =>
    rw [List.flatMap_cons, List.append_assoc, List.reverse_cons, List.append_assoc]
    by_cases hc : c = '"' ∨ c = '\\'
    · simp [doubleChar, splitFrom, hc, ih]
    · obtain ⟨hquote, hslash⟩ := not_or.mp hc
      simp [doubleChar, splitFrom, hquote, hslash, ih]

private theorem write_bare_cons (c : Char) (word : List Char) :
    Style.bare.write (c :: word) = '\\' :: c :: Style.bare.write word := rfl

private theorem splitFrom_bare (word rest : List Char) (read : List Char) :
    splitFrom .bare read (Style.bare.write word ++ rest) = splitFrom .bare (word.reverse ++ read) rest := by
  induction word generalizing read with
  | nil => rfl
  | cons c word ih => simp [write_bare_cons, splitFrom, isSeparator, ih]

/-- **A written word is read as it is**, and the reader is behind it. -/
private theorem splitFrom_write (hadmits : style.Admits word) (rest : List Char) :
    splitFrom .between [] (style.write word ++ rest) = splitFrom .bare word.reverse rest := by
  cases style with
  | single =>
    have h := splitFrom_single word rest []
    simpa [Style.write, splitFrom, isSeparator] using h
  | double =>
    have h := splitFrom_double word rest []
    simpa [Style.write, splitFrom, isSeparator] using h
  | bare =>
    cases word with
    | nil => exact absurd rfl (hadmits rfl)
    | cons c word =>
      have h := splitFrom_bare word rest [c]
      simpa [write_bare_cons, splitFrom, isSeparator] using h

private theorem splitFrom_gap (hgap : ∀ c ∈ gap, isSeparator c = true) (rest : List Char) :
    splitFrom .between [] (gap ++ rest) = splitFrom .between [] rest := by
  induction gap with
  | nil => rfl
  | cons c gap ih =>
    obtain ⟨hc, hrest⟩ := List.forall_mem_cons.mp hgap
    rw [List.cons_append, splitFrom, if_pos hc, ih hrest]

/-- A gap ends a word. -/
private theorem splitFrom_bare_gap (hgap : IsGap gap) (read rest : List Char) :
    splitFrom .bare read (gap ++ rest) = (splitFrom .between [] rest).map (read.reverse :: ·) := by
  obtain ⟨hne, hseparators⟩ := hgap
  cases gap with
  | nil => exact absurd rfl hne
  | cons c gap =>
    obtain ⟨hc, hrest⟩ := List.forall_mem_cons.mp hseparators
    rw [List.cons_append, splitFrom, if_pos hc, splitFrom_gap hrest]

private theorem splitFrom_bare_writeLine {line : List Written}
    (h : ∀ w ∈ line, IsGap w.gap ∧ w.style.Admits w.word) (read : List Char) :
    splitFrom .bare read (writeLine line) = .ok (read.reverse :: line.map Written.word) := by
  induction line generalizing read with
  | nil => rfl
  | cons w rest ih =>
    obtain ⟨⟨hgap, hadmits⟩, hrest⟩ := List.forall_mem_cons.mp h
    rw [writeLine, List.append_assoc, splitFrom_bare_gap hgap, splitFrom_write hadmits, ih hrest,
      List.reverse_reverse]
    rfl

/-- **A written line splits into its words.** -/
theorem split_writeLine {line : List Written} (h : IsLine line) :
    split (writeLine line) = .ok (line.map Written.word) := by
  cases line with
  | nil => rfl
  | cons w rest =>
    obtain ⟨hgap, hadmits, hrest⟩ := h
    rw [split, writeLine, List.append_assoc, splitFrom_gap hgap, splitFrom_write hadmits,
      splitFrom_bare_writeLine hrest, List.reverse_reverse]
    rfl

/-- **A written line and the list of its words are one command.** Words may be written in any of the styles, each in
its own, with any gaps between them. The line is read as its words, and so is their list. A line that is cut short
is refused exactly when the cut is within quotes or between a backslash and its character, with an error that says
which of the two is missing; any other cut is read. -/
theorem quoted_commands_agree {line : List Written} (h : IsLine line) :
    let words := line.map fun w => String.ofList w.word
    Settings.readCommand (.text (String.ofList (writeLine line))) = .ok words ∧
    Settings.readCommand (.list (words.map .text)) = .ok words ∧
    (∀ cut e, cut <+: writeLine line →
      (Settings.readCommand (.text (String.ofList cut)) = .error e ↔
        ∃ cause, LineCut line cut cause ∧ e = .words cause)) ∧
    ∀ cause, (Settings.Error.words cause).kind = "ValueError" ∧
      (Settings.Error.words cause).message = match cause with
        | .openQuote => "No closing quotation"
        | .danglingEscape => "No escaped character" := by
  intro words
  refine ⟨?line, ?list, ?cut, fun cause => ?text⟩
  case line =>
    rw [Settings.readCommand, Command.words, String.toList_ofList, split_writeLine h]
    simp [words, Except.map, Except.mapError]
  case list => rw [Settings.readCommand, (Value.texts?_eq_some_iff _ words).mpr rfl]
  case cut =>
    intro cut e hcut
    have hsplit := split_cut h hcut
    rw [Settings.readCommand, Command.words, String.toList_ofList]
    cases hresult : split cut with
    | ok found =>
      rw [hresult] at hsplit
      constructor
      · intro he
        cases he
      · rintro ⟨cause, hopen, -⟩
        cases (hsplit cause).mpr hopen
    | error cause =>
      rw [hresult] at hsplit
      constructor
      · intro he
        exact ⟨cause, (hsplit cause).mp rfl, (Except.error.inj he).symm⟩
      · rintro ⟨cause', hopen, rfl⟩
        obtain rfl := Except.error.inj ((hsplit cause').mpr hopen)
        rfl
  case text => cases cause <;> exact ⟨rfl, rfl⟩

/-- A quote between single quotes, nothing at all, a backslash between double quotes and an escaped line break; and
the line cut behind that backslash. -/
theorem quoted_commands_agree_styles :
    let line : List Written := [
      ⟨[], .single, ['i', 't', '\'', 's']⟩, ⟨[' '], .single, []⟩,
      ⟨['\t', '\n'], .double, ['a', '\\', ' ', '"']⟩, ⟨[' '], .bare, ['\n', '#']⟩]
    IsLine line ∧ writeLine line = "'it'\"'\"'s' ''\t\n\"a\\\\ \\\"\" \\\n\\#".toList ∧
      Settings.readCommand (.text (String.ofList (writeLine line))) = .ok ["it's", "", "a\\ \"", "\n#"] ∧
      Settings.readCommand (.text "'it'\"'\"'s' ''\t\n\"a\\") = .error (.words .danglingEscape) := by
  intro line
  have hline : IsLine line := by
    simp [line, IsLine, IsGap, Style.Admits, isSeparator]
  obtain ⟨hwords, -, hcut, -⟩ := quoted_commands_agree hline
  refine ⟨hline, by decide, hwords, ?_⟩
  have hopen : LineCut line "'it'\"'\"'s' ''\t\n\"a\\".toList .danglingEscape :=
    .later _ (.later _ (.here _ (.escape ['a'] [' ', '"'] (.inr rfl))))
  exact (hcut _ _ (by decide)).mpr ⟨_, hopen, rfl⟩

end Command

end FormatServer
