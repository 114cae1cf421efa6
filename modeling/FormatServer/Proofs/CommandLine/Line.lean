import FormatServer.Proofs.CommandLine.Word

/-!
How the words of a command line are read one after another. A line is made of uses of switches, each of one word or
of a word with its value behind it, and of words that mean nothing there (`Line`). Main statements (`read_eq_ok_iff`,
`read_eq_error_iff`): a line is read exactly when all its words choose something, and reading stops exactly for what
stands in the line.
-/

namespace FormatServer.CommandLine

/-! ## What a line is made of -/

inductive Choice where
  | formatter (line : Given String)
  | timeout (seconds : Given Binary64)
  | tcp
  | host (name : Given String)
  | port (number : Given Int)
  deriving DecidableEq, Repr

/-- Words that give a value to a switch: one with the value attached to it, or one with the value behind it. -/
inductive Gives : List String → Switch → String → Prop where
  | attached {w value : String} {entry : String × Switch} (hw : Written w entry (some value.toList))
      (htakes : entry.2.takesValue = true) : Gives [w] entry.2 value
  | apart {w value : String} {entry : String × Switch} (hw : Written w entry none)
      (htakes : entry.2.takesValue = true) (hvalue : IsValue value) : Gives [w, value] entry.2 value

/-- Words that choose something. A value of two dashes is lost, and so nothing is chosen in its place. -/
inductive Spells : List String → Choice → Prop where
  | formatter {ws : List String} {line : String} (h : Gives ws .formatter line) :
      Spells ws (.formatter (.ofWord line))
  | timeout {ws : List String} {value : String} {x : Given Binary64} (h : Gives ws .timeout value)
      (hx : (Given.ofWord value).read readSeconds = some x) : Spells ws (.timeout x)
  | tcp {w name : String} (hw : Written w (name, .tcp) none) : Spells [w] .tcp
  | host {ws : List String} {name : String} (h : Gives ws .host name) : Spells ws (.host (.ofWord name))
  | port {ws : List String} {value : String} {i : Given Int} (h : Gives ws .port value)
      (hi : (Given.ofWord value).read readNumber = some i) : Spells ws (.port i)

/-- Words that choose something one after another, and between them words that mean nothing where they stand. -/
inductive Line : List String → List Choice → List String → Prop where
  | nil : Line [] [] []
  | choice {ws rest : List String} {choice : Choice} {choices : List Choice} {strays : List String}
      (h : Spells ws choice) (hrest : Line rest choices strays) : Line (ws ++ rest) (choice :: choices) strays
  | stray {w : String} {rest : List String} {choices : List Choice} {strays : List String}
      (h : IsValue w ∨ Unlike w) (hrest : Line rest choices strays) : Line (w :: rest) choices (w :: strays)

/-! ## Where reading stops -/

/-- A word that asks for help: a name of it, or its letter with nothing but the same letter behind it. -/
inductive AsksHelp (w : String) : Prop where
  | named {name : String} (hw : Written w (name, .help) none)
  | letters {letters : List Char} (hw : Written w ("-h", .help) (some letters)) (hne : letters ≠ [])
      (hall : ∀ c ∈ letters, c = 'h')

def AsksVersion (w : String) : Prop := ∃ name, Written w (name, .version) none

inductive Faulty : List String → Fault → Prop where
  /-- no value stands behind a switch that takes one -/
  | noValue {w : String} {rest : List String} {entry : String × Switch} (hw : Written w entry none)
      (htakes : entry.2.takesValue = true) (hnext : ∀ v ∈ rest.head?, ¬ IsValue v) :
      Faulty (w :: rest) (.noValue entry.2)
  /-- a value is attached to a switch that takes none -/
  | needless {w : String} {rest : List String} {entry : String × Switch} {value : List Char}
      (hw : Written w entry (some value)) (htakes : entry.2.takesValue = false)
      (hlong : isShort entry.1 = false ∨ value = []) : Faulty (w :: rest) (.needlessValue entry.2 value)
  /-- another letter stands behind those that ask for help -/
  | letters {w : String} {rest : List String} {before after : List Char} {c : Char}
      (hw : Written w ("-h", .help) (some (before ++ c :: after))) (hbefore : ∀ x ∈ before, x = 'h')
      (hc : c ≠ 'h') : Faulty (w :: rest) (.needlessValue .help (c :: after))
  | timeout {ws rest : List String} {value : String} (h : Gives ws .timeout value)
      (hx : (Given.ofWord value).read readSeconds = none) :
      Faulty (ws ++ rest) (.notNumber .timeout "float" value)
  | port {ws rest : List String} {value : String} (h : Gives ws .port value)
      (hi : (Given.ofWord value).read readNumber = none) :
      Faulty (ws ++ rest) (.notNumber .port "int" value)

/-- Words at which reading stops, and why it does, after words that meant nothing. -/
inductive Halts (strays : List String) : List String → Halt → Prop where
  /-- the words that meant nothing are told when nothing else is left -/
  | ended (hne : strays ≠ []) : Halts strays [] (.fault (.tooMany strays))
  /-- what stands behind two dashes is not looked at -/
  | separated (rest : List String) : Halts strays ("--" :: rest) (.fault (.tooMany (strays ++ "--" :: rest)))
  | help {w : String} (rest : List String) (h : AsksHelp w) : Halts strays (w :: rest) .help
  | version {w : String} (rest : List String) (h : AsksVersion w) : Halts strays (w :: rest) .version
  | faulty {words : List String} {f : Fault} (h : Faulty words f) : Halts strays words (.fault f)

/-- No word up to the first two dashes could be short for several names. -/
def Clear (words : List String) : Prop := ∀ w ∈ words.takeWhile (· ≠ "--"), ∀ a, ¬ IsAmbiguous w a

inductive FirstAmbiguous : List String → Ambiguity → Prop where
  | here {w : String} {rest : List String} {a : Ambiguity} (hw : w ≠ "--") (h : IsAmbiguous w a) :
      FirstAmbiguous (w :: rest) a
  | later {w : String} {rest : List String} {a : Ambiguity} (hw : w ≠ "--") (hclear : ∀ b, ¬ IsAmbiguous w b)
      (h : FirstAmbiguous rest a) : FirstAmbiguous (w :: rest) a

variable {w v : String} {ws rest words before : List String} {tagged : List (String × Word)} {entry : String × Switch}
  {s : Switch} {x : Word} {choice : Choice} {choices : List Choice} {strays : List String}

/-! ## Words with what they are taken for -/

private theorem ne_dashes_of_read (h : readWord w = .ok x) : w ≠ "--" := by
  have hambiguous : ∃ a, readWord "--" = .error a := ⟨_, rfl⟩
  rintro rfl
  obtain ⟨a, ha⟩ := hambiguous
  rw [h] at ha
  cases ha

private theorem readWords_cons (hw : readWord w = .ok x) (hrest : readWords rest = .ok tagged) :
    readWords (w :: rest) = .ok ((w, x) :: tagged) := by
  rw [readWords, hw, hrest]
  · rfl
  · exact ne_dashes_of_read hw

theorem readWords_separated (rest : List String) :
    readWords ("--" :: rest) = .ok (("--", .separator) :: rest.map (·, .plain)) := rfl

/-- Words that can be read start with two dashes, or with a word that can be read. -/
private theorem readWords_cons_cases (h : readWords (w :: rest) = .ok tagged) :
    w = "--" ∨ ∃ x more, readWord w = .ok x ∧ readWords rest = .ok more ∧ tagged = (w, x) :: more := by
  by_cases hdashes : w = "--"
  · exact .inl hdashes
  · rw [readWords] at h
    · cases hw : readWord w with
      | error a =>
        rw [hw] at h
        cases h
      | ok x =>
        cases hrest : readWords rest with
        | error a =>
          rw [hw, hrest] at h
          cases h
        | ok more =>
          rw [hw, hrest] at h
          exact .inr ⟨x, more, rfl, rfl, (Except.ok.inj h).symm⟩
    · exact hdashes

private theorem readWords_cons_error {a : Ambiguity} (hdashes : w ≠ "--") (hw : readWord w = .error a) :
    readWords (w :: rest) = .error a := by
  rw [readWords, hw]
  · rfl
  · exact hdashes

private theorem readWords_cons_ok_error {a : Ambiguity} (hw : readWord w = .ok x) :
    readWords (w :: rest) = .error a ↔ readWords rest = .error a := by
  cases hrest : readWords rest with
  | ok tagged => simp [readWords_cons hw hrest]
  | error b =>
    rw [readWords, hw, hrest]
    · rfl
    · exact ne_dashes_of_read hw

private theorem clear_cons (hw : w ≠ "--") :
    Clear (w :: rest) ↔ (∀ a, ¬ IsAmbiguous w a) ∧ Clear rest := by
  simp [Clear, hw]

/-- **Words can be read if none of them is ambiguous.** -/
theorem exists_readWords_iff (words : List String) : (∃ tagged, readWords words = .ok tagged) ↔ Clear words := by
  induction words with
  | nil => simp [readWords, Clear]
  | cons w rest ih =>
    by_cases hdashes : w = "--"
    · subst hdashes
      simp [readWords_separated, Clear]
    · rw [clear_cons hdashes, ← ih]
      constructor
      · rintro ⟨tagged, htagged⟩
        obtain ⟨x, more, hw, hrest, -⟩ := (readWords_cons_cases htagged).resolve_left hdashes
        refine ⟨fun a ha => ?_, more, hrest⟩
        rw [(readWord_eq_error_iff w a).mpr ha] at hw
        cases hw
      · rintro ⟨hclear, more, hrest⟩
        cases hw : readWord w with
        | error a => exact absurd ((readWord_eq_error_iff w a).mp hw) (hclear a)
        | ok x => exact ⟨_, readWords_cons hw hrest⟩

/-- **Words that cannot be read have an ambiguous one**, and the first of them is the reason. -/
theorem readWords_eq_error_iff (words : List String) (a : Ambiguity) :
    readWords words = .error a ↔ FirstAmbiguous words a := by
  induction words with
  | nil => exact ⟨nofun, nofun⟩
  | cons w rest ih =>
    by_cases hdashes : w = "--"
    · subst hdashes
      refine ⟨nofun, fun h => ?_⟩
      cases h with
      | here hw _ => exact absurd rfl hw
      | later hw _ _ => exact absurd rfl hw
    cases hw : readWord w with
    | error b =>
      have hb := (readWord_eq_error_iff w b).mp hw
      rw [readWords_cons_error hdashes hw]
      constructor
      · rintro ⟨⟩
        exact .here hdashes hb
      · intro h
        cases h with
        | here _ ha => rw [Except.error.inj (hw.symm.trans ((readWord_eq_error_iff w a).mpr ha))]
        | later _ hclear _ => exact absurd hb (hclear b)
    | ok x =>
      have hclear : ∀ b, ¬ IsAmbiguous w b := by
        intro b hb
        rw [(readWord_eq_error_iff w b).mpr hb] at hw
        cases hw
      rw [readWords_cons_ok_error hw, ih]
      refine ⟨.later hdashes hclear, fun h => ?_⟩
      cases h with
      | here _ ha => exact absurd ha (hclear a)
      | later _ _ h => exact h

/-! ## One use of a switch -/

def Choices.after (c : Choices) : Choice → Choices
  | .formatter line => { c with formatter := some line }
  | .timeout x => { c with timeout := some x }
  | .tcp => { c with tcp := true }
  | .host name => { c with host := name }
  | .port i => { c with port := i }

private theorem takeWords_gives (h : Gives ws s v) (hrest : readWords rest = .ok tagged) :
    ∃ more, readWords (ws ++ rest) = .ok more ∧
      ∀ c extra, takeWords c extra more = (choose c s v).bind (takeWords · extra tagged) := by
  cases h with
  | @attached w value entry hw htakes =>
    refine ⟨_, readWords_cons ((readWord_eq_switch_iff w entry _).mpr hw) hrest, fun c extra => ?_⟩
    rw [takeWords, takeAttached, if_pos htakes, String.ofList_toList]
    rfl
  | @apart w value entry hw htakes hvalue =>
    have hvalue := readWords_cons ((readWord_eq_plain_iff v).mpr hvalue) hrest
    refine ⟨_, readWords_cons ((readWord_eq_switch_iff w entry _).mpr hw) hvalue, fun c extra => ?_⟩
    rw [takeWords, if_pos htakes]
    rfl

/-- A switch without a value is turned on, and reading goes on behind it. -/
private theorem takeWords_turns (name : String) (htakes : s.takesValue = false) (c : Choices) (extra : List String)
    (tagged : List (String × Word)) :
    takeWords c extra ((w, .switch s name none) :: tagged) = (turnOn c s).bind (takeWords · extra tagged) := by
  match tagged with
  | [] | (_, .separator) :: _ | (_, .switch _ _ _) :: _ | (_, .unknown) :: _ | (_, .plain) :: _ =>
    simp [takeWords, htakes, bind]

/-- **A use of a switch is read as what it chooses**, and reading goes on behind it. -/
private theorem takeWords_spells (h : Spells ws choice) (hrest : readWords rest = .ok tagged) :
    ∃ more, readWords (ws ++ rest) = .ok more ∧
      ∀ c extra, takeWords c extra more = takeWords (c.after choice) extra tagged := by
  have hgives : ∀ {s : Switch} {v : String}, Gives ws s v → (∀ c, choose c s v = .ok (c.after choice)) →
      ∃ more, readWords (ws ++ rest) = .ok more ∧
        ∀ c extra, takeWords c extra more = takeWords (c.after choice) extra tagged := by
    intro s v hv hchoose
    obtain ⟨more, hmore, htake⟩ := takeWords_gives hv hrest
    refine ⟨more, hmore, fun c extra => ?_⟩
    rw [htake, hchoose]
    rfl
  cases h with
  | formatter h => exact hgives h fun c => rfl
  | timeout h hx => exact hgives h fun c => by simp only [choose, hx, Choices.after]
  | host h => exact hgives h fun c => rfl
  | port h hi => exact hgives h fun c => by simp only [choose, hi, Choices.after]
  | @tcp w name hw =>
    refine ⟨_, readWords_cons ((readWord_eq_switch_iff w (name, .tcp) none).mpr hw) hrest, fun c extra => ?_⟩
    exact takeWords_turns name rfl c extra tagged

private theorem exists_of_stray (h : IsValue w ∨ Unlike w) :
    ∃ x, (x = .plain ∨ x = .unknown) ∧ readWord w = .ok x := by
  rcases h with h | h
  · exact ⟨.plain, .inl rfl, (readWord_eq_plain_iff w).mpr h⟩
  · by_cases hlooks : isNegativeNumber w.toList = true ∨ ' ' ∈ w.toList
    · exact ⟨.plain, .inl rfl, (readWord_eq_plain_iff w).mpr (.like h hlooks)⟩
    · obtain ⟨hnumber, hspace⟩ := not_or.mp hlooks
      exact ⟨.unknown, .inr rfl, (readWord_eq_iff w _).mpr (.unknown h (Bool.eq_false_iff.mpr hnumber) hspace)⟩

/-- **A line is read as what it chooses**, what means nothing is kept, and reading goes on behind it. -/
private theorem takeWords_line (h : Line before choices strays) (hrest : readWords rest = .ok tagged) :
    ∃ more, readWords (before ++ rest) = .ok more ∧
      ∀ c extra, takeWords c extra more = takeWords (choices.foldl Choices.after c) (extra ++ strays) tagged := by
  induction h with
  | nil => exact ⟨tagged, hrest, fun c extra => by rw [List.append_nil]; rfl⟩
  | @choice ws line choice choices strays hspells _ ih =>
    obtain ⟨behind, hbehind, htake⟩ := ih
    obtain ⟨more, hmore, hspelled⟩ := takeWords_spells hspells hbehind
    exact ⟨more, by rw [List.append_assoc, hmore], fun c extra => by rw [hspelled, htake, List.foldl_cons]⟩
  | @stray w line choices strays hstray _ ih =>
    obtain ⟨behind, hbehind, htake⟩ := ih
    have hskip : ∀ x, x = .plain ∨ x = .unknown → ∀ c extra,
        takeWords c extra ((w, x) :: behind) = takeWords c (extra ++ [w]) behind := by
      rintro x (rfl | rfl) c extra <;> rw [takeWords]
      all_goals nofun
    obtain ⟨x, hx, hword⟩ := exists_of_stray hstray
    refine ⟨_, readWords_cons hword hbehind, fun c extra => ?_⟩
    rw [hskip x hx, htake, List.append_assoc, List.singleton_append]

/-! ## Where no two dashes stand -/

private theorem Written.ne_dashes {attached : Option (List Char)} (h : Written w entry attached) : w ≠ "--" :=
  ne_dashes_of_read ((readWord_eq_switch_iff w entry attached).mpr h)

private theorem IsValue.ne_dashes (h : IsValue w) : w ≠ "--" :=
  ne_dashes_of_read ((readWord_eq_plain_iff w).mpr h)

private theorem Gives.dashes_not_mem (h : Gives ws s v) : "--" ∉ ws := by
  cases h with
  | attached hw _ => simpa using hw.ne_dashes.symm
  | apart hw _ hvalue => simpa using ⟨hw.ne_dashes.symm, hvalue.ne_dashes.symm⟩

private theorem Spells.dashes_not_mem (h : Spells ws choice) : "--" ∉ ws := by
  cases h with
  | formatter h | timeout h _ | host h | port h _ => exact h.dashes_not_mem
  | tcp hw => simpa using hw.ne_dashes.symm

private theorem Line.dashes_not_mem (h : Line before choices strays) : "--" ∉ before := by
  induction h with
  | nil => exact List.not_mem_nil
  | choice hspells _ ih => simpa using ⟨hspells.dashes_not_mem, ih⟩
  | stray hstray _ ih =>
    obtain ⟨x, -, hw⟩ := exists_of_stray hstray
    simpa using ⟨(ne_dashes_of_read hw).symm, ih⟩

private theorem Clear.of_append (h : Clear (before ++ rest)) (hbefore : "--" ∉ before) : Clear rest := by
  intro w hw
  refine h w ?_
  have hall : ∀ x ∈ before, decide (x ≠ "--") = true := fun x hx => by simpa using ne_of_mem_of_not_mem hx hbefore
  rw [List.takeWhile_append_of_pos hall]
  exact List.mem_append_right before hw

/-! ## Reading stops -/

private theorem readWords_switch {attached : Option (List Char)} (hw : Written w entry attached)
    (h : readWords (w :: rest) = .ok tagged) :
    ∃ more, readWords rest = .ok more ∧ tagged = (w, .switch entry.2 entry.1 attached) :: more := by
  obtain ⟨x, more, hx, hrest, rfl⟩ := (readWords_cons_cases h).resolve_left hw.ne_dashes
  rw [(readWord_eq_switch_iff w entry attached).mpr hw] at hx
  exact ⟨more, hrest, by rw [Except.ok.inj hx]⟩

private theorem short?_eq_some_iff (c : Char) (s : Switch) : short? c = some s ↔ c = 'h' ∧ s = .help := by
  rw [short?, lookup_names_iff]
  constructor
  · intro h
    have hletter : ∀ entry ∈ names, entry.1.toList.length = 2 → entry = ("-h", .help) := by decide
    obtain ⟨hname, hs⟩ := Prod.mk.inj (hletter _ h (by simp))
    have hchars := congrArg String.toList hname
    rw [String.toList_ofList] at hchars
    exact ⟨(List.cons.inj (List.cons.inj hchars).2).1, hs⟩
  · rintro ⟨rfl, rfl⟩
    decide

/-- Letters that all ask for help are switches that do. -/
private theorem cluster_help {letters : List Char} (h : ∀ c ∈ letters, c = 'h') :
    ∃ more, cluster .help letters = .ok (.help :: more) := by
  induction letters with
  | nil => exact ⟨[], rfl⟩
  | cons c rest ih =>
    obtain ⟨rfl, hrest⟩ := List.forall_mem_cons.mp h
    obtain ⟨more, hmore⟩ := ih hrest
    refine ⟨.help :: more, ?_⟩
    rw [cluster, (short?_eq_some_iff 'h' .help).mpr ⟨rfl, rfl⟩]
    dsimp only
    rw [hmore]
    rfl

private theorem cluster_fault {before after : List Char} {c : Char} (h : ∀ x ∈ before, x = 'h') (hc : c ≠ 'h') :
    cluster .help (before ++ c :: after) = .error (.fault (.needlessValue .help (c :: after))) := by
  induction before with
  | nil =>
    have hnone : short? c = none := by
      cases hs : short? c with
      | none => rfl
      | some s => exact absurd ((short?_eq_some_iff c s).mp hs).1 hc
    rw [List.nil_append, cluster, hnone]
  | cons x rest ih =>
    obtain ⟨rfl, hrest⟩ := List.forall_mem_cons.mp h
    rw [List.cons_append, cluster, (short?_eq_some_iff 'h' .help).mpr ⟨rfl, rfl⟩]
    dsimp only
    rw [ih hrest]
    rfl

/-- A word that is read as a value is one. -/
private theorem head_of_plain (h : readWords words = .ok ((v, .plain) :: tagged)) :
    v ∈ words.head? ∧ IsValue v := by
  cases words with
  | nil => cases h
  | cons w rest =>
    rcases readWords_cons_cases h with rfl | ⟨x, more, hw, -, heq⟩
    · cases h
    · obtain ⟨⟨rfl, rfl⟩, -⟩ := List.cons.inj heq |>.imp_left Prod.mk.inj
      exact ⟨rfl, (readWord_eq_plain_iff v).mp hw⟩

private theorem takeWords_plain {extra : List String} (hne : extra ≠ []) (c : Choices) (words : List String) :
    takeWords c extra (words.map (·, .plain)) = .error (.fault (.tooMany (extra ++ words))) := by
  induction words generalizing extra with
  | nil => rw [List.map_nil, takeWords, if_neg (by simpa using hne), List.append_nil]
  | cons w rest ih =>
    rw [List.map_cons, takeWords, ih (by simp), List.append_assoc, List.singleton_append]
    all_goals nofun

/-- A value of a switch that is refused. -/
private theorem takeWords_refused {halt : Halt} (h : Gives ws s v) (hchoose : ∀ c, choose c s v = .error halt)
    (hrest : readWords (ws ++ rest) = .ok tagged) (c : Choices) (extra : List String) :
    takeWords c extra tagged = .error halt := by
  have hclear := (exists_readWords_iff _).mp ⟨tagged, hrest⟩
  obtain ⟨behind, hbehind⟩ := (exists_readWords_iff rest).mpr (hclear.of_append h.dashes_not_mem)
  obtain ⟨more, hmore, htake⟩ := takeWords_gives h hbehind
  obtain rfl := Except.ok.inj (hmore.symm.trans hrest)
  rw [htake, hchoose]
  rfl

/-- What is attached to a switch that takes no value. -/
private theorem takeWords_attached {halt : Halt} {value : List Char} (name : String)
    (h : ∀ c, takeAttached c s name value = .error halt) (c : Choices) (extra : List String)
    (tagged : List (String × Word)) :
    takeWords c extra ((w, .switch s name (some value)) :: tagged) = .error halt := by
  rw [takeWords, h]
  rfl

private theorem takeWords_faulty {f : Fault} (h : Faulty words f) (hread : readWords words = .ok tagged) (c : Choices)
    (extra : List String) : takeWords c extra tagged = .error (.fault f) := by
  cases h with
  | @noValue w rest entry hw htakes hnext =>
    obtain ⟨more, hmore, rfl⟩ := readWords_switch hw hread
    have hplain : ∀ value behind, more = (value, .plain) :: behind → False := by
      rintro value behind rfl
      exact hnext value (head_of_plain hmore).1 (head_of_plain hmore).2
    rw [takeWords, if_pos htakes]
    exact hplain
  | @needless w rest entry value hw htakes hlong =>
    obtain ⟨more, hmore, rfl⟩ := readWords_switch hw hread
    refine takeWords_attached _ (fun c => ?_) c extra more
    rcases hlong with hlong | rfl
    · rw [takeAttached, if_neg (by simp [htakes]), if_neg (by simp [hlong])]
    · rw [takeAttached, if_neg (by simp [htakes]), if_neg (by simp)]
  | @letters w rest before after letter hw hbefore hletter =>
    obtain ⟨more, hmore, rfl⟩ := readWords_switch hw hread
    refine takeWords_attached _ (fun c => ?_) c extra more
    rw [takeAttached, if_neg (by decide), if_pos (by simp [isShort]), cluster_fault hbefore hletter]
    rfl
  | timeout h hx => exact takeWords_refused h (fun c => by simp only [choose, hx]) hread c extra
  | port h hi => exact takeWords_refused h (fun c => by simp only [choose, hi]) hread c extra

/-- **Reading stops with the reason that stands there.** -/
private theorem takeWords_halts {halt : Halt} (h : Halts strays words halt) (hread : readWords words = .ok tagged)
    (c : Choices) : takeWords c strays tagged = .error halt := by
  cases h with
  | ended hne =>
    obtain rfl := Except.ok.inj hread
    rw [takeWords, if_neg (by simpa using hne)]
  | separated rest =>
    obtain rfl := Except.ok.inj ((readWords_separated rest).symm.trans hread)
    rw [takeWords, takeWords_plain (by simp), List.append_assoc, List.singleton_append]
    all_goals nofun
  | help rest h =>
    cases h with
    | @named name hw =>
      obtain ⟨more, -, rfl⟩ := readWords_switch hw hread
      rw [takeWords_turns name rfl]
      rfl
    | @letters letters hw hne hall =>
      obtain ⟨more, -, rfl⟩ := readWords_switch hw hread
      obtain ⟨others, hcluster⟩ := cluster_help hall
      refine takeWords_attached _ (fun c => ?_) c strays more
      rw [takeAttached, if_neg (by decide), if_pos (by simp [isShort, hne]), hcluster]
      rfl
  | version rest h =>
    obtain ⟨name, hw⟩ := h
    obtain ⟨more, -, rfl⟩ := readWords_switch hw hread
    rw [takeWords_turns name rfl]
    rfl
  | faulty h => exact takeWords_faulty h hread c strays

/-! ## Every line is read to a stop or to its end -/

private theorem Gives.takesValue (h : Gives ws s v) : s.takesValue = true := by
  cases h with
  | attached _ htakes => exact htakes
  | apart _ htakes _ => exact htakes

/-- A value chooses something or is refused. -/
private theorem Gives.spells_or_faulty (h : Gives ws s v) (rest : List String) :
    (∃ choice, Spells ws choice) ∨ ∃ f, Faulty (ws ++ rest) f := by
  cases s with
  | formatter => exact .inl ⟨_, .formatter h⟩
  | host => exact .inl ⟨_, .host h⟩
  | timeout =>
    cases hx : (Given.ofWord v).read readSeconds with
    | some x => exact .inl ⟨_, .timeout h hx⟩
    | none => exact .inr ⟨_, .timeout h hx⟩
  | port =>
    cases hi : (Given.ofWord v).read readNumber with
    | some i => exact .inl ⟨_, .port h hi⟩
    | none => exact .inr ⟨_, .port h hi⟩
  | help | tcp | version => cases h.takesValue

private inductive Front : List String → Prop where
  | choice {ws rest : List String} {choice : Choice} (hne : ws ≠ []) (h : Spells ws choice) : Front (ws ++ rest)
  | stray {w : String} {rest : List String} (h : IsValue w ∨ Unlike w) : Front (w :: rest)
  | halts {words : List String} (h : ∀ strays, ∃ halt, Halts strays words halt) : Front words

private theorem front_of_gives (h : Gives ws s v) (rest : List String) : Front (ws ++ rest) := by
  rcases h.spells_or_faulty rest with ⟨choice, hspells⟩ | ⟨f, hf⟩
  · refine .choice ?_ hspells
    cases h <;> simp
  · exact .halts fun strays => ⟨_, .faulty hf⟩

private theorem front_of_needless {value : List Char} (hw : Written w entry (some value))
    (htakes : entry.2.takesValue = false) : Front (w :: rest) := by
  by_cases hlong : isShort entry.1 = false ∨ value = []
  · exact .halts fun strays => ⟨_, .faulty (.needless hw htakes hlong)⟩
  obtain ⟨hshort, hne⟩ := not_or.mp hlong
  obtain rfl := short_name entry hw.mem (by simpa using hshort)
  cases hother : value.find? (· ≠ 'h') with
  | none =>
    have hall : ∀ c ∈ value, c = 'h' := by simpa using hother
    exact .halts fun strays => ⟨_, .help rest (.letters hw hne hall)⟩
  | some c =>
    obtain ⟨hc, before, after, rfl, hbefore⟩ := List.find?_eq_some_iff_append.mp hother
    refine .halts fun strays => ⟨_, .faulty (.letters hw (fun x hx => ?_) (by simpa using hc))⟩
    simpa using hbefore x hx

private theorem front_of_written {attached : Option (List Char)} (hw : Written w entry attached) :
    Front (w :: rest) := by
  cases htakes : entry.2.takesValue with
  | true =>
    cases attached with
    | some value =>
      have hgives : Gives [w] entry.2 (String.ofList value) := .attached (by rwa [String.toList_ofList]) htakes
      exact front_of_gives hgives rest
    | none =>
      by_cases hnext : ∃ v ∈ rest.head?, IsValue v
      · obtain ⟨v, hv, hvalue⟩ := hnext
        obtain ⟨more, rfl⟩ := List.head?_eq_some_iff.mp hv
        exact front_of_gives (.apart hw htakes hvalue) more
      · exact .halts fun strays => ⟨_, .faulty (.noValue hw htakes fun v hv hvalue => hnext ⟨v, hv, hvalue⟩)⟩
  | false =>
    cases attached with
    | some value => exact front_of_needless hw htakes
    | none =>
      obtain ⟨name, s⟩ := entry
      cases s with
      | help => exact .halts fun strays => ⟨_, .help rest (.named hw)⟩
      | version => exact .halts fun strays => ⟨_, .version rest ⟨name, hw⟩⟩
      | tcp => exact @Front.choice [w] rest .tcp (by simp) (.tcp hw)
      | formatter | timeout | host | port => cases htakes

private theorem front_of_clear (hne : words ≠ []) (hclear : Clear words) : Front words := by
  obtain ⟨w, rest, rfl⟩ := List.exists_cons_of_ne_nil hne
  by_cases hdashes : w = "--"
  · subst hdashes
    exact .halts fun strays => ⟨_, .separated rest⟩
  have htaken := taken_readWord w
  generalize readWord w = r at htaken
  cases htaken with
  | switch h => exact front_of_written h
  | value h => exact .stray (.inl h)
  | unknown h _ _ => exact .stray (.inr h)
  | ambiguous h => exact absurd h (((clear_cons hdashes).mp hclear).1 _)

/-- **Words that can be read are a line**, up to their end or to a reason to stop. -/
private theorem exists_line (words : List String) (hclear : Clear words) :
    ∃ before rest choices strays, words = before ++ rest ∧ Line before choices strays ∧
      (rest = [] ∨ ∀ extra, ∃ halt, Halts extra rest halt) := by
  induction hlength : words.length using Nat.strongRecOn generalizing words with
  | _ n ih =>
    by_cases hne : words = []
    · exact ⟨[], [], [], [], hne, .nil, .inl rfl⟩
    cases front_of_clear hne hclear with
    | @choice ws rest choice hws hspells =>
      have hshorter : rest.length < n := by
        have hpos := List.length_pos_iff.mpr hws
        rw [List.length_append] at hlength
        omega
      obtain ⟨before, behind, choices, strays, rfl, hline, hstop⟩ :=
        ih _ hshorter rest (hclear.of_append hspells.dashes_not_mem) rfl
      exact ⟨ws ++ before, behind, _, _, by rw [List.append_assoc], .choice hspells hline, hstop⟩
    | @stray w rest hstray =>
      obtain ⟨x, -, hw⟩ := exists_of_stray hstray
      have hshorter : rest.length < n := by
        rw [List.length_cons] at hlength
        omega
      obtain ⟨before, behind, choices, strays, rfl, hline, hstop⟩ :=
        ih _ hshorter rest ((clear_cons (ne_dashes_of_read hw)).mp hclear).2 rfl
      exact ⟨w :: before, behind, _, _, rfl, .stray hstray hline, hstop⟩
    | halts h => exact ⟨[], words, [], [], rfl, .nil, .inr h⟩

/-! ## Reading a whole line -/

inductive Stops : List String → Halt → Prop where
  | ambiguous {words : List String} {a : Ambiguity} (h : FirstAmbiguous words a) :
      Stops words (.fault (.ambiguous a))
  | halts {before rest : List String} {choices : List Choice} {strays : List String} {halt : Halt}
      (hclear : Clear (before ++ rest)) (hline : Line before choices strays) (h : Halts strays rest halt) :
      Stops (before ++ rest) halt

variable {environment : Option String} {halt : Halt}

private theorem read_of_tagged (h : readWords words = .ok tagged) :
    read environment words = takeWords { formatter := environment.map .value } [] tagged := by
  rw [read, h]
  rfl

private theorem read_line (h : Line words choices []) :
    read environment words = .ok (choices.foldl Choices.after { formatter := environment.map .value }) := by
  obtain ⟨tagged, htagged, htake⟩ := takeWords_line h (rfl : readWords [] = .ok [])
  rw [List.append_nil] at htagged
  rw [read_of_tagged htagged, htake, List.append_nil, takeWords, if_pos List.isEmpty_nil]

private theorem read_stops (h : Stops words halt) : read environment words = .error halt := by
  cases h with
  | ambiguous h =>
    rw [read, (readWords_eq_error_iff words _).mpr h]
    rfl
  | @halts before rest choices strays halt hclear hline h =>
    obtain ⟨behind, hbehind⟩ := (exists_readWords_iff rest).mpr (hclear.of_append hline.dashes_not_mem)
    obtain ⟨tagged, htagged, htake⟩ := takeWords_line hline hbehind
    rw [read_of_tagged htagged, htake, List.nil_append, takeWords_halts h hbehind]

/-- A line is read to its end, or not and for some reason. -/
private theorem line_or_stops (words : List String) :
    (∃ choices, Line words choices []) ∨ ∃ halt, Stops words halt := by
  by_cases hclear : Clear words
  · obtain ⟨before, rest, choices, strays, rfl, hline, hstop⟩ := exists_line words hclear
    rcases hstop with rfl | hstop
    · cases strays with
      | nil => exact .inl ⟨choices, by rwa [List.append_nil]⟩
      | cons w more => exact .inr ⟨_, .halts hclear hline (.ended (by simp))⟩
    · obtain ⟨halt, hhalt⟩ := hstop strays
      exact .inr ⟨halt, .halts hclear hline hhalt⟩
  · cases hwords : readWords words with
    | ok tagged => exact absurd ((exists_readWords_iff words).mp ⟨tagged, hwords⟩) hclear
    | error a => exact .inr ⟨_, .ambiguous ((readWords_eq_error_iff words a).mp hwords)⟩

/-- **A line is read exactly when all its words choose something**, and as what they choose. -/
theorem read_eq_ok_iff (environment : Option String) (words : List String) (c : Choices) :
    read environment words = .ok c ↔
      ∃ choices, Line words choices [] ∧
        c = choices.foldl Choices.after { formatter := environment.map .value } := by
  constructor
  · intro h
    rcases line_or_stops words with ⟨choices, hline⟩ | ⟨halt, hstops⟩
    · exact ⟨choices, hline, Except.ok.inj (h.symm.trans (read_line hline))⟩
    · rw [read_stops hstops] at h
      cases h
  · rintro ⟨choices, hline, rfl⟩
    exact read_line hline

/-- **Reading stops exactly for what stands in the line.** -/
theorem read_eq_error_iff (environment : Option String) (words : List String) (halt : Halt) :
    read environment words = .error halt ↔ Stops words halt := by
  refine ⟨fun h => ?_, read_stops⟩
  rcases line_or_stops words with ⟨choices, hline⟩ | ⟨other, hstops⟩
  · rw [read_line hline] at h
    cases h
  · rw [read_stops hstops] at h
    exact Except.error.inj h ▸ hstops

end FormatServer.CommandLine
