import Mathlib.Data.List.DropRight
import FormatServer.Text.Lines

/-!
Lines of a text, character by character. By the breaks of Unicode text there is one line more than by those
of the protocol for each break that the protocol does not know (`length_lines`), unless it is the last
character. What follows so many lines of the protocol are the lines of what follows so many of its breaks
(`drop_protocolLines`), and after all breaks the last line is left (`afterLines_append`).
-/

namespace FormatServer.Text

/-! ## The end of a line -/

/-- A line ends at a character that is a break, but not between a carriage return and a line feed. -/
def endsLine (isBreak : Char → Bool) (c : Char) (rest : List Char) : Bool :=
  isBreak c && !(c = '\r' && rest.head? = some '\n')

/-- Cutting by one character: a set of breaks that has both breaks of the protocol keeps them together. -/
theorem cutLines_cons {isBreak : Char → Bool} (hreturn : isBreak '\r' = true)
    (hfeed : isBreak '\n' = true) (c : Char) (rest : List Char) :
    cutLines isBreak (c :: rest) =
      if endsLine isBreak c rest then [c] :: cutLines isBreak rest
      else consChar c (cutLines isBreak rest) := by
  cases rest with
  | nil => by_cases hc : isBreak c = true <;> simp [cutLines, endsLine, consChar, hc]
  | cons d rest =>
    rw [cutLines]
    by_cases hpair : c = '\r' ∧ d = '\n'
    · obtain ⟨rfl, rfl⟩ := hpair
      cases rest with
      | nil => simp [endsLine, hreturn, cutLines, consChar]
      | cons e rest => simp [endsLine, hreturn, hfeed, cutLines, consChar]
    · have hends : endsLine isBreak c (d :: rest) = isBreak c := by
        simp only [not_and] at hpair
        by_cases hc : c = '\r'
        · simp [endsLine, hpair hc]
        · simp [endsLine, hc]
      rw [if_neg (fun h => hpair ⟨h.1, h.2.1⟩), hends]

theorem lines_cons (c : Char) (rest : List Char) :
    lines (c :: rest) =
      if endsLine isLineBreak c rest then [c] :: lines rest else consChar c (lines rest) :=
  cutLines_cons rfl rfl c rest

theorem protocolLines_cons (c : Char) (rest : List Char) :
    protocolLines (c :: rest) =
      if endsLine isProtocolBreak c rest then [c] :: protocolLines rest
      else consChar c (protocolLines rest) :=
  cutLines_cons rfl rfl c rest

@[simp] theorem protocolLines_nil : protocolLines [] = [] := rfl

@[simp] theorem flatten_lines (cs : List Char) : (lines cs).flatten = cs := flatten_cutLines _ cs

@[simp] theorem flatten_protocolLines (cs : List Char) : (protocolLines cs).flatten = cs :=
  flatten_cutLines _ cs

@[simp] theorem length_consChar (c : Char) (ls : List (List Char)) :
    (consChar c ls).length = max 1 ls.length := by
  cases ls with
  | nil => rfl
  | cons line rest => simp [consChar]

theorem cutLines_eq_nil {isBreak : Char → Bool} {cs : List Char} :
    cutLines isBreak cs = [] ↔ cs = [] := by
  constructor
  · intro h
    rw [← flatten_cutLines isBreak cs, h, List.flatten_nil]
  · rintro rfl
    rfl

/-- No line is empty: it has its break at least. -/
theorem ne_nil_of_mem_lines {cs : List Char} : ∀ line ∈ lines cs, line ≠ [] := by
  induction cs with
  | nil => simp [lines, cutLines]
  | cons c rest ih =>
    rw [lines_cons]
    split
    · simpa using ih
    · cases hlines : lines rest with
      | nil => simp [consChar]
      | cons first more =>
        intro line hline
        rcases List.mem_cons.mp hline with rfl | hline
        · simp
        · exact ih line (hlines ▸ List.mem_cons_of_mem _ hline)

private theorem length_protocolLines_pos {cs : List Char} (h : cs ≠ []) :
    0 < (protocolLines cs).length := by
  cases cs with
  | nil => exact absurd rfl h
  | cons c rest =>
    rw [protocolLines_cons]
    split
    · simp
    · rw [length_consChar]
      omega

/-! ## Breaks that the protocol does not know -/

/-- A break of Unicode text that is none of the protocol's. -/
def isStray (c : Char) : Bool := isLineBreak c && !isProtocolBreak c

/-- The breaks of a text that the protocol does not know. After the last character no line begins, so it
does not count. -/
def strays (cs : List Char) : Nat := cs.dropLast.countP isStray

theorem isLineBreak_of_isProtocolBreak {c : Char} (h : isProtocolBreak c = true) :
    isLineBreak c = true := by
  simp only [isProtocolBreak, Bool.or_eq_true, decide_eq_true_eq] at h
  rcases h with rfl | rfl <;> rfl

theorem strays_eq_zero {cs : List Char} :
    strays cs = 0 ↔ ∀ c ∈ cs.dropLast, isLineBreak c = true → isProtocolBreak c = true := by
  simp [strays, List.countP_eq_zero, isStray]

private theorem endsLine_eq (c : Char) (rest : List Char) :
    endsLine isLineBreak c rest = (isStray c || endsLine isProtocolBreak c rest) := by
  cases hc : isProtocolBreak c with
  | true => simp [endsLine, isStray, hc, isLineBreak_of_isProtocolBreak hc]
  | false =>
    have hreturn : c ≠ '\r' := by
      rintro rfl
      exact absurd hc (by decide)
    simp [endsLine, isStray, hc, hreturn]

private theorem strays_cons (c : Char) {rest : List Char} (h : rest ≠ []) :
    strays (c :: rest) = strays rest + if isStray c then 1 else 0 := by
  rw [strays, List.dropLast_cons_of_ne_nil h, List.countP_cons, strays]

/-- **Each break that the protocol does not know makes one line more.** -/
theorem length_lines (cs : List Char) :
    (lines cs).length = (protocolLines cs).length + strays cs := by
  induction cs with
  | nil => rfl
  | cons c rest ih =>
    rw [lines_cons, protocolLines_cons, endsLine_eq]
    by_cases hrest : rest = []
    · subst hrest
      have hlines : lines [] = [] := rfl
      cases isStray c <;> cases endsLine isProtocolBreak c [] <;> simp [hlines, strays]
    · have hpos := length_protocolLines_pos hrest
      rw [strays_cons c hrest]
      cases hstray : isStray c with
      | false =>
        cases endsLine isProtocolBreak c rest with
        | true => simp [ih]; omega
        | false => simp [ih]; omega
      | true =>
        have hends : endsLine isProtocolBreak c rest = false := by
          simp only [isStray, Bool.and_eq_true, Bool.not_eq_true'] at hstray
          simp [endsLine, hstray.2]
        simp [hends, ih]
        omega

/-- Without such breaks the lines are the protocol's. -/
theorem lines_eq_protocolLines {cs : List Char} (h : strays cs = 0) :
    lines cs = protocolLines cs := by
  induction cs with
  | nil => rfl
  | cons c rest ih =>
    rw [lines_cons, protocolLines_cons, endsLine_eq]
    by_cases hrest : rest = []
    · subst hrest
      have hlines : lines [] = [] := rfl
      cases isStray c <;> cases endsLine isProtocolBreak c [] <;> simp [hlines, consChar]
    · rw [strays_cons c hrest] at h
      have hstray : isStray c = false := by
        by_contra hc
        simp [hc] at h
      rw [ih (by omega), hstray, Bool.false_or]

/-! ## The protocol's breaks -/

def breakCount : List Char → Nat
  | [] => 0
  | c :: rest => breakCount rest + if endsLine isProtocolBreak c rest then 1 else 0

def afterLine : List Char → List Char
  | [] => []
  | c :: rest => if endsLine isProtocolBreak c rest then rest else afterLine rest

def afterLines : Nat → List Char → List Char
  | 0, cs => cs
  | n + 1, cs => afterLines n (afterLine cs)

def firstLine (cs : List Char) : List Char := cs.takeWhile (!isProtocolBreak ·)

def lastLine (cs : List Char) : List Char := cs.rtakeWhile (!isProtocolBreak ·)

/-- A text is cut between a carriage return and the line feed after it. -/
def SplitsBreak (before after : List Char) : Prop :=
  before.getLast? = some '\r' ∧ after.head? = some '\n'

@[simp] theorem afterLine_nil : afterLine [] = [] := rfl

@[simp] theorem afterLines_nil (n : Nat) : afterLines n [] = [] := by
  induction n with
  | zero => rfl
  | succ n ih => exact ih

theorem lineContent_cons (c : Char) (line : List Char) :
    lineContent (c :: line) =
      if isProtocolBreak c ∧ lineContent line = [] then [] else c :: lineContent line := by
  have happend : ∀ p : Char → Bool, ∀ xs : List Char,
      ((xs ++ [c]).dropWhile p) =
        if p c ∧ xs.dropWhile p = [] then [] else xs.dropWhile p ++ [c] := by
    intro p xs
    rw [List.dropWhile_append]
    cases hxs : xs.dropWhile p with
    | nil => by_cases hc : p c = true <;> simp [hc]
    | cons x more => simp
  rw [lineContent, List.reverse_cons, happend]
  split
  · next h => rw [if_pos ⟨h.1, by rw [lineContent, h.2, List.reverse_nil]⟩, List.reverse_nil]
  · next h =>
    rw [if_neg (fun hc => h ⟨hc.1, List.reverse_eq_nil_iff.mp hc.2⟩), List.reverse_append]
    rfl

/-- **The lines of a text are its first line and the lines of what follows it.** -/
theorem protocolLines_eq {cs : List Char} (h : cs ≠ []) :
    ∃ line, protocolLines cs = line :: protocolLines (afterLine cs) ∧
      lineContent line = firstLine cs := by
  induction cs with
  | nil => exact absurd rfl h
  | cons c rest ih =>
    rw [protocolLines_cons, afterLine]
    cases hends : endsLine isProtocolBreak c rest with
    | true =>
      have hc : isProtocolBreak c = true := (Bool.and_eq_true _ _ ▸ hends).1
      exact ⟨[c], by simp, by simp [lineContent, firstLine, hc]⟩
    | false =>
      by_cases hrest : rest = []
      · subst hrest
        have hc : isProtocolBreak c = false := by simpa [endsLine] using hends
        exact ⟨[c], by simp [consChar], by simp [lineContent, firstLine, hc]⟩
      · obtain ⟨line, hlines, hcontent⟩ := ih hrest
        refine ⟨c :: line, by simp [hlines, consChar], ?_⟩
        rw [lineContent_cons, hcontent]
        cases hc : isProtocolBreak c with
        | false => simp [firstLine, hc]
        | true =>
          -- The break goes on with a line feed, so there is no content.
          have hhead : rest.head? = some '\n' := by
            simp only [endsLine, hc, Bool.true_and, Bool.not_eq_false', Bool.and_eq_true,
              decide_eq_true_eq] at hends
            exact hends.2
          obtain ⟨more, rfl⟩ : ∃ more, rest = '\n' :: more := by
            cases rest with
            | nil => simp at hhead
            | cons d more => exact ⟨more, by simpa using hhead⟩
          simp [firstLine, hc, show isProtocolBreak '\n' = true from rfl]

/-- **What follows so many lines are the lines of what follows so many breaks.** -/
theorem drop_protocolLines (n : Nat) (cs : List Char) :
    (protocolLines cs).drop n = protocolLines (afterLines n cs) := by
  induction n generalizing cs with
  | zero => rfl
  | succ n ih =>
    by_cases h : cs = []
    · simp [h]
    · obtain ⟨line, hlines, _⟩ := protocolLines_eq h
      rw [hlines, List.drop_succ_cons, ih, afterLines]

/-- So many lines and what follows them make up the text. -/
theorem length_take_protocolLines (n : Nat) (cs : List Char) :
    ((protocolLines cs).take n).flatten.length + (afterLines n cs).length = cs.length := by
  have hflatten := congrArg List.length (flatten_protocolLines cs)
  rw [← List.take_append_drop n (protocolLines cs), List.flatten_append, List.length_append,
    drop_protocolLines, flatten_protocolLines] at hflatten
  exact hflatten

/-- A line of a text, if there is one, and else nothing is left. -/
theorem getElem?_protocolLines (n : Nat) (cs : List Char) :
    ((protocolLines cs)[n]?).map lineContent =
      if afterLines n cs = [] then none else some (firstLine (afterLines n cs)) := by
  rw [← List.head?_drop, drop_protocolLines]
  split
  · next h => simp [h]
  · next h =>
    obtain ⟨line, hlines, hcontent⟩ := protocolLines_eq h
    rw [hlines, List.head?_cons, Option.map_some, hcontent]

/-! ## Line after line -/

theorem breakCount_eq_zero {cs : List Char} :
    breakCount cs = 0 ↔ ∀ c ∈ cs, isProtocolBreak c = false := by
  induction cs with
  | nil => simp [breakCount]
  | cons c rest ih =>
    simp only [breakCount, Nat.add_eq_zero_iff, ih, List.forall_mem_cons]
    constructor
    · rintro ⟨hrest, hc⟩
      refine ⟨?_, hrest⟩
      cases rest with
      | nil => simpa [endsLine] using hc
      | cons d rest =>
        have hd : d ≠ '\n' := by
          rintro rfl
          exact absurd (hrest '\n' List.mem_cons_self) (by decide)
        simpa [endsLine, hd] using hc
    · rintro ⟨hc, hrest⟩
      exact ⟨hrest, by simp [endsLine, hc]⟩

private theorem afterLine_of_forall {cs : List Char} (h : ∀ c ∈ cs, isProtocolBreak c = false) :
    afterLine cs = [] := by
  induction cs with
  | nil => rfl
  | cons c rest ih =>
    rw [List.forall_mem_cons] at h
    rw [afterLine, if_neg (by simp [endsLine, h.1]), ih h.2]

theorem lastLine_of_forall {cs : List Char} (h : ∀ c ∈ cs, isProtocolBreak c = false) :
    lastLine cs = cs := by
  rw [lastLine, List.rtakeWhile_eq_self_iff]
  exact fun c hc => by simp [h c hc]

theorem isProtocolBreak_of_mem_lastLine {cs : List Char} :
    ∀ c ∈ lastLine cs, isProtocolBreak c = false := fun c hc => by
  simpa using List.mem_rtakeWhile_imp hc

private theorem lastLine_append_of_break (a : List Char) {c : Char} (b : List Char)
    (h : isProtocolBreak c = true) : lastLine (a ++ c :: b) = lastLine b := by
  simp only [lastLine, List.rtakeWhile, List.reverse_append, List.reverse_cons, List.append_assoc,
    List.takeWhile_append]
  split
  · next hall =>
    have hb := (List.takeWhile_sublist (!isProtocolBreak ·)).eq_of_length hall
    simp [h, hb]
  · rfl

/-- The first line of a text with a break is followed by what follows its break. -/
private theorem exists_afterLine {cs : List Char} (h : breakCount cs ≠ 0) :
    ∃ line c, cs = line ++ c :: afterLine cs ∧ isProtocolBreak c = true ∧
      breakCount cs = breakCount (afterLine cs) + 1 := by
  induction cs with
  | nil => exact absurd rfl h
  | cons c rest ih =>
    rw [afterLine]
    cases hends : endsLine isProtocolBreak c rest with
    | true =>
      have hc : isProtocolBreak c = true := (Bool.and_eq_true _ _ ▸ hends).1
      exact ⟨[], c, by simp, hc, by simp [breakCount, hends]⟩
    | false =>
      have hcount : breakCount (c :: rest) = breakCount rest := by simp [breakCount, hends]
      obtain ⟨line, d, hsplit, hd, hrest⟩ := ih (hcount ▸ h)
      refine ⟨c :: line, d, ?_, hd, by simpa [hcount] using hrest⟩
      simpa using hsplit

private theorem lastLine_afterLine {cs : List Char} (h : breakCount cs ≠ 0) :
    lastLine (afterLine cs) = lastLine cs := by
  obtain ⟨line, c, hsplit, hc, _⟩ := exists_afterLine h
  conv_rhs => rw [hsplit, lastLine_append_of_break _ _ hc]

private theorem afterLine_append {a b : List Char} (ha : breakCount a ≠ 0)
    (h : ¬ SplitsBreak a b) : afterLine (a ++ b) = afterLine a ++ b := by
  induction a with
  | nil => exact absurd rfl ha
  | cons c rest ih =>
    have hends : endsLine isProtocolBreak c (rest ++ b) = endsLine isProtocolBreak c rest := by
      cases rest with
      | cons d rest => simp [endsLine]
      | nil =>
        by_cases hc : c = '\r'
        · have hb : b.head? ≠ some '\n' := fun hb => h ⟨by simp [hc], hb⟩
          simp [endsLine, hb]
        · simp [endsLine, hc]
    rw [List.cons_append, afterLine, afterLine, hends]
    cases hc : endsLine isProtocolBreak c rest with
    | true => simp
    | false =>
      have hrest : breakCount rest ≠ 0 := by simpa [breakCount, hc] using ha
      have hsplit : ¬ SplitsBreak rest b := by
        cases rest with
        | nil => exact absurd rfl hrest
        | cons d rest => simpa [SplitsBreak] using h
      simpa using ih hrest hsplit

/-- **After all line breaks of a text its last line is left**, whatever comes after it. -/
theorem afterLines_append (a b : List Char) (h : ¬ SplitsBreak a b) :
    afterLines (breakCount a) (a ++ b) = lastLine a ++ b := by
  generalize hn : breakCount a = n
  induction n generalizing a with
  | zero => rw [afterLines, lastLine_of_forall (breakCount_eq_zero.mp hn)]
  | succ n ih =>
    have hne : breakCount a ≠ 0 := by omega
    obtain ⟨line, c, hsplit, _, hcount⟩ := exists_afterLine hne
    have hafter : ¬ SplitsBreak (afterLine a) b := by
      rintro ⟨hreturn, hfeed⟩
      refine h ⟨?_, hfeed⟩
      rw [hsplit, List.getLast?_append, List.getLast?_cons, hreturn]
      rfl
    rw [afterLines, afterLine_append hne h, ih _ hafter (by omega), lastLine_afterLine hne]

theorem afterLines_breakCount (cs : List Char) : afterLines (breakCount cs) cs = lastLine cs := by
  simpa using afterLines_append cs [] (fun h => absurd h.2 (by simp))

/-- **There is a line for each break, and one more for characters after the last one.** -/
theorem length_protocolLines (cs : List Char) :
    (protocolLines cs).length = breakCount cs + if lastLine cs = [] then 0 else 1 := by
  generalize hn : breakCount cs = n
  induction n generalizing cs with
  | zero =>
    have hnone := breakCount_eq_zero.mp hn
    rw [lastLine_of_forall hnone]
    by_cases hcs : cs = []
    · simp [hcs]
    · obtain ⟨line, hlines, _⟩ := protocolLines_eq hcs
      simp [hlines, afterLine_of_forall hnone, hcs]
  | succ n ih =>
    have hne : breakCount cs ≠ 0 := by omega
    obtain ⟨_, _, _, _, hcount⟩ := exists_afterLine hne
    have hcs : cs ≠ [] := by
      rintro rfl
      exact hne rfl
    obtain ⟨first, hlines, _⟩ := protocolLines_eq hcs
    rw [hlines, List.length_cons, ih (afterLine cs) (by omega), lastLine_afterLine hne]
    omega

/-- Nothing follows more line breaks than there are. -/
theorem afterLines_of_breakCount_lt {n : Nat} {cs : List Char} (h : breakCount cs < n) :
    afterLines n cs = [] := by
  have hlength := length_protocolLines cs
  have hnone : (protocolLines cs).drop n = [] := by
    apply List.drop_eq_nil_of_le
    split at hlength <;> omega
  rw [drop_protocolLines] at hnone
  exact cutLines_eq_nil.mp hnone

end FormatServer.Text
