import Mathlib.Algebra.GroupWithZero.Nat
import Mathlib.Data.Set.Basic
import Mathlib.Order.Bounds.Basic
import FormatServer.Proofs.Document.ProtocolPosition

/-!
The index that a position stands for. Main statement (`offset_of_position`): it is where the line begins and
the least count of characters of its content that has the code units of the position, or all of them; a
position that was taken at an index stands for that index, whatever characters stand before; and every index
of a text has a position but those between a carriage return and its line feed.
-/

namespace FormatServer

open Text

/-! ## Characters by code units -/

/-- **The index of a count of code units is the least one with so many before it**, or the end of the text. -/
theorem isLeast_indexOf (e : Encoding) (units : Nat) (cs : List Char) :
    IsLeast {k | min units (e.size cs) ≤ e.size (cs.take k)} (e.indexOf units cs) := by
  induction cs generalizing units with
  | nil => exact ⟨by simp, fun k _ => Nat.zero_le k⟩
  | cons c cs ih =>
    have hwidth := e.width_pos c
    obtain ⟨hmem, hleast⟩ := ih (units - e.width c)
    rw [Encoding.indexOf]
    split
    · next hzero => exact ⟨by simp [hzero], fun k _ => Nat.zero_le k⟩
    · next hunits =>
      constructor
      · simp only [Set.mem_ofPred_eq, List.take_succ_cons, Encoding.size_cons] at hmem ⊢
        omega
      · intro k hk
        cases k with
        | zero =>
          simp only [Set.mem_ofPred_eq, List.take_zero, Encoding.size_cons, Encoding.size_nil] at hk
          omega
        | succ k =>
          simp only [Set.mem_ofPred_eq, List.take_succ_cons, Encoding.size_cons] at hk
          refine Nat.succ_le_succ (hleast ?_)
          rw [Set.mem_ofPred_eq]
          omega

theorem indexOf_le_length (e : Encoding) (units : Nat) (cs : List Char) :
    e.indexOf units cs ≤ cs.length := by
  refine (isLeast_indexOf e units cs).2 ?_
  rw [Set.mem_ofPred_eq, List.take_length]
  exact Nat.min_le_right ..

/-! ## Lines and their breaks -/

namespace Text

/-- A line is its content and then nothing or one line break of the protocol. -/
structure LineShape (line ending : List Char) : Prop where
  whole : lineContent line ++ ending = line
  plain : ∀ c ∈ lineContent line, isProtocolBreak c = false
  ending : ending = [] ∨ ending = ['\n'] ∨ ending = ['\r'] ∨ ending = ['\r', '\n']

private theorem lineShape_singleton (c : Char) : ∃ ending, LineShape [c] ending := by
  cases hc : isProtocolBreak c with
  | false =>
    have hcontent : lineContent [c] = [c] := by simp [lineContent, hc]
    exact ⟨[], by simp [hcontent], by simp [hcontent, hc], .inl rfl⟩
  | true =>
    have hcontent : lineContent [c] = [] := by simp [lineContent, hc]
    refine ⟨[c], by simp [hcontent], by simp [hcontent], ?_⟩
    simpa [isProtocolBreak] using hc

private theorem LineShape.cons {line ending : List Char} (h : LineShape line ending) {c : Char}
    (hc : isProtocolBreak c = false) : LineShape (c :: line) ending := by
  have hcontent : lineContent (c :: line) = c :: lineContent line := by
    rw [lineContent_cons, if_neg (by simp [hc])]
  exact ⟨by rw [hcontent, List.cons_append, h.whole], by simpa [hcontent, hc] using h.plain, h.ending⟩

/-- **Every line of a text is content without breaks and at most one break of the protocol.** -/
theorem lineShape_of_mem_lines {cs : List Char} :
    ∀ line ∈ lines cs, ∃ ending, LineShape line ending := by
  rw [lines]
  fun_induction cutLines isLineBreak cs with
  | case1 => simp
  | case2 c => simpa using lineShape_singleton c
  | case3 c d rest h ih =>
    have hpair : LineShape ['\r', '\n'] ['\r', '\n'] :=
      ⟨rfl, by simp [show lineContent ['\r', '\n'] = [] from rfl], .inr (.inr (.inr rfl))⟩
    exact List.forall_mem_cons.mpr ⟨⟨_, hpair⟩, ih⟩
  | case4 c d rest _ _ ih => exact List.forall_mem_cons.mpr ⟨lineShape_singleton c, ih⟩
  | case5 c d rest _ hc ih =>
    have hplain : isProtocolBreak c = false := by
      by_contra hbreak
      exact hc (isLineBreak_of_isProtocolBreak (by simpa using hbreak))
    cases hlines : cutLines isLineBreak (d :: rest) with
    | nil => simpa [consChar] using lineShape_singleton c
    | cons first more =>
      rw [hlines, List.forall_mem_cons] at ih
      obtain ⟨⟨ending, hfirst⟩, hmore⟩ := ih
      exact List.forall_mem_cons.mpr ⟨⟨ending, hfirst.cons hplain⟩, hmore⟩

private theorem splitsBreak_append_iff {a b after : List Char} (hb : b ≠ []) :
    SplitsBreak (a ++ b) after ↔ SplitsBreak b after := by
  rw [SplitsBreak, List.getLast?_append_of_ne_nil a hb, SplitsBreak]

/-- No line of a text that begins with a whole line begins within a break, if the others do not. -/
private theorem not_splitsBreak_cons {line : List Char} {more : List (List Char)}
    (hline : ¬ SplitsBreak line more.flatten)
    (hmore : ∀ n, ¬ SplitsBreak (more.take n).flatten (more.drop n).flatten) (n : Nat) :
    ¬ SplitsBreak ((line :: more).take n).flatten ((line :: more).drop n).flatten := by
  cases n with
  | zero => simp [SplitsBreak]
  | succ n =>
    rw [List.take_succ_cons, List.drop_succ_cons, List.flatten_cons]
    by_cases hnone : (more.take n).flatten = []
    · have hall : (more.drop n).flatten = more.flatten := by
        conv_rhs => rw [← List.take_append_drop n more, List.flatten_append, hnone, List.nil_append]
      rwa [hnone, hall, List.append_nil]
    · rw [splitsBreak_append_iff hnone]
      exact hmore n

/-- **No line begins between a carriage return and its line feed.** -/
theorem not_splitsBreak_lines (cs : List Char) (n : Nat) :
    ¬ SplitsBreak ((lines cs).take n).flatten ((lines cs).drop n).flatten := by
  rw [lines]
  fun_induction cutLines isLineBreak cs generalizing n with
  | case1 => simp [SplitsBreak]
  | case2 c => cases n <;> simp [SplitsBreak]
  | case3 c d rest _ ih => exact not_splitsBreak_cons (by simp [SplitsBreak]) ih n
  | case4 c d rest hpair hc ih =>
    refine not_splitsBreak_cons ?_ ih n
    rw [flatten_cutLines]
    rintro ⟨hreturn, hfeed⟩
    exact hpair ⟨by simpa using hreturn, by simpa using hfeed, hc⟩
  | case5 c d rest _ hc ih =>
    have hreturn : c ≠ '\r' := by
      rintro rfl
      exact hc rfl
    cases n with
    | zero => simp [SplitsBreak]
    | succ n =>
      -- The character in front of the first line is not its last one, or is no carriage return.
      have htake : ((consChar c (cutLines isLineBreak (d :: rest))).take (n + 1)).flatten =
          [c] ++ ((cutLines isLineBreak (d :: rest)).take (n + 1)).flatten := by
        cases cutLines isLineBreak (d :: rest) <;> simp [consChar]
      have hdrop : (consChar c (cutLines isLineBreak (d :: rest))).drop (n + 1) =
          (cutLines isLineBreak (d :: rest)).drop (n + 1) := by
        cases cutLines isLineBreak (d :: rest) <;> simp [consChar]
      rw [htake, hdrop]
      by_cases hnone : ((cutLines isLineBreak (d :: rest)).take (n + 1)).flatten = []
      · rw [hnone]
        simp [SplitsBreak, hreturn]
      · rw [splitsBreak_append_iff hnone]
        exact ih (n + 1)

theorem flatten_take_append_drop (text : List Char) (n : Nat) :
    ((lines text).take n).flatten ++ ((lines text).drop n).flatten = text := by
  rw [← List.flatten_append, List.take_append_drop, flatten_lines]

/-- Every character of a text that is cut stands in one of the pieces. -/
private theorem exists_piece {pieces : List (List Char)} {i : Nat} (hi : i < pieces.flatten.length) :
    ∃ n piece, pieces[n]? = some piece ∧ (pieces.take n).flatten.length ≤ i ∧
      i < (pieces.take n).flatten.length + piece.length := by
  induction pieces generalizing i with
  | nil => exact absurd hi (by simp)
  | cons first more ih =>
    rw [List.flatten_cons, List.length_append] at hi
    by_cases hfirst : i < first.length
    · exact ⟨0, first, rfl, by simp, by simpa using hfirst⟩
    · obtain ⟨n, piece, hpiece, hstart, hend⟩ := ih (i := i - first.length) (by omega)
      refine ⟨n + 1, piece, hpiece, ?_, ?_⟩
      · rw [List.take_succ_cons, List.flatten_cons, List.length_append]
        omega
      · rw [List.take_succ_cons, List.flatten_cons, List.length_append]
        omega

end Text

/-! ## Positions of a line -/

section Line

variable {text line : List Char} {n : Nat}

/-- A text is the lines before a line, the content of the line, its ending and the lines after it. -/
private theorem text_around (h : (lines text)[n]? = some line) :
    ∃ ending, LineShape line ending ∧
      ((lines text).take n).flatten ++
        (lineContent line ++ (ending ++ ((lines text).drop (n + 1)).flatten)) = text := by
  obtain ⟨ending, hshape⟩ := lineShape_of_mem_lines line (List.mem_of_getElem? h)
  obtain ⟨hn, hline⟩ := List.getElem?_eq_some_iff.mp h
  refine ⟨ending, hshape, ?_⟩
  conv_rhs => rw [← flatten_take_append_drop text n]
  rw [List.drop_eq_getElem_cons hn, hline, List.flatten_cons, ← List.append_assoc (lineContent line),
    hshape.whole]

/-- The lines before a line and the first characters of its content are the first characters of the text. -/
private theorem take_of_line (h : (lines text)[n]? = some line) {k : Nat}
    (hk : k ≤ (lineContent line).length) :
    text.take (((lines text).take n).flatten.length + k) =
      ((lines text).take n).flatten ++ (lineContent line).take k := by
  obtain ⟨ending, _, htext⟩ := text_around h
  have htake := congrArg (List.take (((lines text).take n).flatten.length + k)) htext
  rw [List.take_length_add_append, List.take_append_of_le_length hk] at htake
  exact htake.symm

/-- **A position taken within a line stands for the index it was taken at.** -/
private theorem offsetAt_of_slice (e : Encoding) (h : (lines text)[n]? = some line) {k : Nat}
    (hk : k ≤ (lineContent line).length) :
    offsetAt e text ⟨n, e.size (slice text ((lines text).take n).flatten.length
      (((lines text).take n).flatten.length + k))⟩ = ((lines text).take n).flatten.length + k := by
  have hindex := indexOf_size_append e ((lineContent line).take k) ((lineContent line).drop k)
  rw [List.take_append_drop, List.length_take_of_le hk] at hindex
  rw [offsetAt_of_some h, slice, take_of_line h hk, List.drop_left, hindex]

/-- No position of a line stands between a carriage return and its line feed. -/
private theorem not_splitsBreak_of_line (h : (lines text)[n]? = some line) {k : Nat}
    (hk : k ≤ (lineContent line).length) :
    ¬ SplitsBreak (text.take (((lines text).take n).flatten.length + k))
      (text.drop (((lines text).take n).flatten.length + k)) := by
  obtain ⟨ending, hshape⟩ := lineShape_of_mem_lines line (List.mem_of_getElem? h)
  cases k with
  | zero =>
    have htake : text.take ((lines text).take n).flatten.length = ((lines text).take n).flatten := by
      simpa using take_of_line h hk
    have hdrop : text.drop ((lines text).take n).flatten.length = ((lines text).drop n).flatten := by
      have hsplit := congrArg (List.drop ((lines text).take n).flatten.length)
        (flatten_take_append_drop text n)
      rwa [List.drop_left, eq_comm] at hsplit
    rw [Nat.add_zero, htake, hdrop]
    exact not_splitsBreak_lines text n
  | succ k =>
    have hsome : (lineContent line).take (k + 1) ≠ [] := by
      rw [← List.length_pos_iff, List.length_take_of_le hk]
      exact Nat.succ_pos k
    rw [take_of_line h hk, splitsBreak_append_iff hsome]
    rintro ⟨hreturn, -⟩
    have hmem := List.mem_of_mem_take (List.mem_of_getLast? hreturn)
    exact absurd (hshape.plain _ hmem) (by decide)

/-- An index in a line is in its content, at its end, or between a carriage return and its line feed. -/
private theorem le_or_splitsBreak (h : (lines text)[n]? = some line) {k : Nat} (hk : k < line.length) :
    k ≤ (lineContent line).length ∨
      SplitsBreak (text.take (((lines text).take n).flatten.length + k))
        (text.drop (((lines text).take n).flatten.length + k)) := by
  obtain ⟨ending, hshape, htext⟩ := text_around h
  refine or_iff_not_imp_left.mpr fun hout => ?_
  have hlength : (lineContent line).length + ending.length = line.length := by
    rw [← List.length_append, hshape.whole]
  have hlong : 2 ≤ ending.length := by omega
  rcases hshape.ending with rfl | rfl | rfl | rfl
  · exact absurd hlong (by decide)
  · exact absurd hlong (by decide)
  · exact absurd hlong (by decide)
  · have hcut : (((lines text).take n).flatten ++ (lineContent line ++ ['\r'])) ++
        ('\n' :: ((lines text).drop (n + 1)).flatten) = text := by
      simpa only [List.append_assoc, List.cons_append, List.nil_append] using htext
    have hindex : ((lines text).take n).flatten.length + k =
        (((lines text).take n).flatten ++ (lineContent line ++ ['\r'])).length := by
      simp only [List.length_append, List.length_cons, List.length_nil] at hlength ⊢
      omega
    have htake := congrArg (List.take (((lines text).take n).flatten.length + k)) hcut
    have hdrop := congrArg (List.drop (((lines text).take n).flatten.length + k)) hcut
    rw [hindex, List.take_left] at htake
    rw [hindex, List.drop_left] at hdrop
    rw [hindex, ← htake, ← hdrop, ← List.append_assoc]
    exact ⟨List.getLast?_concat, rfl⟩

end Line

/-- **A position stands for an exact index.** Past the last line it is the end of the text; else it is as
many characters as the lines before have, and then the least number of characters of the line's content that
has the code units of the position, or all code units of the content. A position that is taken within the
content of a line or at its end stands for the index it was taken at. No position stands past the end of the
text, and an index of the text has a position exactly when it is not between a carriage return and its line
feed. -/
theorem offset_of_position (text : List Char) (e : Encoding) :
    let start := fun n => (((lines text).take n).map List.length).sum
    (∀ p : Position, (lines text).length ≤ p.line → offsetAt e text p = text.length) ∧
    (∀ (p : Position) line, (lines text)[p.line]? = some line →
      ∃ k, offsetAt e text p = start p.line + k ∧
        IsLeast {k | min p.character (e.size (lineContent line)) ≤ e.size ((lineContent line).take k)} k) ∧
    (∀ n line i, (lines text)[n]? = some line →
      start n ≤ i → i ≤ start n + (lineContent line).length →
      offsetAt e text ⟨n, e.size (slice text (start n) i)⟩ = i) ∧
    (∀ p, offsetAt e text p ≤ text.length) ∧
    ∀ i ≤ text.length,
      (∃ p, offsetAt e text p = i) ↔ ¬ SplitsBreak (text.take i) (text.drop i) := by
  intro start
  have hstart : ∀ n, start n = ((lines text).take n).flatten.length := fun n => List.length_flatten.symm
  have hround : ∀ n line i, (lines text)[n]? = some line → start n ≤ i →
      i ≤ start n + (lineContent line).length →
      offsetAt e text ⟨n, e.size (slice text (start n) i)⟩ = i := by
    intro n line i hline hfirst hlast
    rw [hstart] at hfirst hlast ⊢
    have hround := offsetAt_of_slice e hline (k := i - ((lines text).take n).flatten.length) (by omega)
    rwa [Nat.add_sub_of_le hfirst] at hround
  have hreach : ∀ p, offsetAt e text p ≤ text.length ∧
      ¬ SplitsBreak (text.take (offsetAt e text p)) (text.drop (offsetAt e text p)) := by
    intro p
    cases hline : (lines text)[p.line]? with
    | none =>
      rw [offsetAt_of_none hline, List.drop_length]
      exact ⟨Nat.le_refl _, fun h => absurd h.2 (by simp)⟩
    | some line =>
      have hk := indexOf_le_length e p.character (lineContent line)
      rw [offsetAt_of_some hline]
      refine ⟨?_, not_splitsBreak_of_line hline hk⟩
      obtain ⟨ending, _, htext⟩ := text_around hline
      have hlength := congrArg List.length htext
      simp only [List.length_append] at hlength
      omega
  refine ⟨fun p hp => offsetAt_of_none (List.getElem?_eq_none hp), fun p line hline => ?_, hround,
    fun p => (hreach p).1, fun i hi => ⟨?_, fun hsplit => ?_⟩⟩
  · exact ⟨_, by rw [hstart, offsetAt_of_some hline], isLeast_indexOf e p.character (lineContent line)⟩
  · rintro ⟨p, rfl⟩
    exact (hreach p).2
  · rcases Nat.lt_or_eq_of_le hi with hlt | rfl
    · obtain ⟨n, line, hline, hfirst, hlast⟩ := exists_piece (i := i) ((flatten_lines text).symm ▸ hlt)
      obtain hin | hout := le_or_splitsBreak hline (k := i - ((lines text).take n).flatten.length) (by omega)
      · exact ⟨_, hround n line i hline (hstart n ▸ hfirst) (by rw [hstart]; omega)⟩
      · rw [Nat.add_sub_of_le hfirst] at hout
        exact absurd hout hsplit
    · exact ⟨⟨(lines text).length, 0⟩, offsetAt_of_none (List.getElem?_eq_none (Nat.le_refl _))⟩

/-- A character of two code units on an earlier line counts as one. -/
example : offsetAt .utf16 "😀a\r\né😀b".toList ⟨1, 3⟩ = 6 := by decide

end FormatServer
