import FormatServer.Document.Store
import FormatServer.Proofs.Text.Lines

/-!
Positions as the protocol defines them: a line is what stands between two line feeds, carriage returns or
pairs of them, and a position past the end of a line stands before its line break. Main statement
(`positions_follow_protocol`): a document's positions are these exactly when it has no other line break of
Unicode text, the last character not counted.
-/

namespace FormatServer

open Text

/-! ## Positions of the protocol -/

/-- The index in a text that a position of the protocol stands for. -/
def protocolOffset (e : Encoding) (text : List Char) (p : Position) : Nat :=
  let rest := afterLines p.line text
  text.length - rest.length + e.indexOf p.character (firstLine rest)

/-- The position of the protocol at an index: the line breaks before it, and the code units after the last
of them. -/
def protocolPosition (e : Encoding) (text : List Char) (i : Nat) : Position :=
  ⟨breakCount (text.take i), e.size (lastLine (text.take i))⟩

theorem indexOf_zero (e : Encoding) (cs : List Char) : e.indexOf 0 cs = 0 := by
  cases cs <;> rfl

/-- As many code units as the first part of a text has stand for its length. -/
theorem indexOf_size_append (e : Encoding) (a b : List Char) :
    e.indexOf (e.size a) (a ++ b) = a.length := by
  induction a with
  | nil => exact indexOf_zero e b
  | cons c a ih =>
    have hwidth := e.width_pos c
    rw [List.cons_append, Encoding.indexOf, Encoding.size_cons, if_neg (by omega),
      Nat.add_sub_cancel_left, ih, List.length_cons]

/-- **A position of the protocol stands for the index it was taken at.** -/
theorem protocolOffset_protocolPosition (e : Encoding) (text : List Char) (i : Nat)
    (hi : i ≤ text.length) (h : ¬ SplitsBreak (text.take i) (text.drop i)) :
    protocolOffset e text (protocolPosition e text i) = i := by
  have hrest := afterLines_append (text.take i) (text.drop i) h
  rw [List.take_append_drop] at hrest
  have hfirst : firstLine (lastLine (text.take i) ++ text.drop i) =
      lastLine (text.take i) ++ firstLine (text.drop i) :=
    List.takeWhile_append_of_pos fun c hc => by simp [isProtocolBreak_of_mem_lastLine c hc]
  have hlast : (lastLine (text.take i)).length ≤ i := by
    have hsuffix := (List.rtakeWhile_suffix (!isProtocolBreak ·) (text.take i)).length_le
    exact Nat.le_trans hsuffix (List.length_take_le i text)
  simp only [protocolOffset, protocolPosition, hrest, hfirst, indexOf_size_append,
    List.length_append, List.length_drop]
  omega

/-! ## Starts of lines -/

theorem offsetAt_of_none {e : Encoding} {text : List Char} {p : Position}
    (h : (lines text)[p.line]? = none) : offsetAt e text p = text.length := by
  simp only [offsetAt, h]

theorem offsetAt_of_some {e : Encoding} {text line : List Char} {p : Position}
    (h : (lines text)[p.line]? = some line) :
    offsetAt e text p =
      ((lines text).take p.line).flatten.length + e.indexOf p.character (lineContent line) := by
  simp only [offsetAt, h]

theorem offsetAt_lineStart (e : Encoding) (text : List Char) (n : Nat) :
    offsetAt e text ⟨n, 0⟩ = ((lines text).take n).flatten.length := by
  cases hline : (lines text)[n]? with
  | none =>
    rw [offsetAt_of_none hline, List.take_of_length_le (List.getElem?_eq_none_iff.mp hline),
      flatten_lines]
  | some line => rw [offsetAt_of_some hline, indexOf_zero, Nat.add_zero]

theorem protocolOffset_lineStart (e : Encoding) (text : List Char) (n : Nat) :
    protocolOffset e text ⟨n, 0⟩ = ((protocolLines text).take n).flatten.length := by
  have hlength := length_take_protocolLines n text
  simp only [protocolOffset, indexOf_zero]
  omega

/-- The lines before the last ones are not all of the text. -/
private theorem length_le_of_take {text : List Char} {n : Nat}
    (h : ((lines text).take n).flatten.length = text.length) : (lines text).length ≤ n := by
  by_contra hn
  have hsplit := congrArg List.length (flatten_lines text)
  rw [← List.take_append_drop n (lines text), List.flatten_append, List.length_append, h] at hsplit
  have hlt : n < (lines text).length := Nat.not_le.mp hn
  have hline := ne_nil_of_mem_lines _ (List.getElem_mem hlt)
  rw [List.drop_eq_getElem_cons hlt, List.flatten_cons, List.length_append] at hsplit
  have hpos := List.length_pos_iff.mpr hline
  omega

/-- When all lines begin at the same places, there is no break that the protocol does not know. -/
private theorem strays_of_lineStart {e : Encoding} {text : List Char}
    (h : ∀ n, offsetAt e text ⟨n, 0⟩ = protocolOffset e text ⟨n, 0⟩) : strays text = 0 := by
  have hn := h (protocolLines text).length
  rw [offsetAt_lineStart, protocolOffset_lineStart, List.take_length, flatten_protocolLines] at hn
  have hle := length_le_of_take hn
  rw [length_lines] at hle
  omega

/-! ## The end of a text -/

private theorem lastLine_eq_nil (text : List Char) :
    lastLine text = [] ↔ text = [] ∨ isTerminated text = true := by
  rw [lastLine, List.rtakeWhile_eq_nil_iff, isTerminated]
  by_cases h : text = []
  · simp [h]
  · simp [h, List.getLast?_eq_some_getLast h]

/-- A text ends as its last line does. -/
private theorem isTerminated_getLast {text last : List Char}
    (h : (lines text).getLast? = some last) : isTerminated last = isTerminated text := by
  obtain ⟨before, hlines⟩ := List.getLast?_eq_some_iff.mp h
  have hlast : last ≠ [] := ne_nil_of_mem_lines last (List.mem_of_getLast? h)
  have htext := flatten_lines text
  rw [hlines, List.flatten_append, List.flatten_singleton] at htext
  rw [← htext, isTerminated, isTerminated, List.getLast?_append_of_ne_nil _ hlast]

private theorem endPosition_eq (e : Encoding) {text : List Char} (h : text ≠ []) :
    ∃ last, (lines text).getLast? = some last ∧
      endPosition e text =
        if lastLine text = [] then ⟨(lines text).length, 0⟩
        else ⟨(lines text).length - 1, e.size last⟩ := by
  cases hlast : (lines text).getLast? with
  | none =>
    rw [List.getLast?_eq_none_iff] at hlast
    exact absurd (cutLines_eq_nil.mp hlast) h
  | some last =>
    refine ⟨last, rfl, ?_⟩
    have hnil := lastLine_eq_nil text
    rw [← isTerminated_getLast hlast, or_iff_right h] at hnil
    simp only [endPosition, hlast, hnil]

/-- **Each break that the protocol does not know puts the end of a text one line further.** -/
theorem endPosition_line (e : Encoding) (text : List Char) :
    (endPosition e text).line = breakCount text + strays text := by
  by_cases h : text = []
  · subst h
    rfl
  · have hlength := length_lines text
    obtain ⟨last, _, hend⟩ := endPosition_eq e h
    rw [length_protocolLines] at hlength
    rw [hend]
    split
    · next hnil => simpa [hnil] using hlength
    · next hnil =>
      rw [if_neg hnil] at hlength
      dsimp only
      omega

/-- The last line of a text that does not end with a break is what follows the last break. -/
private theorem getLast?_protocolLines {text : List Char} (h : lastLine text ≠ []) :
    (protocolLines text).getLast? = some (lastLine text) := by
  obtain ⟨line, hlines, _⟩ := protocolLines_eq h
  have hdrop := drop_protocolLines (breakCount text) text
  have hlength := congrArg List.length hdrop
  rw [List.length_drop, length_protocolLines, if_neg h, afterLines_breakCount] at hlength
  have hsingle : protocolLines (lastLine text) = [lastLine text] := by
    obtain ⟨single, hsingle⟩ := List.length_eq_one_iff.mp (hlength.symm.trans (by omega))
    have hflatten := flatten_protocolLines (lastLine text)
    rw [hsingle, List.flatten_singleton] at hflatten
    rw [hsingle, hflatten]
  rw [afterLines_breakCount, hsingle] at hdrop
  rw [← List.take_append_drop (breakCount text) (protocolLines text), hdrop,
    List.getLast?_concat]

/-- When no break is unknown to the protocol, a text ends where its last line does. -/
theorem endPosition_character {e : Encoding} {text : List Char} (h : strays text = 0) :
    (endPosition e text).character = e.size (lastLine text) := by
  by_cases htext : text = []
  · subst htext
    rfl
  · obtain ⟨last, hlast, hend⟩ := endPosition_eq e htext
    rw [hend]
    split
    · next hnil => simp [hnil]
    · next hnil =>
      rw [lines_eq_protocolLines h, getLast?_protocolLines hnil] at hlast
      rw [Option.some.inj hlast]

/-! ## All positions -/

private theorem offsetAt_eq_protocolOffset {e : Encoding} {text : List Char} (h : strays text = 0)
    (p : Position) : offsetAt e text p = protocolOffset e text p := by
  have hlines := lines_eq_protocolLines h
  have hcontent := getElem?_protocolLines p.line text
  have hlength := length_take_protocolLines p.line text
  rw [← hlines] at hcontent hlength
  cases hline : (lines text)[p.line]? with
  | none =>
    have hrest : afterLines p.line text = [] := by
      by_contra hrest
      simp [hline, hrest] at hcontent
    simp [offsetAt_of_none hline, protocolOffset, hrest, firstLine, Encoding.indexOf]
  | some line =>
    have hrest : afterLines p.line text ≠ [] := by
      intro hrest
      simp [hline, hrest] at hcontent
    rw [hline, if_neg hrest, Option.map_some, Option.some.injEq] at hcontent
    rw [offsetAt_of_some hline, protocolOffset, hcontent]
    omega

/-- What stands from an index to the end of a text tells the index. -/
private theorem eq_of_slice_length {text : List Char} {i j : Nat} (hi : i ≤ text.length)
    (hj : j ≤ text.length) (h : slice text i text.length = slice text j text.length) : i = j := by
  have hlength := congrArg List.length h
  simp only [slice, List.take_length, List.length_drop] at hlength
  omega

/-- All lines begin at the same places when the same is selected from them to the end of the text. -/
private theorem lineStart_of_textIn {e : Encoding} {text : List Char}
    (h : ∀ r, textIn e text r =
      slice text (protocolOffset e text r.start) (protocolOffset e text r.stop)) (n : Nat) :
    offsetAt e text ⟨n, 0⟩ = protocolOffset e text ⟨n, 0⟩ := by
  have hall : ∀ (ls : List (List Char)) (m : Nat), ls.flatten = text →
      (ls.take m).flatten.length ≤ text.length := by
    rintro ls m rfl
    conv_rhs => rw [← List.take_append_drop m ls, List.flatten_append, List.length_append]
    exact Nat.le_add_right _ _
  -- By either count no line begins so far down.
  have hend : offsetAt e text ⟨(lines text).length, 0⟩ = text.length := by
    rw [offsetAt_lineStart, List.take_length, flatten_lines]
  have hend' : protocolOffset e text ⟨(lines text).length, 0⟩ = text.length := by
    rw [protocolOffset_lineStart, List.take_of_length_le (by rw [length_lines]; omega),
      flatten_protocolLines]
  have hsame := h ⟨⟨n, 0⟩, ⟨(lines text).length, 0⟩⟩
  rw [textIn, hend, hend'] at hsame
  rw [offsetAt_lineStart, protocolOffset_lineStart] at hsame ⊢
  exact eq_of_slice_length (hall _ n (flatten_lines text)) (hall _ n (flatten_protocolLines text)) hsame

/-- **Positions follow the protocol exactly in texts whose line breaks it knows.** A document's positions
stand for the places that they stand for by the protocol, ranges select what they select by it, and the
whole document ends after as many line breaks and code units as it counts, each of these exactly when every
line break of Unicode text but for the last character is a line feed or a carriage return. By the protocol, a
position that was taken at an index stands for that index. -/
theorem positions_follow_protocol (d : Document) (e : Encoding) :
    let text := d.text.toList
    let known := ∀ c ∈ text.dropLast, isLineBreak c = true → c = '\n' ∨ c = '\r'
    ((∀ p, offsetAt e text p = protocolOffset e text p) ↔ known) ∧
    ((∀ r, d.textIn e (some r) =
      slice text (protocolOffset e text r.start) (protocolOffset e text r.stop)) ↔ known) ∧
    ((d.fullRange e).stop = ⟨breakCount text, e.size (lastLine text)⟩ ↔ known) ∧
    ∀ i, i ≤ text.length → ¬ SplitsBreak (text.take i) (text.drop i) →
      protocolOffset e text ⟨breakCount (text.take i), e.size (lastLine (text.take i))⟩ = i := by
  intro text known
  have hknown : known ↔ strays text = 0 := by
    simp [known, strays_eq_zero, isProtocolBreak]
  have hoffsets : known → ∀ p, offsetAt e text p = protocolOffset e text p :=
    fun h => offsetAt_eq_protocolOffset (hknown.mp h)
  refine ⟨⟨fun h => ?_, hoffsets⟩, ⟨fun h => ?_, fun h r => ?_⟩, ⟨fun h => ?_, fun h => ?_⟩,
    protocolOffset_protocolPosition e text⟩
  · exact hknown.mpr (strays_of_lineStart fun n => h ⟨n, 0⟩)
  · exact hknown.mpr (strays_of_lineStart (lineStart_of_textIn h))
  · rw [← hoffsets h, ← hoffsets h]
    rfl
  · have hline := endPosition_line e text
    rw [show endPosition e text = _ from h] at hline
    dsimp only at hline
    exact hknown.mpr (by omega)
  · have hstrays := hknown.mp h
    have hline := endPosition_line e text
    rw [hstrays, Nat.add_zero] at hline
    rw [show (d.fullRange e).stop = endPosition e text from rfl, ← hline,
      ← endPosition_character (e := e) hstrays]

end FormatServer
