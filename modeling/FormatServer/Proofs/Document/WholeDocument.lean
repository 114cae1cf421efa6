import FormatServer.Formatter.Run
import FormatServer.Proofs.Document.Ranges

/-!
The range of a whole document. Main statement (`whole_document_covered`): it selects all of the text, and a
client that puts a new text in its place, by the lines and positions of the protocol, is left with the new
text alone.
-/

namespace FormatServer

open Text

/-- What an edit makes of a client's text: the new text in the place of what stands between the two positions
of the protocol. -/
def edited (e : Encoding) (text : List Char) (edit : TextEdit) : List Char :=
  text.take (protocolOffset e text edit.range.start) ++ edit.text.toList ++
    text.drop (protocolOffset e text edit.range.stop)

/-! ## The end by the server's lines -/

private theorem lineContent_of_not_terminated {line : List Char} (h : isTerminated line = false) :
    lineContent line = line := by
  change line.rdropWhile isProtocolBreak = line
  rw [List.rdropWhile_eq_self_iff]
  intro hne
  simpa [isTerminated, List.getLast?_eq_some_getLast hne] using h

/-- **The position after the last character stands for the end of the text**, whether its last line has a
break or not. -/
theorem offsetAt_endPosition (e : Encoding) (text : List Char) :
    offsetAt e text (endPosition e text) = text.length := by
  cases hlast : (lines text).getLast? with
  | none =>
    have hlines := List.getLast?_eq_none_iff.mp hlast
    exact offsetAt_of_length_le e text (by simp [hlines])
  | some last =>
    simp only [endPosition, hlast]
    cases hend : isTerminated last with
    | true => exact offsetAt_of_length_le e text (Nat.le_refl _)
    | false =>
      obtain ⟨before, hlines⟩ := List.getLast?_eq_some_iff.mp hlast
      have hget : (lines text)[(lines text).length - 1]? = some last := by simp [hlines]
      have htake : (lines text).take ((lines text).length - 1) = before := by simp [hlines]
      have htext := congrArg List.length (flatten_lines text)
      have hindex := indexOf_size_append e last []
      rw [hlines, List.flatten_append, List.flatten_singleton, List.length_append] at htext
      rw [List.append_nil] at hindex
      simp only [Bool.false_eq_true, if_false]
      rw [offsetAt_of_some hget, htake, lineContent_of_not_terminated hend, hindex, htext]

/-! ## The end by the client's lines -/

theorem protocolOffset_zero (e : Encoding) (text : List Char) : protocolOffset e text ⟨0, 0⟩ = 0 :=
  protocolOffset_lineStart e text 0

/-- No line of the protocol begins after more breaks than a text has. -/
theorem protocolOffset_of_breakCount_lt (e : Encoding) {text : List Char} {p : Position}
    (h : breakCount text < p.line) : protocolOffset e text p = text.length := by
  simp [protocolOffset, afterLines_of_breakCount_lt h, firstLine, Encoding.indexOf]

/-- **The position after the last character stands for the end of the text by the protocol too.** Breaks that
the protocol does not know put it past the last line, and without them it is the protocol's own. -/
theorem protocolOffset_endPosition (e : Encoding) (text : List Char) :
    protocolOffset e text (endPosition e text) = text.length := by
  have hline := endPosition_line e text
  rcases Nat.eq_zero_or_pos (strays text) with hnone | hsome
  · have hend : endPosition e text = protocolPosition e text text.length := by
      have hcharacter := endPosition_character (e := e) hnone
      rw [hnone, Nat.add_zero] at hline
      rw [protocolPosition, List.take_length, ← hline, ← hcharacter]
    have hwhole : ¬ SplitsBreak (text.take text.length) (text.drop text.length) := by
      simp [SplitsBreak]
    rw [hend, protocolOffset_protocolPosition e text text.length (Nat.le_refl _) hwhole]
  · exact protocolOffset_of_breakCount_lt e (by omega)

/-- **The range of the whole document covers all of it.** Whatever line breaks a text has and however it ends,
and in every encoding, the range selects the text that is had without a range, which is the document's; and
what a client has after an edit of that range, by the lines and positions of the protocol, is the new text. -/
theorem whole_document_covered (d : Document) (e : Encoding) :
    let text := d.text.toList
    d.textIn e (some (d.fullRange e)) = text ∧
    d.textIn e none = text ∧
    ∀ newText : String, edited e text ⟨d.fullRange e, newText⟩ = newText.toList := by
  intro text
  refine ⟨?_, rfl, fun newText => ?_⟩
  · change slice text (offsetAt e text ⟨0, 0⟩) (offsetAt e text (endPosition e text)) = text
    rw [offsetAt_zero, offsetAt_endPosition, slice_zero_length]
  · change text.take (protocolOffset e text ⟨0, 0⟩) ++ newText.toList ++
      text.drop (protocolOffset e text (endPosition e text)) = newText.toList
    rw [protocolOffset_zero, protocolOffset_endPosition, List.take_zero, List.drop_length,
      List.nil_append, List.append_nil]

/-- A line separator ends no line of the protocol, so the end of the range is past the client's last line. -/
example : edited .utf16 ['a', '\u2028', 'b'] ⟨(Document.mk "u" "text" 1 "a\u2028b").fullRange .utf16, "x"⟩ =
    ['x'] := by decide

end FormatServer
