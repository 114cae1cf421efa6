import Mathlib.Data.Prod.Lex
import Mathlib.Order.Monotone.Defs
import FormatServer.Proofs.Document.Offset

/-!
Ranges of a text. Main statement (`ranges_partition`): a later position never stands for an earlier index, so
ranges that follow each other select, put together, what the range around them selects, and a range whose end
comes before its start selects nothing.
-/

namespace FormatServer

open Text

/-! ## The order of positions -/

namespace Position

/-- Positions are ordered by their lines, and those of one line by their characters. -/
instance : Preorder Position := Preorder.lift fun p => toLex (p.line, p.character)

theorem le_iff {p q : Position} :
    p ≤ q ↔ p.line < q.line ∨ p.line = q.line ∧ p.character ≤ q.character :=
  Prod.Lex.toLex_le_toLex

end Position

/-! ## Later positions -/

section Offsets

variable (e : Encoding) (text : List Char)

private theorem offsetAt_nextLine {p : Position} {line : List Char}
    (h : (lines text)[p.line]? = some line) :
    offsetAt e text ⟨p.line + 1, 0⟩ = offsetAt e text ⟨p.line, 0⟩ + line.length := by
  simp [offsetAt_lineStart, List.take_add_one, h]

/-- A line begins no earlier than the lines before it. -/
private theorem offsetAt_lineStart_le {m n : Nat} (h : m ≤ n) :
    offsetAt e text ⟨m, 0⟩ ≤ offsetAt e text ⟨n, 0⟩ := by
  have htake : ((lines text).take n).take m = (lines text).take m := by
    rw [List.take_take, Nat.min_eq_left h]
  rw [offsetAt_lineStart, offsetAt_lineStart, ← htake]
  conv_rhs => rw [← List.take_append_drop m ((lines text).take n), List.flatten_append, List.length_append]
  exact Nat.le_add_right _ _

private theorem length_lineContent_le {line : List Char} (h : line ∈ lines text) :
    (lineContent line).length ≤ line.length := by
  obtain ⟨ending, hshape⟩ := lineShape_of_mem_lines line h
  have hwhole := congrArg List.length hshape.whole
  rw [List.length_append] at hwhole
  omega

/-- Past its end a line has no positions that stand further down than the next line. -/
private theorem offsetAt_le_nextLine (p : Position) :
    offsetAt e text p ≤ offsetAt e text ⟨p.line + 1, 0⟩ := by
  cases hline : (lines text)[p.line]? with
  | none =>
    have hnext : (lines text)[p.line + 1]? = none := by
      rw [List.getElem?_eq_none_iff] at hline ⊢
      omega
    rw [offsetAt_of_none hline, offsetAt_of_none hnext]
  | some line =>
    have hindex := indexOf_le_length e p.character (lineContent line)
    have hcontent := length_lineContent_le text (List.mem_of_getElem? hline)
    rw [offsetAt_nextLine e text hline, offsetAt_of_some hline, offsetAt_lineStart]
    omega

private theorem indexOf_le_indexOf {units more : Nat} (h : units ≤ more) (cs : List Char) :
    e.indexOf units cs ≤ e.indexOf more cs := by
  refine (isLeast_indexOf e units cs).2 ?_
  have hmore := (isLeast_indexOf e more cs).1
  rw [Set.mem_ofPred_eq] at hmore ⊢
  omega

private theorem offsetAt_le_character (n : Nat) {a b : Nat} (h : a ≤ b) :
    offsetAt e text ⟨n, a⟩ ≤ offsetAt e text ⟨n, b⟩ := by
  cases hline : (lines text)[n]? with
  | none => rw [offsetAt_of_none hline, offsetAt_of_none hline]
  | some line =>
    rw [offsetAt_of_some hline, offsetAt_of_some hline]
    exact Nat.add_le_add_left (indexOf_le_indexOf e h (lineContent line)) _

/-- **A later position stands for a later index, or for the same.** -/
theorem monotone_offsetAt : Monotone (offsetAt e text) := by
  intro p q h
  rcases Position.le_iff.mp h with hline | ⟨hline, hcharacter⟩
  · calc offsetAt e text p
      _ ≤ offsetAt e text ⟨p.line + 1, 0⟩ := offsetAt_le_nextLine e text p
      _ ≤ offsetAt e text ⟨q.line, 0⟩ := offsetAt_lineStart_le e text hline
      _ ≤ offsetAt e text q := offsetAt_le_character e text q.line (Nat.zero_le _)
  · obtain ⟨line, character⟩ := p
    subst hline
    exact offsetAt_le_character e text q.line hcharacter

theorem offsetAt_of_length_le {p : Position} (h : (lines text).length ≤ p.line) :
    offsetAt e text p = text.length :=
  offsetAt_of_none (List.getElem?_eq_none h)

theorem offsetAt_le_length (p : Position) : offsetAt e text p ≤ text.length := by
  -- Far enough down every position stands for the end of the text.
  have hlater : p ≤ ⟨p.line + 1 + (lines text).length, 0⟩ :=
    Position.le_iff.mpr (.inl (Nat.lt_add_right _ (Nat.lt_succ_self _)))
  have hend : offsetAt e text ⟨p.line + 1 + (lines text).length, 0⟩ = text.length :=
    offsetAt_of_length_le e text (Nat.le_add_left ..)
  exact hend ▸ monotone_offsetAt e text hlater

theorem offsetAt_zero : offsetAt e text ⟨0, 0⟩ = 0 := offsetAt_lineStart e text 0

end Offsets

/-! ## Parts of a text -/

section Slices

variable (text : List Char)

theorem slice_append_slice {i j k : Nat} (hij : i ≤ j) (hjk : j ≤ k) :
    slice text i j ++ slice text j k = slice text i k := by
  have hlength : k - i = (j - i) + (k - j) := by omega
  have hstart : i + (j - i) = j := Nat.add_sub_of_le hij
  calc slice text i j ++ slice text j k
    _ = (text.drop i).take (j - i) ++ (text.drop j).take (k - j) := by
      rw [slice, slice, List.drop_take, List.drop_take]
    _ = (text.drop i).take (k - i) := by
      rw [hlength, List.take_add, List.drop_drop, hstart]
    _ = slice text i k := by rw [slice, List.drop_take]

theorem slice_eq_nil {i j : Nat} (h : j ≤ i) : slice text i j = [] :=
  List.drop_eq_nil_of_le (Nat.le_trans (List.length_take_le j text) h)

theorem slice_zero_length : slice text 0 text.length = text := by
  rw [slice, List.take_length, List.drop_zero]

end Slices

/-- **Ranges part a document.** For all lines and characters, past the end of a line and of the text too, a
later position stands for no earlier index; the first position stands for the start of the text, and none for
more than its end. So two ranges, one beginning where the other ends, select together what the range around
them does; from the start to a position, from there to a later one, and from that to any position past the
last line the whole text is selected; and nothing is between a position and an earlier one. -/
theorem ranges_partition (d : Document) (e : Encoding) :
    let text := d.text.toList
    let part := fun p q => d.textIn e (some ⟨p, q⟩)
    Monotone (offsetAt e text) ∧
    offsetAt e text ⟨0, 0⟩ = 0 ∧
    (∀ p, offsetAt e text p ≤ text.length) ∧
    (∀ p q r, p ≤ q → q ≤ r → part p q ++ part q r = part p r) ∧
    (∀ p q r, p ≤ q → (lines text).length ≤ r.line →
      text = part ⟨0, 0⟩ p ++ part p q ++ part q r) ∧
    ∀ p q, q < p → part p q = [] := by
  intro text part
  have hmono := monotone_offsetAt e text
  refine ⟨hmono, offsetAt_zero e text, offsetAt_le_length e text, fun p q r hpq hqr => ?_,
    fun p q r hpq hr => ?_, fun p q hqp => ?_⟩
  · exact slice_append_slice text (hmono hpq) (hmono hqr)
  · have hend : offsetAt e text r = text.length := offsetAt_of_length_le e text hr
    change text = slice text _ _ ++ slice text _ _ ++ slice text _ (offsetAt e text r)
    rw [hend, offsetAt_zero, slice_append_slice text (Nat.zero_le _) (hmono hpq),
      slice_append_slice text (Nat.zero_le _) (offsetAt_le_length e text q), slice_zero_length]
  · exact slice_eq_nil text (hmono (le_of_lt hqp))

end FormatServer
