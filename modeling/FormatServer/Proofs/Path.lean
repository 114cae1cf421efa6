import Mathlib.Data.List.Infix
import FormatServer.Path

/-!
Components of paths. A text without a slash is one component, and below a directory it is a path directly inside it;
any other text is not (`directly_inside_iff`). The extension of a name is what stands from its last point on
(`suffixOf_append`), if there is something before and after the point.
-/

namespace FormatServer

namespace Text

variable {sep : Char} {cs : List Char}

theorem splitOn_of_not_mem (h : sep ∉ cs) : splitOn sep cs = [cs] := by
  induction cs with
  | nil => rfl
  | cons c rest ih =>
    obtain ⟨hc, hrest⟩ := List.ne_and_not_mem_of_not_mem_cons h
    rw [splitOn, if_neg hc.symm, ih hrest]

/-- A piece between the places of a separator holds none. -/
theorem not_mem_of_mem_splitOn {piece : List Char} (h : piece ∈ splitOn sep cs) : sep ∉ piece := by
  induction cs generalizing piece with
  | nil =>
    obtain rfl := List.mem_singleton.mp h
    exact List.not_mem_nil
  | cons c rest ih =>
    rw [splitOn] at h
    split at h
    · rcases List.mem_cons.mp h with rfl | h
      · exact List.not_mem_nil
      · exact ih h
    · next hc =>
      cases hsplit : splitOn sep rest with
      | nil =>
        rw [hsplit] at h
        obtain rfl := List.mem_singleton.mp h
        simpa using Ne.symm hc
      | cons first more =>
        rw [hsplit] at h ih
        rcases List.mem_cons.mp h with rfl | h
        · exact List.not_mem_cons_of_ne_of_not_mem (Ne.symm hc) (ih List.mem_cons_self)
        · exact ih (List.mem_cons_of_mem _ h)

end Text

namespace Path

variable {directory : Path} {cs name : List Char}

/-! ## Components -/

theorem slash_not_mem_of_mem_parts {part : List Char} (h : part ∈ (ofChars cs).parts) : '/' ∉ part :=
  Text.not_mem_of_mem_splitOn (List.mem_filter.mp h).1

theorem name_mem_parts {p : Path} (h : p.parts ≠ []) : p.name ∈ p.parts := by
  rw [name, List.getLast?_eq_some_getLast h]
  exact List.getLast_mem h

theorem slash_not_mem_name (cs : List Char) : '/' ∉ (ofChars cs).name := by
  by_cases hparts : (ofChars cs).parts = []
  · rw [name, hparts]
    exact List.not_mem_nil
  · exact slash_not_mem_of_mem_parts (name_mem_parts hparts)

/-- A text without a slash is one component. -/
theorem ofChars_of_not_mem (h : '/' ∉ name) (hpart : isPart name = true) :
    ofChars name = ⟨.relative, [name]⟩ := by
  have hroot : rootOf name = .relative := by
    cases name with
    | nil => rfl
    | cons c rest =>
      obtain ⟨hc, -⟩ := List.ne_and_not_mem_of_not_mem_cons h
      unfold rootOf
      split <;> simp_all
  rw [ofChars, hroot, Text.splitOn_of_not_mem h, List.filter_cons_of_pos hpart, List.filter_nil]

theorem append_parts (directory : Path) (q : Path) :
    ∃ above, (directory.append q).parts = above ++ q.parts := by
  rw [append]
  split
  · exact ⟨directory.parts, rfl⟩
  · exact ⟨[], rfl⟩

/-- **A text with a component leads directly into a directory exactly when it holds no slash.** -/
theorem directly_inside_iff (directory : Path) (hpart : isPart name = true)
    (hparts : (ofChars name).parts ≠ []) :
    (directory.append (ofChars name)).parent = directory ∧ (directory.append (ofChars name)).name = name ↔
      '/' ∉ name := by
  constructor
  · rintro ⟨-, hname⟩
    obtain ⟨above, habove⟩ := append_parts directory (ofChars name)
    have hlast : (directory.append (ofChars name)).name = (ofChars name).name := by
      rw [Path.name, Path.name, habove, List.getLast?_append_of_ne_nil _ hparts]
    rw [← hname, hlast]
    exact slash_not_mem_name name
  · intro h
    rw [ofChars_of_not_mem h hpart]
    exact ⟨by simp [parent, append], by simp [Path.name, append]⟩

/-! ## Extensions -/

private theorem takeWhile_reverse {rest : List Char} (h : '.' ∉ rest) (before : List Char) :
    (before ++ rest).reverse.takeWhile (· ≠ '.') = rest.reverse ++ before.reverse.takeWhile (· ≠ '.') := by
  have hrest : ∀ c ∈ rest.reverse, decide (c ≠ '.') = true := by
    intro c hc
    rw [decide_eq_true_eq]
    rintro rfl
    exact h (List.mem_reverse.mp hc)
  rw [List.reverse_append, List.takeWhile_append_of_pos hrest]

/-- **The extension of a name** is what stands from the last point on, if there is something before and after it. -/
theorem suffixOf_append {stem rest : List Char} (hlast : '.' ∉ rest) :
    suffixOf (stem ++ '.' :: rest) = if stem = [] ∨ rest = [] then [] else '.' :: rest := by
  have hafter : ((stem ++ '.' :: rest).reverse.takeWhile (· ≠ '.')).reverse = rest := by
    rw [List.append_cons, takeWhile_reverse hlast]
    simp
  have hbefore : (stem ++ '.' :: rest).length - rest.length - 1 = stem.length := by
    rw [List.length_append, List.length_cons]
    omega
  have hlength : rest.length ≠ stem.length + (rest.length + 1) := by omega
  rw [suffixOf, hafter, hbefore]
  simp [hlength, or_comm]

theorem suffixOf_of_not_mem (h : '.' ∉ name) : suffixOf name = [] := by
  have hafter : (name.reverse.takeWhile (· ≠ '.')).reverse = name := by
    have hall := takeWhile_reverse h []
    rw [List.nil_append] at hall
    rw [hall]
    simp
  rw [suffixOf, hafter]
  simp

/-- A point in a name has a last place. -/
theorem exists_last_point (h : '.' ∈ name) : ∃ stem rest, name = stem ++ '.' :: rest ∧ '.' ∉ rest := by
  obtain ⟨before, after, hsplit, hbefore⟩ := List.eq_append_cons_of_mem (List.mem_reverse.mpr h)
  refine ⟨after.reverse, before.reverse, ?_, by simpa using hbefore⟩
  rw [← List.reverse_reverse name, hsplit]
  simp

/-! ## Written paths -/

theorem chars_of_parts (root : Root) {parts : List (List Char)} (h : parts ≠ []) :
    chars ⟨root, parts⟩ = Root.chars root ++ joinParts parts := by
  cases parts with
  | nil => exact absurd rfl h
  | cons part rest => cases root <;> rfl

theorem joinParts_concat (parts : List (List Char)) (name : List Char) :
    joinParts (parts ++ [name]) = joinParts parts ++ if parts = [] then name else '/' :: name := by
  induction parts with
  | nil => rfl
  | cons part rest ih =>
    cases rest with
    | nil => rfl
    | cons next more =>
      have hcons : ∀ others, joinParts (part :: next :: others) = part ++ '/' :: joinParts (next :: others) :=
        fun _ => rfl
      rw [List.cons_append, List.cons_append, hcons, ← List.cons_append, ih, hcons]
      simp

end Path

end FormatServer
