import Mathlib.Data.List.TakeWhile
import FormatServer.Formatter.LineReader
import FormatServer.Proofs.Text.Utf8

/-!
What a reader of lines has read, said of the whole stream of bytes and not of its chunks. While the
stream's lines are within the limit, a reader stands where its bytes leave it (`feed_standing`); the chunk
with which they are so no longer is an overrun (`feed_standing_overrun`). The texts of the lines make up
the text of the stream (`flatMap_decodeLossy_streamLines`).
-/

namespace FormatServer

/-! ## Cutting -/

/-- Cutting after more bytes goes on from the rest of the bytes before. -/
theorem cutBytes_append (a b : List UInt8) :
    cutBytes (a ++ b) =
      ((cutBytes a).1 ++ (cutBytes ((cutBytes a).2 ++ b)).1, (cutBytes ((cutBytes a).2 ++ b)).2) := by
  induction a with
  | nil => rfl
  | cons x rest ih =>
    rw [List.cons_append, cutBytes, ih, cutBytes]
    rcases cutBytes rest with ⟨_ | ⟨line, more⟩, tail⟩
    · by_cases hx : x = 0x0A <;> simp [hx, cutBytes]
    · by_cases hx : x = 0x0A <;> simp [hx]

/-- A line is cut after its line feed. -/
theorem lineFeed_of_mem_cutBytes (bytes line : List UInt8) (h : line ∈ (cutBytes bytes).1) :
    ∃ body, line = body ++ [0x0A] := by
  induction bytes generalizing line with
  | nil => simp [cutBytes] at h
  | cons b rest ih =>
    rw [cutBytes] at h
    by_cases hb : b = 0x0A
    · simp only [hb, if_true, List.mem_cons] at h
      rcases h with rfl | h
      · exact ⟨[], rfl⟩
      · exact ih line h
    · simp only [hb, if_false] at h
      cases hlines : (cutBytes rest).1 with
      | nil => simp [hlines] at h
      | cons first more =>
        simp only [hlines, List.mem_cons] at h ih
        rcases h with rfl | h
        · obtain ⟨body, hbody⟩ := ih first (Or.inl rfl)
          exact ⟨b :: body, by simp [hbody]⟩
        · exact ih line (Or.inr h)

/-- What is left after the last line feed holds none. -/
theorem lineFeed_not_mem_rest (bytes : List UInt8) : (0x0A : UInt8) ∉ (cutBytes bytes).2 := by
  induction bytes with
  | nil => simp [cutBytes]
  | cons b rest ih =>
    rw [cutBytes]
    by_cases hb : b = 0x0A
    · simpa [hb] using ih
    · simp only [hb, if_false]
      split
      · simpa [Ne.symm hb] using ih
      · exact ih

/-- Bytes without a line feed only lengthen what comes first after them. -/
theorem cutBytes_append_of_not_mem (a b : List UInt8) (h : (0x0A : UInt8) ∉ a) :
    cutBytes (a ++ b) = match (cutBytes b).1 with
      | [] => ([], a ++ (cutBytes b).2)
      | line :: more => ((a ++ line) :: more, (cutBytes b).2) := by
  induction a with
  | nil => rcases hb : cutBytes b with ⟨_ | ⟨line, more⟩, rest⟩ <;> simp [hb]
  | cons x a ih =>
    simp only [List.mem_cons, not_or] at h
    rw [List.cons_append, cutBytes, ih h.2]
    cases (cutBytes b).1 <;> simp [Ne.symm h.1]

/-! ## The limit -/

/-- Every line of a stream is within the limit, the last one too that has no line feed yet. -/
def withinLimit (bytes : List UInt8) : Bool :=
  (cutBytes bytes).1.all LineReader.fits && decide ((cutBytes bytes).2.length ≤ lineLimit)

theorem withinLimit_eq_true (bytes : List UInt8) : withinLimit bytes = true ↔
    (∀ line ∈ (cutBytes bytes).1, LineReader.fits line = true) ∧
      (cutBytes bytes).2.length ≤ lineLimit := by
  simp [withinLimit]

/-- A line that is too long stays too long, whatever comes after it. -/
theorem withinLimit_of_append (a b : List UInt8) (h : withinLimit (a ++ b) = true) :
    withinLimit a = true := by
  rw [withinLimit_eq_true, cutBytes_append] at h
  rw [withinLimit_eq_true]
  obtain ⟨hlines, hrest⟩ := h
  refine ⟨fun line hline => hlines line (List.mem_append_left _ hline), ?_⟩
  rw [cutBytes_append_of_not_mem _ _ (lineFeed_not_mem_rest a)] at hlines hrest
  cases hb : (cutBytes b).1 with
  | nil =>
    simp only [hb, List.length_append] at hrest
    omega
  | cons line more =>
    obtain ⟨body, hbody⟩ := lineFeed_of_mem_cutBytes b line (by simp [hb])
    have hfits := hlines ((cutBytes a).2 ++ line) (by simp [hb])
    simp only [hbody, LineReader.fits, List.length_append, List.length_singleton,
      decide_eq_true_eq] at hfits
    omega

/-! ## The reader -/

namespace LineReader

/-- Where a stream leaves its reader: before the bytes after the last line feed. -/
def standing (bytes : List UInt8) : LineReader := ⟨(cutBytes bytes).2, false⟩

private theorem takeWhile_fits (lines : List (List UInt8))
    (h : ∀ line ∈ lines, fits line = true) : lines.takeWhile fits = lines :=
  List.takeWhile_eq_self_iff.mpr h

/-- **While all lines are within the limit, nothing of a chunk is lost.** -/
theorem feed_standing (bytes chunk : List UInt8) (h : withinLimit (bytes ++ chunk) = true) :
    (standing bytes).feed chunk =
      ⟨standing (bytes ++ chunk), (cutBytes ((cutBytes bytes).2 ++ chunk)).1, none⟩ := by
  rw [withinLimit_eq_true, cutBytes_append] at h
  have hall := takeWhile_fits _ fun line hline => h.1 line (List.mem_append_right _ hline)
  have hrest : ¬ lineLimit < (cutBytes ((cutBytes bytes).2 ++ chunk)).2.length :=
    Nat.not_lt.mpr h.2
  simp [feed, standing, hall, hrest, cutBytes_append bytes chunk]

def overrunOf (bytes : List UInt8) : Overrun :=
  if (cutBytes bytes).1.all fits then .unterminated else .terminated

/-- **The chunk with which a line gets too long is an overrun.** -/
theorem feed_standing_overrun (bytes chunk : List UInt8) (hbefore : withinLimit bytes = true)
    (h : withinLimit (bytes ++ chunk) = false) :
    ((standing bytes).feed chunk).overrun = some (overrunOf (bytes ++ chunk)) := by
  have hbytes := (withinLimit_eq_true bytes).mp hbefore
  have hlines : (cutBytes (bytes ++ chunk)).1.all fits =
      (cutBytes ((cutBytes bytes).2 ++ chunk)).1.all fits := by
    rw [cutBytes_append, List.all_append, List.all_eq_true.mpr hbytes.1, Bool.true_and]
  rw [withinLimit, hlines, show (cutBytes (bytes ++ chunk)).2 =
    (cutBytes ((cutBytes bytes).2 ++ chunk)).2 by rw [cutBytes_append]] at h
  rw [overrunOf, hlines]
  unfold feed standing
  rw [if_neg (by simp)]
  dsimp only
  generalize cutBytes ((cutBytes bytes).2 ++ chunk) = cut at h ⊢
  by_cases hall : cut.1.all fits
  · have hwhile := takeWhile_fits cut.1 (List.all_eq_true.mp hall)
    have hrest : lineLimit < cut.2.length := by simpa [hall] using h
    simp [hwhile, hall, hrest]
  · have hsub : (cut.1.takeWhile fits).Sublist cut.1 := List.takeWhile_sublist fits
    have hwhile : (cut.1.takeWhile fits).length < cut.1.length := by
      apply Nat.lt_of_le_of_ne hsub.length_le
      intro heq
      exact hall (List.all_eq_true.mpr (List.takeWhile_eq_self_iff.mp (hsub.eq_of_length heq)))
    simp [hwhile, hall]

end LineReader

/-! ## The lines of a stream -/

/-- The lines of a stream that has ended: those with a line feed, and the rest if there is any. -/
def streamLines (bytes : List UInt8) : List (List UInt8) :=
  (cutBytes bytes).1 ++ if (cutBytes bytes).2.isEmpty then [] else [(cutBytes bytes).2]

theorem finish_standing (bytes : List UInt8) :
    ((LineReader.standing bytes).finish).2 =
      if (cutBytes bytes).2.isEmpty then [] else [(cutBytes bytes).2] := by
  unfold LineReader.finish LineReader.standing
  split <;> simp_all

open Text.Utf8 in
private theorem decodeLossy_flatten (lines : List (List UInt8)) (rest : List UInt8)
    (h : ∀ line ∈ lines, ∃ body, line = body ++ [0x0A]) :
    decodeLossy (lines.flatten ++ rest) = lines.flatMap decodeLossy ++ decodeLossy rest := by
  induction lines with
  | nil => rfl
  | cons line lines ih =>
    obtain ⟨body, rfl⟩ := h line (by simp)
    rw [List.flatten_cons, List.append_assoc, List.append_assoc, List.singleton_append,
      decodeLossy_append_lineFeed, ih fun line hline => h line (List.mem_cons_of_mem _ hline),
      List.flatMap_cons, List.append_assoc]

/-- **The texts of the lines of a stream make up the text of the stream.** -/
theorem flatMap_decodeLossy_streamLines (bytes : List UInt8) :
    (streamLines bytes).flatMap Text.Utf8.decodeLossy = Text.Utf8.decodeLossy bytes := by
  have hcut := decodeLossy_flatten (cutBytes bytes).1 (cutBytes bytes).2
    (lineFeed_of_mem_cutBytes bytes)
  rw [flatten_cutBytes] at hcut
  rw [hcut, streamLines, List.flatMap_append]
  split
  · next hrest => simp [List.isEmpty_iff.mp hrest, Text.Utf8.decodeLossy, Text.Utf8.pieces]
  · simp

end FormatServer
