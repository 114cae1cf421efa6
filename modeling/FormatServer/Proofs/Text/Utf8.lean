import FormatServer.Text.Utf8

/-!
UTF-8 read back. Strict reading of a written text gives the text (`decode_encode`). Lossy reading can be
done line by line: a line feed ends every piece that stands before it, so the text of a stream of bytes is
the text of its lines, one after another (`decodeLossy_append_lineFeed`), wherever the stream is cut.
-/

namespace FormatServer.Text.Utf8

theorem pieces_cons (b : UInt8) (rest : List UInt8) :
    pieces (b :: rest) =
      firstPiece b rest :: pieces (rest.drop ((firstPiece b rest).length - 1)) := by
  rw [pieces]

/-! ## Writing and reading -/

theorem continuation_zero (bits seen low high : Nat) (rest : List UInt8) :
    continuation 0 bits seen low high rest = .char (Char.ofNat bits) seen := by
  cases rest <;> simp [continuation]

theorem continuation_succ (more bits seen low high : Nat) (b : UInt8) (rest : List UInt8)
    (h : low ≤ b.toNat ∧ b.toNat ≤ high) :
    continuation (more + 1) bits seen low high (b :: rest) =
      continuation more (bits * 64 + (b.toNat - 0x80)) (seen + 1) 0x80 0xBF rest := by
  simp [continuation, h]

private theorem toNat_ofNat_lt (n : Nat) (h : n < 256) : (UInt8.ofNat n).toNat = n := by
  simp [Nat.mod_eq_of_lt h]

/-- The numbers of characters leave a gap for the surrogates. -/
private theorem toNat_bounds (c : Char) :
    c.toNat < 0xD800 ∨ 0xDFFF < c.toNat ∧ c.toNat < 0x110000 := c.valid

/-- The bounds that a first byte sets on the second hold for the second byte of a character of three
bytes, and the first byte keeps the highest bits. -/
private theorem lead_three (v : Nat) (hlow : 0x7FF < v) (hhigh : v ≤ 0xFFFF)
    (hv : v < 0xD800 ∨ 0xDFFF < v) :
    ∃ low high, Lead.ofByte? (v / 4096 % 16 + 0xE0) = some ⟨2, v / 4096, low, high⟩ ∧
      low ≤ v / 64 % 64 + 0x80 ∧ v / 64 % 64 + 0x80 ≤ high := by
  have hlead : ¬ (0xC2 ≤ v / 4096 % 16 + 0xE0 ∧ v / 4096 % 16 + 0xE0 ≤ 0xDF) := by omega
  rw [Lead.ofByte?, if_neg hlead]
  split
  · exact ⟨0xA0, 0xBF, by simp; omega, by omega, by omega⟩
  · split
    · exact ⟨0x80, 0x9F, by simp; omega, by omega, by omega⟩
    · rw [if_pos (by omega)]
      exact ⟨0x80, 0xBF, by simp; omega, by omega, by omega⟩

private theorem lead_four (v : Nat) (hlow : 0xFFFF < v) (hhigh : v < 0x110000) :
    ∃ low high, Lead.ofByte? (v / 262144 % 8 + 0xF0) = some ⟨3, v / 262144, low, high⟩ ∧
      low ≤ v / 4096 % 64 + 0x80 ∧ v / 4096 % 64 + 0x80 ≤ high := by
  rw [Lead.ofByte?, if_neg (by omega), if_neg (by omega), if_neg (by omega), if_neg (by omega)]
  split
  · exact ⟨0x90, 0xBF, by simp; omega, by omega, by omega⟩
  · split
    · exact ⟨0x80, 0x8F, by simp; omega, by omega, by omega⟩
    · rw [if_pos (by omega)]
      exact ⟨0x80, 0xBF, by simp; omega, by omega, by omega⟩

/-- The first piece of a text that starts with a written character is that character. -/
theorem firstPiece_encodeChar (c : Char) (rest : List UInt8) :
    ∃ b bs, String.utf8EncodeChar c = b :: bs ∧
      firstPiece b (bs ++ rest) = .char c (bs.length + 1) := by
  have hc := toNat_bounds c
  have hback : Char.ofNat c.toNat = c := Char.ofNat_toNat c
  unfold String.utf8EncodeChar
  rw [show c.val.toNat = c.toNat from rfl]
  generalize c.toNat = v at hc hback
  dsimp only
  split
  · refine ⟨_, _, rfl, ?_⟩
    rw [firstPiece, toNat_ofNat_lt v (by omega), if_pos (by omega), hback]
    rfl
  split
  · refine ⟨_, _, rfl, ?_⟩
    have hlead : Lead.ofByte? (v / 64 % 32 + 0xC0) = some ⟨1, v / 64, 0x80, 0xBF⟩ := by
      rw [Lead.ofByte?, if_pos (by omega)]
      simp; omega
    rw [firstPiece, toNat_ofNat_lt _ (by omega), if_neg (by omega), hlead]
    dsimp only [List.cons_append, List.nil_append]
    rw [continuation_succ _ _ _ _ _ _ _ (by rw [toNat_ofNat_lt _ (by omega)]; omega),
      continuation_zero, toNat_ofNat_lt _ (by omega),
      show v / 64 * 64 + (v % 64 + 128 - 128) = v by omega, hback]
    rfl
  split
  · refine ⟨_, _, rfl, ?_⟩
    obtain ⟨low, high, hlead, hlow, hhigh⟩ := lead_three v (by omega) (by omega) (by omega)
    rw [firstPiece, toNat_ofNat_lt _ (by omega), if_neg (by omega), hlead]
    dsimp only [List.cons_append, List.nil_append]
    rw [continuation_succ _ _ _ _ _ _ _ (by rw [toNat_ofNat_lt _ (by omega)]; omega),
      continuation_succ _ _ _ _ _ _ _ (by rw [toNat_ofNat_lt _ (by omega)]; omega),
      continuation_zero, toNat_ofNat_lt _ (by omega), toNat_ofNat_lt _ (by omega),
      show (v / 4096 * 64 + (v / 64 % 64 + 128 - 128)) * 64 + (v % 64 + 128 - 128) = v by omega,
      hback]
    rfl
  · refine ⟨_, _, rfl, ?_⟩
    obtain ⟨low, high, hlead, hlow, hhigh⟩ := lead_four v (by omega) (by omega)
    rw [firstPiece, toNat_ofNat_lt _ (by omega), if_neg (by omega), hlead]
    dsimp only [List.cons_append, List.nil_append]
    rw [continuation_succ _ _ _ _ _ _ _ (by rw [toNat_ofNat_lt _ (by omega)]; omega),
      continuation_succ _ _ _ _ _ _ _ (by rw [toNat_ofNat_lt _ (by omega)]; omega),
      continuation_succ _ _ _ _ _ _ _ (by rw [toNat_ofNat_lt _ (by omega)]; omega),
      continuation_zero, toNat_ofNat_lt _ (by omega), toNat_ofNat_lt _ (by omega),
      toNat_ofNat_lt _ (by omega),
      show ((v / 262144 * 64 + (v / 4096 % 64 + 128 - 128)) * 64 + (v / 64 % 64 + 128 - 128)) * 64 +
        (v % 64 + 128 - 128) = v by omega, hback]
    rfl

/-- The pieces of a written text are its characters. -/
theorem pieces_encode_append (cs : List Char) (rest : List UInt8) :
    pieces (encode cs ++ rest) =
      cs.map (fun c => .char c c.utf8Size) ++ pieces rest := by
  induction cs with
  | nil => rfl
  | cons c cs ih =>
    obtain ⟨b, bs, hbytes, hpiece⟩ := firstPiece_encodeChar c (encode cs ++ rest)
    have hsize : bs.length + 1 = c.utf8Size := by
      rw [← String.length_utf8EncodeChar, hbytes, List.length_cons]
    rw [show encode (c :: cs) = String.utf8EncodeChar c ++ encode cs from rfl, hbytes,
      List.append_assoc, List.cons_append, pieces_cons, hpiece]
    simp [Piece.length, ih, ← hsize]

private theorem decodeFrom_encode (cs : List Char) (position : Nat) :
    decodeFrom position (encode cs) (cs.map fun c => .char c c.utf8Size) = .ok cs := by
  induction cs generalizing position with
  | nil => rfl
  | cons c cs ih =>
    have hdrop : (encode (c :: cs)).drop c.utf8Size = encode cs := by
      simp [encode, ← String.length_utf8EncodeChar]
    simp only [List.map_cons, decodeFrom, hdrop, ih]
    rfl

/-- **Reading back what was written gives the text.** -/
theorem decode_encode (cs : List Char) : decode (encode cs) = .ok cs := by
  have hpieces := pieces_encode_append cs []
  simp only [List.append_nil, show pieces [] = [] by rw [pieces]] at hpieces
  rw [decode, hpieces, decodeFrom_encode]

/-! ## Reading line by line -/

/-- A line feed continues no character, so it ends the piece before it. -/
private theorem continuation_append_lineFeed (more bits seen low high : Nat) (hlow : 0x0A < low)
    (bs rest : List UInt8) :
    continuation more bits seen low high (bs ++ 0x0A :: rest) =
        continuation more bits seen low high (bs ++ [0x0A]) ∧
      (continuation more bits seen low high (bs ++ [0x0A])).length ≤ seen + bs.length := by
  induction bs generalizing more bits seen low high with
  | nil =>
    have hfeed : ¬ (low ≤ (0x0A : UInt8).toNat ∧ (0x0A : UInt8).toNat ≤ high) := by
      simp; omega
    simp only [List.nil_append, continuation, hfeed, if_false]
    split <;> simp [Piece.length]
  | cons b bs ih =>
    have hnext := ih (more - 1) (bits * 64 + (b.toNat - 0x80)) (seen + 1) 0x80 0xBF (by omega)
    simp only [List.cons_append, continuation, List.length_cons]
    split
    · exact ⟨rfl, by simp [Piece.length]⟩
    split
    · exact ⟨hnext.1, by omega⟩
    · exact ⟨rfl, by simp [Piece.length]⟩

private theorem lead_low (b : Nat) (lead : Lead) (h : Lead.ofByte? b = some lead) :
    0x0A < lead.low := by
  unfold Lead.ofByte? at h
  repeat' split at h
  all_goals simp only [Option.some.injEq, reduceCtorEq] at h
  all_goals simp [← h]

private theorem firstPiece_append_lineFeed (b : UInt8) (bs rest : List UInt8) :
    firstPiece b (bs ++ 0x0A :: rest) = firstPiece b (bs ++ [0x0A]) ∧
      (firstPiece b (bs ++ [0x0A])).length - 1 ≤ bs.length := by
  unfold firstPiece
  split
  · exact ⟨rfl, by simp [Piece.length]⟩
  · cases hlead : Lead.ofByte? b.toNat with
    | none => exact ⟨rfl, by simp [Piece.length]⟩
    | some lead =>
      have h := continuation_append_lineFeed lead.more lead.bits 1 lead.low lead.high
        (lead_low _ _ hlead) bs rest
      exact ⟨h.1, by dsimp only; omega⟩

theorem pieces_append_lineFeed (bs rest : List UInt8) :
    pieces (bs ++ 0x0A :: rest) = pieces (bs ++ [0x0A]) ++ pieces rest := by
  have hfeed : ∀ after, pieces (0x0A :: after) = .char '\n' 1 :: pieces after := by
    intro after
    rw [pieces_cons]
    rfl
  -- A piece may take several bytes, so the induction is on the count of bytes.
  induction hn : bs.length using Nat.strongRecOn generalizing bs with
  | _ n ih =>
    cases bs with
    | nil =>
      rw [List.nil_append, List.nil_append, hfeed, hfeed, show pieces [] = [] by rw [pieces]]
      rfl
    | cons b bs =>
      obtain ⟨hpiece, hlength⟩ := firstPiece_append_lineFeed b bs rest
      rw [List.cons_append, List.cons_append, pieces_cons, pieces_cons, hpiece,
        List.drop_append_of_le_length hlength, List.drop_append_of_le_length hlength,
        ih _ (by simp at hn ⊢; omega) (bs.drop _) rfl, List.cons_append]

/-- **What is read up to a line feed does not depend on what comes after it.** -/
theorem decodeLossy_append_lineFeed (bs rest : List UInt8) :
    decodeLossy (bs ++ 0x0A :: rest) = decodeLossy (bs ++ [0x0A]) ++ decodeLossy rest := by
  rw [decodeLossy, pieces_append_lineFeed, List.map_append]
  rfl

end FormatServer.Text.Utf8
