/-
Bytes, characters, lines and columns of one text.

A byte at which a character begins has a line and a column, and these lead back to the byte
(`offsetFor_ofOffset`) and come in the order of the bytes (`ofOffset_lt_ofOffset`).  What a text
says from there on are the bytes that follow (`StandsAt.bytes_eq`).
-/
import PermissionLint.Proofs.Source.Offset
import PermissionLint.Source.Position

namespace PermissionLint.Source

open PermissionLint.Text PermissionLint.Syntax

/-- The word stands in the text, beginning at a byte.  For the empty word this says that a character
begins there, or that the text ends. -/
def StandsAt (text word : List Char) (offset : Nat) : Prop :=
  ∃ before behind, text = before ++ (word ++ behind) ∧ byteLength before = offset

/-- The bytes of the text from one on. -/
def bytesAt (text : List Char) (offset length : Nat) : List UInt8 :=
  ((Utf8.encode text).drop offset).take length

/-! ## Words -/

variable {text word : List Char} {offset : Nat}

/-- A word that stands somewhere is there in bytes. -/
lemma StandsAt.bytes_eq (h : StandsAt text word offset) :
    bytesAt text offset (byteLength word) = Utf8.encode word := by
  obtain ⟨before, behind, rfl, rfl⟩ := h
  rw [bytesAt, Utf8.encode_append, Utf8.encode_append, byteLength_eq, byteLength_eq,
    List.drop_left, List.take_left]

/-- What is cut out from the front of a text is there. -/
lemma slice_zero_isPrefix (cs : List Char) (stop : Nat) : slice cs 0 stop <+: cs := by
  induction cs generalizing stop with
  | nil => exact List.nil_prefix
  | cons c cs ih =>
    rw [slice]
    split
    · exact List.nil_prefix
    · exact List.cons_prefix_cons.2 ⟨rfl, ih _⟩

lemma slice_append_isPrefix (before rest : List Char) (stop : Nat) :
    slice (before ++ rest) (byteLength before) stop <+: rest := by
  induction before generalizing stop with
  | nil => exact slice_zero_isPrefix rest stop
  | cons c before ih =>
    have hsize : 0 < c.utf8Size := c.utf8Size_pos
    rw [List.cons_append, slice, byteLength_cons]
    split
    · exact List.nil_prefix
    · rw [if_neg (by simp only [beq_iff_eq]; omega), Nat.add_sub_cancel_left]
      exact ih _

/-- What is cut out of a text, from where a character begins, stands there. -/
lemma StandsAt.slice (h : StandsAt text [] offset) (stop : Nat) :
    StandsAt text (slice text offset stop) offset := by
  obtain ⟨before, behind, rfl, rfl⟩ := h
  obtain ⟨rest, hrest⟩ := slice_append_isPrefix before behind stop
  exact ⟨before, rest, by rw [List.nil_append, hrest], rfl⟩

/-- Some bytes of the text have some text. -/
lemma StandsAt.slice_ne_nil (h : StandsAt text [] offset) {stop : Nat} (hstop : offset < stop)
    (hlength : stop ≤ byteLength text) : Source.slice text offset stop ≠ [] := by
  obtain ⟨before, behind, rfl, rfl⟩ := h
  rw [List.nil_append] at hlength ⊢
  induction before generalizing stop with
  | nil =>
    cases behind with
    | nil =>
      rw [List.nil_append, byteLength_nil] at hlength
      omega
    | cons c cs =>
      rw [byteLength_nil] at hstop
      rw [List.nil_append, Source.slice, if_neg (by simp only [beq_iff_eq]; omega), byteLength_nil,
        if_pos (by simp)]
      exact List.cons_ne_nil _ _
  | cons c before ih =>
    have hsize : 0 < c.utf8Size := c.utf8Size_pos
    rw [byteLength_cons] at hstop
    rw [List.cons_append, byteLength_cons] at hlength
    rw [List.cons_append, Source.slice, if_neg (by simp only [beq_iff_eq]; omega), byteLength_cons,
      if_neg (by simp only [beq_iff_eq]; omega), Nat.add_sub_cancel_left]
    exact ih (by omega) (by omega)

/-! ## Lines and columns -/

/-- The place behind some text. -/
lemma ofOffsetFrom_append (p : Position) (before rest : List Char) :
    Position.ofOffsetFrom p (byteLength before) (before ++ rest)
      = before.foldl Position.after p := by
  induction before generalizing p with
  | nil =>
    cases rest with
    | nil => rfl
    | cons c cs =>
      rw [List.nil_append, Position.ofOffsetFrom, byteLength_nil, if_pos c.utf8Size_pos]
      rfl
  | cons c before ih =>
    rw [List.cons_append, Position.ofOffsetFrom, byteLength_cons, if_neg (by omega),
      Nat.add_sub_cancel_left, ih]
    rfl

/-- On one line the column counts the bytes. -/
lemma foldl_after_of_line {line : List Char} (h : '\n' ∉ line) (p : Position) :
    line.foldl Position.after p = ⟨p.line, p.column + byteLength line⟩ := by
  induction line generalizing p with
  | nil => rfl
  | cons c line ih =>
    rw [List.mem_cons, not_or] at h
    rw [List.foldl_cons, ih h.2, Position.after, if_neg (by simpa using Ne.symm h.1),
      byteLength_cons, Nat.add_assoc]

/-- The place behind some text, whatever the number of its first line is. -/
lemma foldl_after_eq (before : List Char) (first : Nat) :
    before.foldl Position.after ⟨first + 1, 0⟩
      = ⟨first + lineAt (Utf8.encode before) (Utf8.encode before).length,
          columnAt (Utf8.encode before) (Utf8.encode before).length⟩ := by
  induction before using separatedInduction '\n' generalizing first with
  | last line hline =>
    have hplace := place_of_le (lineFeed_not_mem_encode hline) [] (Nat.le_refl _)
    rw [List.append_nil] at hplace
    rw [foldl_after_of_line hline, hplace.1, hplace.2, Nat.zero_add, byteLength_eq]
  | next line rest hline ih =>
    have hbytes := lineFeed_not_mem_encode hline
    obtain ⟨hlineAt, hcolumnAt⟩ :=
      place_add hbytes (Utf8.encode rest) (Utf8.encode rest).length
    have hlength : (Utf8.encode (line ++ '\n' :: rest)).length
        = (Utf8.encode line).length + 1 + (Utf8.encode rest).length := by
      rw [encode_append_lineFeed, List.length_append, List.length_cons]
      omega
    rw [hlength, encode_append_lineFeed, hlineAt, hcolumnAt, List.foldl_append,
      foldl_after_of_line hline, List.foldl_cons]
    change rest.foldl Position.after ⟨first + 1 + 1, 0⟩ = _
    rw [ih (first + 1), Nat.add_assoc]

/-- The place of a byte at which a character begins is its line and its column. -/
lemma ofOffset_eq (h : StandsAt text [] offset) :
    Position.ofOffset text offset
      = ⟨lineAt (Utf8.encode text) offset, columnAt (Utf8.encode text) offset⟩ := by
  obtain ⟨before, behind, rfl, rfl⟩ := h
  have htake : (Utf8.encode (before ++ behind)).take (byteLength before)
      = (Utf8.encode before).take (Utf8.encode before).length := by
    rw [byteLength_eq, Utf8.encode_append, List.take_left, List.take_length]
  rw [List.nil_append, Position.ofOffset, ofOffsetFrom_append, foldl_after_eq before 0,
    Nat.zero_add, lineAt, columnAt, ← htake]
  rfl

/-- **The line and the column of a byte at which a character begins lead back to the byte.** -/
theorem offsetFor_ofOffset (h : StandsAt text [] offset) :
    offsetFor text (Position.ofOffset text offset).line (Position.ofOffset text offset).column
      = offset := by
  have hlength : offset ≤ (Utf8.encode text).length := by
    obtain ⟨before, behind, rfl, rfl⟩ := h
    rw [← byteLength_eq, byteLength_append]
    exact Nat.le_add_right _ _
  rw [ofOffset_eq h]
  exact offsetFor_lineAt text hlength

/-! ## The order of places -/

lemma Position.lt_iff {p q : Position} :
    p.lt q = true ↔ p.line < q.line ∨ p.line = q.line ∧ p.column < q.column := by
  simp [Position.lt]

lemma Position.lt_trans {p q r : Position} (h : p.lt q = true) (h' : q.lt r = true) :
    p.lt r = true := by
  rw [lt_iff] at *
  omega

lemma Position.lt_after (p : Position) (c : Char) : p.lt (p.after c) = true := by
  have hsize : 0 < c.utf8Size := c.utf8Size_pos
  rw [lt_iff, after]
  split
  · exact .inl (Nat.lt_succ_self _)
  · exact .inr ⟨rfl, Nat.lt_add_of_pos_right hsize⟩

/-- Some text further on the place is a later one. -/
lemma lt_foldl_after (p : Position) {between : List Char} (h : between ≠ []) :
    p.lt (between.foldl Position.after p) = true := by
  induction between generalizing p with
  | nil => exact absurd rfl h
  | cons c cs ih =>
    rw [List.foldl_cons]
    by_cases hcs : cs = []
    · rw [hcs]
      exact p.lt_after c
    · exact Position.lt_trans (p.lt_after c) (ih _ hcs)

/-- **Lines and columns come in the order of the bytes.** -/
theorem ofOffset_lt_ofOffset {offset' : Nat} (h : StandsAt text [] offset)
    (h' : StandsAt text [] offset') (hlt : offset < offset') :
    (Position.ofOffset text offset).lt (Position.ofOffset text offset') = true := by
  obtain ⟨before, behind, htext, rfl⟩ := h
  obtain ⟨before', behind', rfl, rfl⟩ := h'
  rw [List.nil_append, List.nil_append] at htext
  -- one of the two beginnings of the text is the beginning of the other one
  rcases List.append_eq_append_iff.1 htext with ⟨between, rfl, -⟩ | ⟨between, rfl, rfl⟩
  · rw [byteLength_append] at hlt
    omega
  · have hne : between ≠ [] := by
      rintro rfl
      rw [List.append_nil] at hlt
      exact Nat.lt_irrefl _ hlt
    rw [List.nil_append, Position.ofOffset, Position.ofOffset, ofOffsetFrom_append,
      List.append_assoc, ofOffsetFrom_append, List.foldl_append]
    exact lt_foldl_after _ hne

end PermissionLint.Source
