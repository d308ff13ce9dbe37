/-
Lines and columns of bytes.

The line of a byte counts the line feeds before it and its column the bytes behind the last of
these, whether a character begins at the byte or not.  `offsetFor` leads from them back to the byte
(`offsetFor_lineAt`); for any other numbers it gives some byte of the text or its end
(`offsetFor_le`), and the further on the later the place is (`offsetFor_mono`).

All of this goes by the lines of the text: a line that is passed over adds its
bytes, and in the line that is meant the column counts them.
-/
import Mathlib.Data.List.DropRight
import PermissionLint.FileContext
import PermissionLint.Proofs.Text.Separator
import PermissionLint.Proofs.Text.Utf8
import PermissionLint.Syntax.Reader

namespace PermissionLint.Source

open PermissionLint.Text PermissionLint.Syntax

/-- The byte that ends a line. -/
def lineFeed : UInt8 := 10

/-- The line of a byte, from one. -/
def lineAt (bytes : List UInt8) (offset : Nat) : Nat := 1 + (bytes.take offset).count lineFeed

/-- The column of a byte, from zero: the number of bytes between the last line feed before it, or the
front of the text, and the byte. -/
def columnAt (bytes : List UInt8) (offset : Nat) : Nat :=
  ((bytes.take offset).rtakeWhile (· != lineFeed)).length

/-! ## Lines as bytes -/

lemma byteLength_eq (text : List Char) : byteLength text = (Utf8.encode text).length :=
  (Utf8.length_encode text).symm

/-- Only a line feed is written with the byte of a line feed. -/
lemma lineFeed_not_mem_encode {line : List Char} (h : '\n' ∉ line) :
    lineFeed ∉ Utf8.encode line := by
  intro hmem
  obtain ⟨c, hc, hbyte⟩ := List.mem_flatMap.1 hmem
  rcases Utf8.utf8EncodeChar_ascii_or c with ⟨hascii, hbytes⟩ | ⟨-, hbytes⟩
  · rw [hbytes, List.mem_singleton] at hbyte
    have hcode : lineFeed.toNat = c.toNat := by
      rw [hbyte, UInt8.toNat_ofNat']
      omega
    refine h ?_
    rwa [show '\n' = c from Char.toNat_inj.1 hcode]
  · have := hbytes _ hbyte
    simp [lineFeed] at this

lemma encode_append_lineFeed (line rest : List Char) :
    Utf8.encode (line ++ '\n' :: rest) = Utf8.encode line ++ lineFeed :: Utf8.encode rest := by
  rw [Utf8.encode_append, Utf8.encode_cons]
  rfl

section

variable {line : List UInt8} (h : lineFeed ∉ line) (rest : List UInt8) {offset : Nat}

include h

/-- On the first line there is no line feed before a byte. -/
lemma place_of_le (hoffset : offset ≤ line.length) :
    lineAt (line ++ rest) offset = 1 ∧ columnAt (line ++ rest) offset = offset := by
  have htake : (line ++ rest).take offset = line.take offset := List.take_append_of_le_length hoffset
  have hline : ∀ b ∈ line.take offset, b ≠ lineFeed :=
    fun b hb => ne_of_mem_of_not_mem (List.mem_of_mem_take hb) h
  constructor
  · rw [lineAt, htake, List.count_eq_zero.2 fun hmem => hline _ hmem rfl]
  · rw [columnAt, htake, List.rtakeWhile_eq_self_iff.2 (by simpa using hline),
      List.length_take_of_le hoffset]

/-- The first line counts as one, and nothing of it counts for the columns behind it. -/
lemma place_add (offset : Nat) :
    lineAt (line ++ lineFeed :: rest) (line.length + 1 + offset) = 1 + lineAt rest offset ∧
      columnAt (line ++ lineFeed :: rest) (line.length + 1 + offset) = columnAt rest offset := by
  have htake : (line ++ lineFeed :: rest).take (line.length + 1 + offset)
      = line ++ lineFeed :: rest.take offset := by
    rw [Nat.add_assoc, List.take_length_add_append, Nat.add_comm 1, List.take_succ_cons]
  constructor
  · rw [lineAt, htake, List.count_append, List.count_eq_zero.2 h, List.count_cons_self, lineAt]
    omega
  · rw [columnAt, htake, columnAt, List.append_cons, List.rtakeWhile, List.reverse_append,
      List.takeWhile_append]
    split
    · next hall => simp [List.rtakeWhile, hall]
    · rfl

end

/-! ## From lines and columns to bytes -/

/-- In the line that is meant the column counts the bytes. -/
lemma columnOffset_of_le {line : List Char} (h : '\n' ∉ line) {column : Nat}
    (hcolumn : column ≤ byteLength line) (rest : List Char) :
    columnOffset column (line ++ rest) = column := by
  induction line generalizing column with
  | nil =>
    obtain rfl : column = 0 := Nat.le_zero.1 hcolumn
    cases rest with
    | nil => rfl
    | cons c cs => simp [columnOffset]
  | cons c line ih =>
    obtain ⟨hc, hline⟩ := not_or.1 (List.mem_cons.not.1 h)
    rw [byteLength_cons] at hcolumn
    rw [List.cons_append, columnOffset, beq_false_of_ne (Ne.symm hc), Bool.or_false]
    split
    · next hfirst => exact Nat.min_eq_left (of_decide_eq_true hfirst)
    · next hfirst =>
      rw [decide_eq_true_eq] at hfirst
      rw [ih hline (by omega)]
      omega

/-- A line that is passed over adds its bytes. -/
lemma lineOffset_of_line {line : List Char} (h : '\n' ∉ line) (skip column : Nat)
    (rest : List Char) :
    lineOffset (skip + 1) column (line ++ '\n' :: rest)
      = byteLength line + (1 + lineOffset skip column rest) := by
  induction line with
  | nil =>
    rw [List.nil_append, lineOffset, byteLength_nil, Nat.zero_add]
    rfl
  | cons c line ih =>
    rw [List.mem_cons, not_or] at h
    rw [List.cons_append, lineOffset, if_neg (by simpa using Ne.symm h.1), ih h.2, byteLength_cons,
      Nat.add_assoc]

/-- **The line and the column of a byte lead back to it.** -/
theorem offsetFor_lineAt (text : List Char) {offset : Nat}
    (h : offset ≤ (Utf8.encode text).length) :
    offsetFor text (lineAt (Utf8.encode text) offset) (columnAt (Utf8.encode text) offset)
      = offset := by
  induction text using separatedInduction '\n' generalizing offset with
  | last line hline =>
    have hplace := place_of_le (lineFeed_not_mem_encode hline) [] h
    rw [List.append_nil] at hplace
    rw [hplace.1, hplace.2, offsetFor, lineOffset]
    have := columnOffset_of_le hline (byteLength_eq line ▸ h) []
    rwa [List.append_nil] at this
  | next line rest hline ih =>
    have hbytes := lineFeed_not_mem_encode hline
    rw [encode_append_lineFeed] at h ⊢
    by_cases hoffset : offset ≤ (Utf8.encode line).length
    · obtain ⟨hlineAt, hcolumnAt⟩ := place_of_le hbytes (lineFeed :: Utf8.encode rest) hoffset
      rw [hlineAt, hcolumnAt, offsetFor, lineOffset]
      exact columnOffset_of_le hline (byteLength_eq line ▸ hoffset) _
    · obtain ⟨offset, rfl⟩ : ∃ offset', offset = (Utf8.encode line).length + 1 + offset' :=
        Nat.exists_eq_add_of_le (by omega)
      obtain ⟨hlineAt, hcolumnAt⟩ := place_add hbytes (Utf8.encode rest) offset
      have hbound : offset ≤ (Utf8.encode rest).length := by
        simp only [List.length_append, List.length_cons] at h
        omega
      have hrest := ih hbound
      rw [hlineAt, hcolumnAt]
      rw [lineAt, Nat.add_comm 1] at hrest
      rw [lineAt, Nat.add_comm 1, Nat.add_comm 1]
      rw [offsetFor] at hrest ⊢
      rw [lineOffset_of_line hline, hrest, byteLength_eq]
      omega

/-! ## The order of bytes -/

lemma columnOffset_le (column : Nat) (text : List Char) :
    columnOffset column text ≤ byteLength text := by
  induction text generalizing column with
  | nil => exact Nat.le_refl _
  | cons c text ih =>
    have hrest := ih (column - c.utf8Size)
    rw [columnOffset, byteLength_cons]
    split <;> omega

lemma columnOffset_mono {column column' : Nat} (h : column ≤ column') (text : List Char) :
    columnOffset column text ≤ columnOffset column' text := by
  induction text generalizing column column' with
  | nil => exact Nat.le_refl _
  | cons c text ih =>
    have hcolumns : column - c.utf8Size ≤ column' - c.utf8Size := by omega
    have hrest := ih hcolumns
    by_cases hc : c = '\n'
    · simp only [columnOffset, hc, beq_self_eq_true, Bool.or_true, if_true]
      omega
    · simp only [columnOffset, beq_false_of_ne hc, Bool.or_false, decide_eq_true_eq]
      split_ifs <;> omega

lemma lineOffset_le (skip column : Nat) (text : List Char) :
    lineOffset skip column text ≤ byteLength text := by
  induction text generalizing skip with
  | nil => cases skip <;> exact Nat.le_refl _
  | cons c text ih =>
    cases skip with
    | zero => exact columnOffset_le column _
    | succ skip =>
      rw [lineOffset, byteLength_cons]
      exact Nat.add_le_add_left (ih _) _

lemma lineOffset_mono {column column' : Nat} (h : column ≤ column') (skip : Nat)
    (text : List Char) : lineOffset skip column text ≤ lineOffset skip column' text := by
  induction text generalizing skip with
  | nil => cases skip <;> exact Nat.le_refl _
  | cons c text ih =>
    cases skip with
    | zero => exact columnOffset_mono h _
    | succ skip => exact Nat.add_le_add_left (ih _) _

/-- Whatever the columns are, a place on one line is not behind a place on the next. -/
lemma lineOffset_le_succ (skip column column' : Nat) (text : List Char) :
    lineOffset skip column text ≤ lineOffset (skip + 1) column' text := by
  induction text generalizing skip column with
  | nil => cases skip <;> exact Nat.le_refl _
  | cons c text ih =>
    cases skip with
    | zero =>
      have hrest := ih 0 (column - c.utf8Size)
      by_cases hc : c = '\n'
      · simp only [lineOffset, columnOffset, hc, beq_self_eq_true, Bool.or_true, if_true]
        omega
      · simp only [lineOffset, columnOffset, beq_false_of_ne hc, Bool.or_false, decide_eq_true_eq,
          Bool.false_eq_true, if_false] at hrest ⊢
        split <;> omega
    | succ skip =>
      simp only [lineOffset]
      refine Nat.add_le_add_left ?_ _
      split
      · exact ih skip column
      · exact ih (skip + 1) column

/-- Every place is in the text or at its end. -/
lemma offsetFor_le (text : List Char) (line column : Nat) :
    offsetFor text line column ≤ (Utf8.encode text).length := by
  cases line with
  | zero => exact Nat.zero_le _
  | succ skip =>
    rw [← byteLength_eq]
    exact lineOffset_le skip column text

/-- A later place is not before an earlier one, also if the text does not have them. -/
lemma offsetFor_mono (text : List Char) {line line' column column' : Nat}
    (h : line < line' ∨ line = line' ∧ column ≤ column') :
    offsetFor text line column ≤ offsetFor text line' column' := by
  rcases h with h | ⟨rfl, h⟩
  · -- one line after the other
    have hstep : ∀ line column column',
        offsetFor text line column ≤ offsetFor text (line + 1) column' := by
      intro line column column'
      cases line with
      | zero => exact Nat.zero_le _
      | succ skip => exact lineOffset_le_succ skip column column' text
    induction h generalizing column' with
    | refl => exact hstep line column column'
    | @step line' _ ih => exact (@ih 0).trans (hstep line' 0 column')
  · cases line with
    | zero => exact Nat.le_refl _
    | succ skip => exact lineOffset_mono h skip text

/-- **Lines and columns lead back to bytes**: to each byte from its own line and column, and from any
other numbers to a byte of the text or to its end, the further on the later the place is. -/
theorem offsetFor_inverts (text : List Char) :
    (∀ offset ≤ (Utf8.encode text).length,
        offsetFor text (lineAt (Utf8.encode text) offset) (columnAt (Utf8.encode text) offset)
          = offset) ∧
      (∀ line column, offsetFor text line column ≤ (Utf8.encode text).length) ∧
      ∀ line column line' column', line < line' ∨ line = line' ∧ column ≤ column' →
        offsetFor text line column ≤ offsetFor text line' column' :=
  ⟨fun _ h => offsetFor_lineAt text h, offsetFor_le text, fun _ _ _ _ h => offsetFor_mono text h⟩

/-- The second byte of a character on the second line, and a place far behind the end. -/
theorem offsetFor_inverts_return :
    let text := "é\r\né".toList
    5 ≤ (Utf8.encode text).length ∧ lineAt (Utf8.encode text) 5 = 2 ∧
      columnAt (Utf8.encode text) 5 = 1 ∧ offsetFor text 2 1 = 5 ∧
      offsetFor text 9 9 ≤ (Utf8.encode text).length ∧
      (2 < 9 ∨ 2 = 9 ∧ 7 ≤ 0) ∧ offsetFor text 2 7 ≤ offsetFor text 9 0 := by
  intro text
  obtain ⟨hback, hle, hmono⟩ := offsetFor_inverts text
  have hoffset : 5 ≤ (Utf8.encode text).length := by decide
  have hline : lineAt (Utf8.encode text) 5 = 2 := by decide
  have hcolumn : columnAt (Utf8.encode text) 5 = 1 := by decide
  have hplace := hback 5 hoffset
  rw [hline, hcolumn] at hplace
  exact ⟨hoffset, hline, hcolumn, hplace, hle 9 9, .inl (by decide),
    hmono 2 7 9 0 (.inl (by decide))⟩

end PermissionLint.Source
