/-
The lines of a text.

Lines end at line feeds.  A text that ends with one has no further, empty line after it.
-/

namespace PermissionLint.Text

/-- The lines of a text, each with its line feed if it has one. -/
def linesInclusive : List Char → List (List Char)
  | [] => []
  | c :: cs =>
    if c == '\n' then [c] :: linesInclusive cs
    else
      match linesInclusive cs with
      | [] => [[c]]
      | line :: lines => (c :: line) :: lines

/-- A line without its line feed, and without a carriage return before that. -/
def chomp (line : List Char) : List Char :=
  match line.reverse with
  | '\n' :: '\r' :: rest => rest.reverse
  | '\n' :: rest => rest.reverse
  | _ => line

/-- The lines of a text without their ends. -/
def lines (text : List Char) : List (List Char) := (linesInclusive text).map chomp

/-- The lines of a text are all of it. -/
theorem flatten_linesInclusive (text : List Char) : (linesInclusive text).flatten = text := by
  induction text with
  | nil => rfl
  | cons c cs ih =>
    simp only [linesInclusive]
    split
    · simp [ih]
    · split
      · next h => rw [h] at ih; simp_all
      · next h => rw [h] at ih; simp_all

end PermissionLint.Text
