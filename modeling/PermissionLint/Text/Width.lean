/-
How many columns a text takes on a screen.

A tab reaches to the next stop, an escape sequence up to its `m` takes no column, and neither do
control characters.
-/
import PermissionLint.Text.WidthRanges

namespace PermissionLint.Text.Width

/-- `n` lies in one of the closed ranges. -/
def inRanges (ranges : List (List (Nat × Nat))) (n : Nat) : Bool :=
  ranges.any fun part => part.any fun r => r.1 ≤ n && n ≤ r.2

/-- The number of columns of a character. -/
def ofChar (c : Char) : Nat :=
  let n := c.toNat
  if n < 0x20 || (0x7F ≤ n && n < 0xA0) then 0
  else if n < 0x7F then 1
  else if inRanges zeroRanges n then 0
  else if inRanges wideRanges n then 2
  else 1

/-- The distance between tab stops. -/
def tabWidth : Nat := 4

/-- The number of columns of each character of a text that begins at a column, inside of an escape
sequence or not. -/
def widthsFrom (column : Nat) (inEscape : Bool) : List Char → List Nat
  | [] => []
  | c :: cs =>
    if inEscape then 0 :: widthsFrom column (c != 'm') cs
    else if c == '\x1b' then 0 :: widthsFrom column true cs
    else
      let width := if c == '\t' then tabWidth - column % tabWidth else ofChar c
      width :: widthsFrom (column + width) false cs

/-- The number of columns of each character of a line. -/
def widths (line : List Char) : List Nat := widthsFrom 0 false line

/-- The number of columns of a line. -/
def ofLine (line : List Char) : Nat := (widths line).foldr (· + ·) 0

/-- A line with blanks in the place of its tabs. -/
def expandTabs (line : List Char) : List Char :=
  (line.zip (widths line)).flatMap fun (c, width) =>
    if c == '\t' then List.replicate width ' ' else [c]

end PermissionLint.Text.Width
