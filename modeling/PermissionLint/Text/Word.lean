/-
Words: the longest run of name characters at the front of a text.

A name begins with an underscore or a letter and goes on with letters, digits, underscores and
combining marks, in the sense of the Unicode properties `XID_Start` and `XID_Continue`.  Keywords
are words too; telling them from names is left to the grammar.
-/
import PermissionLint.Text.WordRanges

namespace PermissionLint.Text.Word

/-- `n` lies in one of the closed ranges. -/
def inRanges (ranges : List (List (Nat × Nat))) (n : Nat) : Bool :=
  ranges.any fun part => part.any fun r => r.1 ≤ n && n ≤ r.2

/-- The character may begin a name. -/
def isStart (c : Char) : Bool :=
  if c.toNat < 128 then c.isAlpha || c == '_' else inRanges startRanges c.toNat

/-- The character may stand in a name after its beginning. -/
def isContinue (c : Char) : Bool :=
  if c.toNat < 128 then c.isAlphanum || c == '_'
  else inRanges startRanges c.toNat || inRanges continueRanges c.toNat

/-- The word at the front of a text; empty if the text does not begin with one. -/
def leading : List Char → List Char
  | [] => []
  | c :: cs => if isStart c then c :: cs.takeWhile isContinue else []

end PermissionLint.Text.Word
