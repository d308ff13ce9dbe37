/-
Violations shown in their source: the lines around a violation, with a label under the span it points
at.

One line before the span and one after it are shown.  The span is underlined and its middle leads to
the label; a span that reaches over several lines is drawn at their left instead.  Which lines are
near is counted with carriage returns as line ends of their own, while the lines that are shown end at
line feeds only.
-/
import PermissionLint.Text.Lines
import PermissionLint.Text.Width
import PermissionLint.Violation

namespace PermissionLint.Snippet

open PermissionLint.Text

/-- The number of bytes of a text. -/
def byteCount (cs : List Char) : Nat := cs.foldr (fun c n => c.utf8Size + n) 0

/-! ## The lines around a span -/

/-- The rows of a text, each with its end: a line feed, a carriage return, or both. -/
def rows : List Char → List (List Char)
  | [] => []
  | '\r' :: '\n' :: cs => ['\r', '\n'] :: rows cs
  | c :: cs =>
    if c == '\n' || c == '\r' then [c] :: rows cs
    else
      match rows cs with
      | [] => [[c]]
      | row :: rest => (c :: row) :: rest

/-- A character that belongs to the end of a row. -/
def isRowEnd (c : Char) : Bool := c == '\n' || c == '\r'

/-- The number of rows before the one that holds a byte, and the offset of that byte in it. -/
def locate (offset : Nat) : List (List Char) → Nat × Nat
  | [] => (0, offset)
  | [_] => (0, offset)
  | row :: rest =>
    if offset < byteCount row then (0, offset)
    else
      let (n, column) := locate (offset - byteCount row) rest
      (n + 1, column)

/-- The number of the last row that a span reaches, from zero.  A span that ends in the end of a row
reaches the next one. -/
def lastRow (text : List (List Char)) (offset length : Nat) : Nat :=
  let (n, column) := locate (offset + length - 1) text
  let content := (text.getD n []).takeWhile (!isRowEnd ·)
  if byteCount content ≤ column && content.length < (text.getD n []).length then n + 1 else n

/-- A line as it is shown. -/
structure Line where
  /-- The number in front of it. -/
  number : Nat
  /-- The offset of its first byte in the source. -/
  offset : Nat
  /-- The number of its bytes, its end included. -/
  length : Nat
  text : List Char
  deriving DecidableEq, Repr

/-- The lines of a part of the source that begins at an offset, after a number of rows.  What is cut
off after a carriage return does not count as a line. -/
def numbered (count offset : Nat) : List (List Char) → List Line
  | [] => []
  | line :: rest =>
    let number := if line.getLast? == some '\r' then count else count + 1
    ⟨number, offset, byteCount line, chomp line⟩
      :: numbered (count + 1) (offset + byteCount line) rest

/-- The lines around a span. -/
def around (source : List Char) (offset length : Nat) : List Line :=
  let text := rows source
  let first := (locate offset text).1 - 1
  let count := lastRow text offset length + 2 - first
  let before := byteCount (text.take first).flatten
  numbered first before (linesInclusive ((text.drop first).take count).flatten)

/-! ## Drawing -/

/-- A span of the source with its label. -/
structure Label where
  offset : Nat
  length : Nat
  text : String
  deriving DecidableEq, Repr

namespace Label

/-- The offset after the last byte; an empty span takes one byte here. -/
def stop (l : Label) : Nat := l.offset + max l.length 1

/-- The span begins in the line. -/
def beginsIn (l : Label) (line : Line) : Bool :=
  line.offset ≤ l.offset && l.offset < line.offset + line.length

/-- The span ends in the line. -/
def endsIn (l : Label) (line : Line) : Bool :=
  line.offset < l.stop && l.stop ≤ line.offset + line.length

/-- The span begins before the line and ends after it. -/
def passes (l : Label) (line : Line) : Bool :=
  l.offset < line.offset && line.offset + line.length < l.stop

/-- The whole span lies in the line. -/
def within (l : Label) (line : Line) : Bool :=
  line.offset ≤ l.offset && l.offset + l.length ≤ line.offset + line.length

/-- A part of the span, but not all of it, lies in the line. -/
def crosses (l : Label) (line : Line) : Bool :=
  (l.beginsIn line || l.endsIn line || l.passes line) && !(l.beginsIn line && l.endsIn line)

end Label

/-- A number of blanks. -/
def blanks (n : Nat) : String := String.ofList (List.replicate n ' ')

/-- A character several times. -/
def repeated (n : Nat) (c : Char) : String := String.ofList (List.replicate n c)

/-- A number at the right of a field. -/
def rightAligned (width n : Nat) : String :=
  blanks (width - (toString n).length) ++ toString n

/-- The characters of a line before a byte.  A character that the byte is inside of counts if asked
for. -/
def charsBefore (index : Nat) (inside : Bool) : List Char → List Char
  | [] => []
  | c :: cs =>
    if index == 0 then []
    else if c.utf8Size ≤ index then c :: charsBefore (index - c.utf8Size) inside cs
    else if inside then [c] else []

/-- The column of a byte of the source in a line; what is past the line stands one column after
it. -/
def columnOf (line : Line) (offset : Nat) (inside : Bool) : Nat :=
  let index := offset - line.offset
  Width.ofLine (charsBefore index inside line.text)
    + if byteCount line.text < index then 1 else 0

/-- What stands at the left of a line if the span reaches over several lines. -/
def marginOf (l : Label) (line : Line) : String :=
  if !l.crosses line then "    "
  else if line.offset ≤ l.offset then ",-> "
  else if l.offset + l.length ≤ line.offset + line.length then "|-> "
  else "|   "

/-- The beginning of a line that has no number. -/
def unnumbered (width : Nat) : String := " " ++ blanks width ++ " : "

/-- The line that underlines a span, and the one with its label. -/
def underlined (l : Label) (width : Nat) (line : Line) : List String :=
  let start := columnOf line l.offset false
  let stop :=
    if l.length == 0 then start + 1 else max (columnOf line (l.offset + l.length) true) (start + 1)
  let middle := (start + stop) / 2
  let mark := if l.length == 0 then "^" else "|"
  [unnumbered width ++ blanks start ++ repeated (middle - start) '^' ++ mark
      ++ repeated (stop - middle - 1) '^',
    unnumbered width ++ blanks middle ++ "`-- " ++ l.text]

/-- A line with its number and all that belongs under it. -/
def drawLine (l : Label) (width : Nat) (hasMargin : Bool) (line : Line) : List String :=
  let margin := if hasMargin then marginOf l line else ""
  let shown := " " ++ rightAligned width line.number ++ " | " ++ margin
    ++ String.ofList (Width.expandTabs line.text)
  let under :=
    if !(l.beginsIn line || l.endsIn line || l.passes line) then []
    else if l.within line then underlined l width line
    else if l.offset < line.offset && l.offset + l.length ≤ line.offset + line.length then
      [unnumbered width ++ "`---- " ++ l.text]
    else []
  shown :: under

/-- The lines of a snippet. -/
def draw (file : String) (source : List Char) (l : Label) : List String :=
  let lines := around source l.offset l.length
  let (row, column) := locate l.offset (rows source)
  let width := (toString ((lines.getLast?.map Line.number).getD 0)).length
  let hasMargin := lines.any l.crosses
  [blanks (width + 2) ++ s!",-[{file}:{row + 1}:{column + 1}]"]
    ++ lines.flatMap (drawLine l width hasMargin)
    ++ [blanks (width + 2) ++ "`----"]

/-- A violation with the source it was found in. -/
def render (v : Violation) (source : List Char) : String :=
  let label : Label := ⟨v.location.offset, v.location.length, v.rule⟩
  let help := match v.suggestion with
    | some hint => ["  help: " ++ hint]
    | none => []
  let lines := ["  x " ++ v.title] ++ draw v.location.file source label ++ help
  String.join (lines.map (· ++ "\n"))

end PermissionLint.Snippet
