/-
Layout: what the line breaks and the indentation before a token mean.

Between two tokens there may be blanks, comments, continued lines and line breaks.  A line break
may end a statement, open a block or close one, or mean nothing at all.  Which of these it means
depends on what the grammar can use at that place (`Viable`) and on how far the next line with
code is indented compared with the open blocks (`Margin`):

* a block opens only where one may begin, and only by a larger indentation;
* a block closes where one may end; it is also closed, too early, by a line that is indented less
  inside a phrase that is not complete and not in brackets;
* otherwise the break ends the statement where one may end, and is skipped where none may.

A space counts one column, a tab eight; a carriage return or a form feed starts the count again.
-/

namespace PermissionLint.Syntax

/-- What the grammar can use before the next token, as far as layout depends on it. -/
structure Viable where
  /-- The statement may end here. -/
  newline : Bool := false
  /-- A block may begin here. -/
  indent : Bool := false
  /-- The block may end here. -/
  dedent : Bool := false
  /-- A closing bracket may stand here. -/
  closer : Bool := false
  /-- A string may stand here. -/
  quote : Bool := false
  deriving DecidableEq, Repr

namespace Viable

/-- An operand is due: nothing may end here. -/
def operand : Viable := { quote := true }

/-- A statement or the end of the block is due. -/
def statement : Viable := { dedent := true, quote := true }

/-- The body of a header is due. -/
def suite : Viable := { newline := true, indent := true, quote := true }

end Viable

/-- What may follow a complete phrase. -/
inductive Ending where
  /-- The end of the line. -/
  | line
  /-- A closing bracket. -/
  | bracket
  /-- Neither: the construct goes on. -/
  | construct
  deriving DecidableEq, Repr

/-- What is viable after a complete phrase. -/
def Ending.viable : Ending → Viable
  | line => { newline := true }
  | bracket => { closer := true }
  | construct => {}

/-- What a line break amounts to. -/
inductive Break where
  /-- The statement ends. -/
  | newline
  /-- A block opens, indented by the given number of columns. -/
  | indent (width : Nat)
  /-- The innermost block closes. -/
  | dedent
  deriving DecidableEq, Repr

/-- The white space before the next code. -/
structure Margin where
  /-- A line break, or the end of the text, was crossed. -/
  crossed : Bool := false
  /-- The indentation of the next code. -/
  width : Nat := 0
  /-- The indentation of the first line that holds only a comment. -/
  comment : Option Nat := none
  /-- The next character of code; none at the end of the text. -/
  next : Option Char := none
  deriving DecidableEq, Repr

namespace Margin

/-- Measures the white space at the front of a text, going on from `m`.

Lines that hold only a comment are skipped if `comments` is set, and end the white space otherwise.
A comment behind code on the same line, and a backslash that continues no line, give no margin. -/
def extend (comments : Bool) (inComment : Bool) (m : Margin) : List Char → Option Margin
  | [] => some { m with crossed := true, width := 0, next := none }
  | c :: cs =>
    if inComment then
      if c == '\n' then extend comments false { m with width := 0 } cs
      else extend comments true m cs
    else if c == '\n' then extend comments false { m with crossed := true, width := 0 } cs
    else if c == ' ' then extend comments false { m with width := m.width + 1 } cs
    else if c == '\r' || c == '\x0c' then extend comments false { m with width := 0 } cs
    else if c == '\t' then extend comments false { m with width := m.width + 8 } cs
    else if c == '#' && comments then
      if m.crossed then extend comments true { m with comment := m.comment.orElse fun _ => some m.width } cs
      else none
    else if c == '\\' then
      match cs with
      | '\n' :: rest => extend comments false m rest
      | '\r' :: '\n' :: rest => extend comments false m rest
      | [] | ['\r'] => some { m with crossed := true, width := 0, next := none }
      | _ => none
    else some { m with next := some c }

/-- The white space at the front of a text. -/
def measure (comments : Bool) (cs : List Char) : Option Margin := extend comments false {} cs

/-- The next code is a quotation mark. -/
def beforeQuote (m : Margin) : Bool := m.next.any fun c => c == '"' || c == '\'' || c == '`'

/-- The line of the next code closes the innermost block, of indentation `current`. -/
def closes (v : Viable) (current : Nat) (m : Margin) : Bool :=
  (v.dedent || (!v.newline && !(v.quote && m.beforeQuote) && !v.closer))
    && m.width < current && m.comment.all (· < current)

end Margin

/-- The meaning of the white space at the front of a text, where `v` is viable and the open blocks
have the given indentations, innermost first.  Inside a format string no block closes. -/
def Break.before (v : Viable) (inFormat : Bool) (indents : List Nat) (cs : List Char) :
    Option Break :=
  match Margin.measure (v.newline || v.indent || v.dedent) cs with
  | none => none
  | some m =>
    let current := indents.headD 0
    if !m.crossed then none
    else if v.indent && current < m.width then some (.indent m.width)
    else if m.closes v current && !inFormat then some .dedent
    else if v.newline then some .newline
    else none

end PermissionLint.Syntax
