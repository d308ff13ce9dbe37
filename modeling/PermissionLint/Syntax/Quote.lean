/-
String literals: their delimiters and the text between them.

A string begins with a prefix of letters and one or three quotation marks.  The prefix decides how
a backslash and a brace inside are read.  The text is read in pieces: a piece ends before a
delimiter, before an escape sequence and, in a format string, before a brace.
-/

namespace PermissionLint.Syntax

/-- The delimiter of a string that has been opened. -/
structure Quote where
  /-- The quotation mark: `'`, `"` or a backtick. -/
  mark : Char
  /-- Three marks instead of one. -/
  triple : Bool
  /-- Braces hold expressions. -/
  format : Bool
  /-- Backslashes are ordinary characters. -/
  raw : Bool
  /-- The string holds bytes. -/
  bytes : Bool
  deriving DecidableEq, Repr

/-- A piece of a string. -/
inductive Quote.Piece where
  /-- Text, by its number of characters. -/
  | text (length : Nat)
  /-- The closing delimiter, by its number of characters. -/
  | close (length : Nat)
  deriving DecidableEq, Repr

namespace Quote

/-- Opens a string: reads its prefix and its marks, and counts the characters. -/
def openAux (q : Quote) (n : Nat) : List Char → Option (Quote × Nat)
  | [] => none
  | c :: cs =>
    if c ∈ ['f', 'F', 't', 'T'] then openAux { q with format := true } (n + 1) cs
    else if c ∈ ['r', 'R'] then openAux { q with raw := true } (n + 1) cs
    else if c ∈ ['b', 'B'] then openAux { q with bytes := true } (n + 1) cs
    else if c ∈ ['u', 'U'] then openAux q (n + 1) cs
    else if c == '`' then some ({ q with mark := c }, n + 1)
    else if c == '\'' || c == '"' then
      if cs.take 2 == [c, c] then some ({ q with mark := c, triple := true }, n + 3)
      else some ({ q with mark := c }, n + 1)
    else none

/-- The opening delimiter at the front of a text, with its number of characters. -/
def open? (cs : List Char) : Option (Quote × Nat) := openAux ⟨'\'', false, false, false, false⟩ 0 cs

/-- The next piece of a string, given that `n` characters have been passed, of which the piece has
`content` if any of them is text for certain.

Inside a raw string a backslash takes a quotation mark, a backslash or a line break after it along.
In a bytes string `\N`, `\u` and `\U` are text, together with the character after them.  A single
quotation mark does not close a triple-quoted string, and a line break ends a string that is not
triple-quoted unless it is the first character of its piece. -/
def piece (q : Quote) : (fuel : Nat) → (content : Bool) → (n : Nat) → List Char → Option Piece
  | 0, _, _, _ => none
  | _ + 1, _, _, [] => none
  | fuel + 1, content, n, c :: cs =>
    let ended : Option Piece := if content then some (.text n) else none
    if q.format && (c == '{' || c == '}') then ended
    else if c == '\\' then
      if q.raw then
        let (n, cs) := match cs with
          | d :: ds => if d == q.mark || d == '\\' then (n + 2, ds) else (n + 1, cs)
          | [] => (n + 1, cs)
        match cs with
        | '\r' :: '\n' :: rest => piece q fuel content (n + 2) rest
        | '\r' :: rest | '\n' :: rest => piece q fuel content (n + 1) rest
        | rest => piece q fuel content n rest
      else if q.bytes then
        match cs with
        | d :: _ :: rest =>
          if d ∈ ['N', 'u', 'U'] then piece q fuel true (n + 3) rest else ended
        | _ => ended
      else ended
    else if c == q.mark then
      if q.triple then
        match cs with
        | d :: e :: _ =>
          if d == q.mark && e == q.mark then
            if content then some (.text n) else some (.close (n + 3))
          else if d == q.mark then some (.text (n + 2))
          else some (.text (n + 1))
        | [d] => some (.text (if d == q.mark then n + 2 else n + 1))
        | [] => some (.text (n + 1))
      else if content then some (.text n) else some (.close (n + 1))
    else if c == '\n' && content && !q.triple then none
    else piece q fuel true (n + 1) cs

/-- The next piece of a string whose text begins at the front of `cs`, if it has fewer than `size`
characters. -/
def piece? (q : Quote) (size : Nat) (cs : List Char) : Option Piece := q.piece (size + 1) false 0 cs

/-- A brace written twice, which stands for itself in a format string. -/
def doubledBrace? (q : Quote) : List Char → Option Nat
  | '{' :: '{' :: _ | '}' :: '}' :: _ => if q.format then some 2 else none
  | _ => none

end Quote

end PermissionLint.Syntax
