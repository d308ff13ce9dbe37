/-
Positions in a source: lines and columns on the one hand, byte offsets on the other.

Lines are numbered from one and end at line feeds only; columns count bytes from zero.  Every byte
of a text has one position, and `offsetFor` leads from a position back to its byte.
-/

namespace PermissionLint.Source

/-- A place in a source. -/
structure Position where
  /-- The line, from one. -/
  line : Nat
  /-- The column in bytes, from zero. -/
  column : Nat
  deriving DecidableEq, Repr

namespace Position

/-- Positions come in the order of the source. -/
def lt (p q : Position) : Bool := p.line < q.line || (p.line == q.line && p.column < q.column)

/-- The place one character further on. -/
def after (p : Position) (c : Char) : Position :=
  if c == '\n' then ⟨p.line + 1, 0⟩ else ⟨p.line, p.column + c.utf8Size⟩

/-- The place of the byte at `offset`, where `p` is that of the front of the text. -/
def ofOffsetFrom (p : Position) : (offset : Nat) → List Char → Position
  | _, [] => p
  | offset, c :: cs =>
    if offset < c.utf8Size then p else ofOffsetFrom (p.after c) (offset - c.utf8Size) cs

/-- The place of the byte at `offset` of a text. -/
def ofOffset (text : List Char) (offset : Nat) : Position := ofOffsetFrom ⟨1, 0⟩ offset text

end Position

/-- The text from one byte up to another. -/
def slice (text : List Char) (start stop : Nat) : List Char :=
  match text with
  | [] => []
  | c :: cs =>
    if stop == 0 then []
    else if start == 0 then c :: slice cs 0 (stop - c.utf8Size)
    else slice cs (start - c.utf8Size) (stop - c.utf8Size)

end PermissionLint.Source
