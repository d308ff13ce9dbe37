/-
The state of reading a source: what is left of the text, which blocks and strings are open, what
layout is viable, and the nodes that have been built.

The nodes belong to a *frame*, the node under construction.  They are kept newest first.  Taking a
token adds the comments and continuations before it and then the token itself, so the nodes of a
frame always stand in the order of the source.
-/
import PermissionLint.Syntax.Layout
import PermissionLint.Syntax.Lexeme
import PermissionLint.Syntax.Node
import PermissionLint.Syntax.Quote

namespace PermissionLint.Syntax

/-- The number of bytes of a text in UTF-8. -/
def byteLength (cs : List Char) : Nat := cs.foldr (fun c n => c.utf8Size + n) 0

@[simp]
theorem byteLength_nil : byteLength [] = 0 := rfl

@[simp]
theorem byteLength_cons (c : Char) (cs : List Char) :
    byteLength (c :: cs) = c.utf8Size + byteLength cs := rfl

@[simp]
theorem byteLength_append (cs ds : List Char) :
    byteLength (cs ++ ds) = byteLength cs + byteLength ds := by
  induction cs with
  | nil => simp
  | cons c cs ih => simp [ih, Nat.add_assoc]

/-- A state of reading. -/
structure Reader where
  /-- The text that is left. -/
  rest : List Char
  /-- A bound on the number of its characters: that of the whole source. -/
  size : Nat := rest.length
  /-- The number of bytes before it. -/
  offset : Nat := 0
  /-- The indentations of the open blocks, innermost first. -/
  indents : List Nat := [0]
  /-- The delimiters of the open strings, innermost first. -/
  quotes : List Quote := []
  /-- The last delimiter that was read opened a format string. -/
  inFormat : Bool := false
  /-- The white space that was passed last is layout.  A string may follow only such white space. -/
  inLayout : Bool := true
  /-- What layout may come next. -/
  viable : Viable := .statement
  /-- The nodes of the frame, newest first. -/
  nodes : List Node := []
  /-- Where the last statement begins that was begun at all. -/
  reached : Nat := 0
  deriving Repr

namespace Reader

/-- White space between tokens. -/
def isBlank (c : Char) : Bool :=
  ('\t' ≤ c && c ≤ '\r') || c == ' ' || c == '\uFEFF' || c == '\u2060' || c == '\u200B'

/-- Takes `n` characters as a node. -/
def take (r : Reader) (n : Nat) (node : Kind → Span → Node) (kind : Kind) : Reader :=
  let stop := r.offset + byteLength (r.rest.take n)
  { r with
    rest := r.rest.drop n
    offset := stop
    nodes := node kind ⟨r.offset, stop⟩ :: r.nodes }

/-- Passes over `n` characters. -/
def pass (r : Reader) (n : Nat) : Reader :=
  { r with rest := r.rest.drop n, offset := r.offset + byteLength (r.rest.take n) }

/-- The number of characters of the comment or line continuation at the front of the text. -/
def aside? : List Char → Option (Kind × Nat)
  | '#' :: cs => some (.comment, 1 + (cs.takeWhile (· != '\n')).length)
  | '\\' :: '\n' :: _ => some (.lineContinuation, 2)
  | '\\' :: '\r' :: '\n' :: _ => some (.lineContinuation, 3)
  | ['\\'] => some (.lineContinuation, 1)
  | _ => none

/-- White space that also shapes the layout. -/
def isLayout (c : Char) : Bool := c ∈ [' ', '\t', '\n', '\r', '\x0c']

/-- Passes over white space.  The mark of byte order at the very beginning of a text counts as
layout. -/
def blanks (r : Reader) : Reader :=
  let gap := r.rest.takeWhile isBlank
  let shape := if r.offset == 0 && gap.head? == some '\uFEFF' then gap.tail else gap
  { r.pass gap.length with inLayout := shape.all isLayout }

/-- Takes the comment or line continuation at this very place. -/
def aside (r : Reader) : Option Reader :=
  (aside? r.rest).map fun (kind, n) => r.take n Node.aside kind

/-- Goes on to the next token, taking the comments and line continuations before it.  Answers the
layout that stands in the way, if any. -/
def approach : (fuel : Nat) → Reader → Option Break × Reader
  | 0, r => (none, r)
  | fuel + 1, r =>
    match Break.before r.viable r.inFormat r.indents r.rest with
    | some b => (some b, r)
    | none =>
      let r := r.blanks
      match r.aside with
      | some s => approach fuel s
      | none => (none, r)

/-- Goes on to the next token. -/
def next (r : Reader) : Option Break × Reader := approach (r.size + 1) r

/-- Takes a token that is spelled by the lexeme. -/
def token (r : Reader) (kind : Kind) (l : Lexeme) : Option Reader :=
  match r.next with
  | (some _, _) => none
  | (none, r) =>
    match l.length? r.rest with
    | some (n + 1) => some { r.take (n + 1) Node.leaf kind with viable := .operand }
    | _ => none

/-- Takes a piece of a string that is spelled by the lexeme, at this very place. -/
def fragment (r : Reader) (kind : Kind) (l : Lexeme) : Option Reader :=
  match l.length? r.rest with
  | some (n + 1) => some (r.take (n + 1) Node.leaf kind)
  | _ => none

/-- Opens a string. -/
def openString (r : Reader) : Option Reader :=
  match r.next with
  | (some _, _) => none
  | (none, r) =>
    match Quote.open? r.rest with
    | some (q, n) =>
      if !r.inLayout then none else
      some { r.take n Node.leaf .stringStart with quotes := q :: r.quotes, inFormat := q.format }
    | none => none

/-- Takes a piece of text of the innermost open string. -/
def stringText (r : Reader) : Option Reader :=
  match r.quotes with
  | [] => none
  | q :: _ =>
    match q.doubledBrace? r.rest with
    | some n => some (r.take n Node.leaf .escapeInterpolation)
    | none =>
      match q.piece? r.size r.rest with
      | some (.text (n + 1)) => some (r.take (n + 1) Node.leaf .stringContent)
      | _ => none

/-- Neither text nor the end of the innermost open string is next: an escape sequence or a brace, or
a line break that the text would have to cross. -/
def textStops (r : Reader) : Bool :=
  match r.quotes with
  | [] => false
  | q :: _ => (q.doubledBrace? r.rest).isNone && (q.piece? r.size r.rest).isNone

/-- Closes the innermost open string. -/
def closeString (r : Reader) : Option Reader :=
  match r.quotes with
  | [] => none
  | q :: quotes =>
    match q.piece? r.size r.rest with
    | some (.close n) =>
      some { r.take n Node.leaf .stringEnd with quotes, inFormat := false, viable := .operand }
    | _ => none

/-- Ends a statement. -/
def newline (r : Reader) : Option Reader :=
  match r.next with
  | (some .newline, r) => some { r with viable := .statement }
  | _ => none

/-- Opens a block. -/
def indent (r : Reader) : Option Reader :=
  match r.next with
  | (some (.indent width), r) =>
    some { r with indents := width :: r.indents, viable := .statement }
  | _ => none

/-- Closes a block. -/
def dedent (r : Reader) : Option Reader :=
  match r.next with
  | (some .dedent, r) => some { r with indents := r.indents.tail, viable := .statement }
  | _ => none

/-- The text has ended. -/
def finish (r : Reader) : Option Reader :=
  match r.next with
  | (none, r) => if r.rest.isEmpty then some r else none
  | _ => none

/-- Notes that a statement is begun here. -/
def begin (r : Reader) : Reader :=
  match r.next with
  | (none, s) => if s.rest.isEmpty then r else { r with reached := max r.reached s.offset }
  | _ => r

/-- Makes one node of the nodes of the frame.  Comments before it stay outside. -/
def wrap (r : Reader) (kind : Kind) : Option Reader :=
  match r.nodes.reverse.span Node.extra with
  | (_, []) => none
  | (asides, first :: others) =>
    let last := r.nodes.headD first
    let node : Node := ⟨kind, Node.cover first last, none, false, first :: others⟩
    some { r with nodes := node :: asides.reverse }

/-- Adds a node that covers nothing. -/
def blank (r : Reader) (kind : Kind) : Reader :=
  { r with nodes := Node.leaf kind ⟨r.offset, r.offset⟩ :: r.nodes }

/-- Gives the nodes of the frame a role. -/
def label (r : Reader) (role : Role) : Reader := { r with nodes := r.nodes.map (Node.withRole role) }

/-- A star follows one or more opening parentheses.  Comments and line continuations between them
are passed over. -/
def starEnclosed : (inComment opened : Bool) → List Char → Bool
  | _, _, [] => false
  | true, opened, c :: cs => starEnclosed (c != '\n') opened cs
  | false, opened, c :: cs =>
    if c == '(' then starEnclosed false true cs
    else if c == '#' then starEnclosed true opened cs
    else if isBlank c || c == '\\' then starEnclosed false opened cs
    else opened && c == '*'

/-- The last node that is no comment has one of the kinds. -/
def lastIs (r : Reader) (kinds : List Kind) : Bool :=
  (r.nodes.find? (!·.extra)).any fun n => n.kind ∈ kinds

end Reader

end PermissionLint.Syntax
