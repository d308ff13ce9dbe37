/-
Patterns: descriptions of what to read, and the reading of a source by them.

A pattern is data.  Choices are ordered: the second alternative is tried, from the same state, only
if the first one fails.  A grammar gives a pattern to each of its rules, and `Pattern.read` is the
only function that interprets patterns, so a fact about all trees that any grammar can build is one
induction.

Nodes are built by *frames*: `framed p` collects the nodes that `p` adds, and `wrap k` makes one
node of what has been collected so far.  A node with a fixed beginning is `node k p`; one whose
kind only shows at its end wraps there; and an operator that continues a finished phrase wraps what
came before it together with what follows.
-/
import PermissionLint.Syntax.Reader

namespace PermissionLint.Syntax

/-- What to read, over rules named by `ρ`. -/
inductive Pattern (ρ : Type) where
  /-- Nothing. -/
  | skip
  /-- A token, which becomes a leaf. -/
  | token (kind : Kind) (lexeme : Lexeme)
  /-- A piece of a string that is spelled by a lexeme. -/
  | fragment (kind : Kind) (lexeme : Lexeme)
  /-- The opening delimiter of a string. -/
  | openString
  /-- Text of a string. -/
  | stringText
  /-- Asks that neither text nor the end of a string is next. -/
  | textStops
  /-- The closing delimiter of a string. -/
  | closeString
  /-- White space. -/
  | blanks
  /-- A comment or a line continuation. -/
  | aside
  /-- The end of a statement. -/
  | newline
  /-- The beginning of a block. -/
  | indent
  /-- The end of a block. -/
  | dedent
  /-- The end of the text. -/
  | finish
  /-- Only white space is left of the text. -/
  | textEnd
  /-- Notes where a statement begins. -/
  | begin
  /-- One after the other. -/
  | seq (first second : Pattern ρ)
  /-- The first one that fits. -/
  | alt (first second : Pattern ρ)
  /-- As often as it fits. -/
  | many (p : Pattern ρ)
  /-- Only looks whether the pattern fits, and asks that it does or that it does not. -/
  | ahead (fits : Bool) (p : Pattern ρ)
  /-- Looks at the kind of the last node, and asks that it is one of these or none of these. -/
  | lastIs (fits : Bool) (kinds : List Kind)
  /-- Looks whether a star follows one or more opening parentheses, and asks that it does or that it
  does not. -/
  | starEnclosed (fits : Bool)
  /-- A frame of its own. -/
  | framed (p : Pattern ρ)
  /-- A frame of its own, whose nodes play a role. -/
  | part (role : Role) (p : Pattern ρ)
  /-- Makes one node of the frame. -/
  | wrap (kind : Kind)
  /-- Adds a node that covers nothing. -/
  | blank (kind : Kind)
  /-- Gives the nodes of the frame a role. -/
  | label (role : Role)
  /-- Reads where phrases end in another way. -/
  | ending (e : Ending) (p : Pattern ρ)
  /-- A phrase is complete: what may follow it is viable.  `more` says that an operand may follow,
  too. -/
  | settled (more : Bool)
  /-- Sets what layout is viable. -/
  | expect (v : Viable)
  /-- What a rule stands for. -/
  | rule (r : ρ)

namespace Pattern

variable {ρ : Type}

instance : AndThen (Pattern ρ) := ⟨fun p q => seq p (q ())⟩

instance : OrElse (Pattern ρ) := ⟨fun p q => alt p (q ())⟩

/-- The outcome of reading: the new state, or where the last statement begins that was begun. -/
abbrev Outcome := Except Nat Reader

/-- A step that fails leaves the note where reading came to. -/
def Outcome.ofOption (r : Reader) : Option Reader → Outcome
  | some s => .ok s
  | none => .error r.reached

/-- Reads a source by a pattern.  `fuel` bounds the depth of the reading; running out of it is
failure. -/
def read (grammar : ρ → Pattern ρ) : (fuel : Nat) → Ending → Pattern ρ → Reader → Outcome
  | 0, _, _, r => .error r.reached
  | fuel + 1, e, p, r =>
    let step (s : Option Reader) : Outcome := .ofOption r s
    match p with
    | skip => .ok r
    | token kind lexeme => step (r.token kind lexeme)
    | fragment kind lexeme => step (r.fragment kind lexeme)
    | openString => step r.openString
    | stringText => step r.stringText
    | textStops => if r.textStops then .ok r else .error r.reached
    | closeString => step r.closeString
    | blanks => .ok r.blanks
    | aside => step r.aside
    | newline => step r.newline
    | indent => step r.indent
    | dedent => step r.dedent
    | finish => step r.finish
    | textEnd => if r.rest.all Reader.isBlank then .ok r else .error r.reached
    | begin => .ok r.begin
    | seq p q =>
      match read grammar fuel e p r with
      | .ok s => read grammar fuel e q s
      | .error n => .error n
    | alt p q =>
      match read grammar fuel e p r with
      | .ok s => .ok s
      | .error n => read grammar fuel e q { r with reached := max r.reached n }
    | many p =>
      match read grammar fuel e p r with
      | .ok s => read grammar fuel e (many p) s
      | .error n => .ok { r with reached := max r.reached n }
    | ahead fits p =>
      match read grammar fuel e p r with
      | .ok _ => if fits then .ok r else .error r.reached
      | .error _ => if fits then .error r.reached else .ok r
    | lastIs fits kinds => if r.lastIs kinds == fits then .ok r else .error r.reached
    | starEnclosed fits =>
      if Reader.starEnclosed false false r.rest == fits then .ok r else .error r.reached
    | framed p =>
      match read grammar fuel e p { r with nodes := [] } with
      | .ok s => .ok { s with nodes := s.nodes ++ r.nodes }
      | .error n => .error n
    | part role p =>
      match read grammar fuel e p { r with nodes := [] } with
      | .ok s => .ok { s with nodes := s.nodes.map (Node.withRole role) ++ r.nodes }
      | .error n => .error n
    | wrap kind => step (r.wrap kind)
    | blank kind => .ok (r.blank kind)
    | label role => .ok (r.label role)
    | ending e p => read grammar fuel e p r
    | settled more => .ok { r with viable := { e.viable with quote := more } }
    | expect v => .ok { r with viable := v }
    | rule name => read grammar fuel e (grammar name) r

/-! ## Derived patterns -/

/-- A phrase is complete: what may follow it is viable. -/
def settle : Pattern ρ := settled false

/-- A phrase is complete, or an operand follows. -/
def pause : Pattern ρ := settled true

/-- The pattern, or nothing. -/
def opt (p : Pattern ρ) : Pattern ρ := alt p skip

/-- At least once. -/
def several (p : Pattern ρ) : Pattern ρ := seq p (many p)

/-- A node whose kind is known from the start. -/
def node (kind : Kind) (p : Pattern ρ) : Pattern ρ := framed (seq p (wrap kind))

/-- An operator or punctuation mark, read as the longest one. -/
def op (spelling : String) : Pattern ρ := token (.mark spelling) (.op spelling)

/-- A punctuation mark, whatever follows it. -/
def punct (spelling : String) : Pattern ρ := token (.mark spelling) (.punct spelling)

/-- A keyword. -/
def keyword (spelling : String) : Pattern ρ := token (.mark spelling) (.keyword spelling)

/-- One of the operators. -/
def oneOf : List String → Pattern ρ
  | [] => ahead false skip
  | [s] => op s
  | s :: ss => alt (op s) (oneOf ss)

/-- A comma after which the list may end. -/
def comma : Pattern ρ := seq (op ",") pause

/-- A list separated by commas, with or without a comma at its end. -/
def commaList (p : Pattern ρ) : Pattern ρ := seq p (seq (many (seq comma p)) (opt comma))

/-- A list separated by commas, without a comma at its end. -/
def strictList (p : Pattern ρ) : Pattern ρ := seq p (many (seq (op ",") p))

/-- An opening bracket, after which the closing one may follow at once. -/
def opening (mark : String) : Pattern ρ := seq (op mark) (expect { closer := true, quote := true })

/-- A bracketed phrase: the opening mark, the inside, the closing mark. -/
def bracketed (left right : String) (p : Pattern ρ) : Pattern ρ :=
  seq (opening left) (seq (ending .bracket p) (seq (op right) settle))

end Pattern

end PermissionLint.Syntax
