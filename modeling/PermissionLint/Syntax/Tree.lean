/-
Reading a whole source into its concrete syntax tree.
-/
import PermissionLint.Source.Position
import PermissionLint.Syntax.Grammar

namespace PermissionLint.Syntax

open PermissionLint.Source

/-- A source that is not well formed, with the place of the statement that cannot be completed. -/
structure SyntaxError where
  position : Position
  deriving DecidableEq, Repr

/-- The wording of a syntax error. -/
def SyntaxError.message (e : SyntaxError) : String :=
  s!"syntax error at {e.position.line}:{e.position.column}"

/-- A bound on the depth of reading a text. -/
def depthBound (text : List Char) : Nat := 128 * (text.length + 8)

/-- The concrete syntax tree of a text. -/
def Node.ofText (text : List Char) : Except SyntaxError Node :=
  let failure (offset : Nat) : SyntaxError := ⟨Position.ofOffset text offset⟩
  if '\x00' ∈ text then .error (failure 0)
  else
    match Pattern.read Grammar.rules (depthBound text) .construct Grammar.file { rest := text } with
    | .ok r => .ok ⟨.root, ⟨0, byteLength text⟩, none, false, r.nodes.reverse⟩
    | .error offset => .error (failure offset)

end PermissionLint.Syntax
