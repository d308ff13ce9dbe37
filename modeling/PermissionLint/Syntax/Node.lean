/-
Concrete syntax trees.

A node has a kind, the range of bytes of the source that it covers, and its children in the order
of the source.  It also carries the role that it plays in its parent (the name of a class, the
right side of an assignment, ...), so that a parent finds a part by its role and not by counting.

Nodes have no text of their own: the text of a node is the part of the source that its span covers.
-/
import PermissionLint.Syntax.Kind

namespace PermissionLint.Syntax

/-- A half-open range of bytes. -/
structure Span where
  /-- The first byte. -/
  start : Nat
  /-- The byte after the last one. -/
  stop : Nat
  deriving DecidableEq, Repr

/-- The role of a node in its parent. -/
inductive Role where
  /-- The name of a class or of a function. -/
  | name
  /-- The parenthesised bases of a class. -/
  | superclasses
  /-- The block below a header. -/
  | body
  /-- The class or function below its decorators. -/
  | definition
  /-- The target of an assignment. -/
  | left
  /-- The value of an assignment. -/
  | right
  /-- The annotation of an assignment. -/
  | typeHint
  /-- The expression whose attribute is taken. -/
  | object
  /-- The name of the attribute that is taken. -/
  | attributeName
  /-- The expression that is called. -/
  | function
  /-- The arguments of a call. -/
  | arguments
  /-- The value of a keyword argument. -/
  | value
  deriving DecidableEq, Repr

/-- A node of a concrete syntax tree. -/
structure Node where
  /-- What the node is. -/
  kind : Kind
  /-- The bytes of the source that the node covers. -/
  span : Span
  /-- The role of the node in its parent, if it has one. -/
  role : Option Role
  /-- Whether the node may stand anywhere: a comment or a line continuation. -/
  extra : Bool
  /-- The children, in the order of the source. -/
  children : List Node
  deriving Repr

namespace Node

/-- A node without children. -/
def leaf (kind : Kind) (span : Span) : Node := ⟨kind, span, none, false, []⟩

/-- A comment or a line continuation. -/
def aside (kind : Kind) (span : Span) : Node := ⟨kind, span, none, true, []⟩

/-- The node carries meaning: it is named and it is not an extra. -/
def isPhrase (n : Node) : Bool := n.kind.isNamed && !n.extra

/-- The children that carry meaning. -/
def phrases (n : Node) : List Node := n.children.filter isPhrase

/-- The first child with the given role. -/
def child? (n : Node) (role : Role) : Option Node :=
  n.children.find? fun c => c.role == some role

/-- Some child has the given kind. -/
def hasChild (n : Node) (kind : Kind) : Bool := n.children.any fun c => c.kind == kind

/-- The same node in the given role.  Extras play no role. -/
def withRole (role : Role) (n : Node) : Node :=
  if n.extra then n else { n with role := some role }

/-- The nodes between the first and the last one, as one range. -/
def cover (first last : Node) : Span := ⟨first.span.start, last.span.stop⟩

end Node

end PermissionLint.Syntax
