/-
From the concrete syntax tree of a source to its model.

Only nodes that carry meaning are looked at, so comments leave no trace.  Parentheses leave none
either: a parenthesised expression is what it holds, and so is a parenthesised target unless a
comma makes it a tuple.  A statement has the position of its own node, also where it is wrapped in
decorators or its value in parentheses; names and attributes have the text that their nodes cover.
-/
import PermissionLint.Model.Basic
import PermissionLint.Syntax.Tree

namespace PermissionLint.Model

open PermissionLint.Source PermissionLint.Syntax

variable (text : List Char)

/-- The place where a node begins. -/
def positionOf (n : Node) : Position := Position.ofOffset text n.span.start

/-- The text that a node covers. -/
def spelling (n : Node) : String := String.ofList (slice text n.span.start n.span.stop)

/-- The text of the first node with the given role, or nothing. -/
def spellingAt (role : Role) (ns : List Node) : String :=
  match ns.find? fun n => n.role == some role with
  | some n => spelling text n
  | none => ""

/-! ## Expressions -/

mutual

/-- The expression that a node stands for. -/
def exprOf : Node → Expr
  | ⟨kind, span, role, extra, children⟩ =>
    let n : Node := ⟨kind, span, role, extra, children⟩
    let pos := positionOf text n
    match kind with
    | .identifier => .name (spelling text n) pos
    | .list | .listPattern => .list (exprsOf children) pos
    | .tuple | .expressionList | .patternList => .tuple (exprsOf children) pos
    | .tuplePattern =>
      match exprsOf children with
      | [inner] => if n.hasChild (.mark ",") then .tuple [inner] pos else inner
      | elts => .tuple elts pos
    | .parenthesizedExpression =>
      match exprsOf children with
      | inner :: _ => inner
      | [] => .other kind pos
    | .attributeRef =>
      match exprAt .object children, children.find? fun c => c.role == some .attributeName with
      | some value, some name => .attr value (spelling text name) pos
      | _, _ => .other kind pos
    | .call =>
      match exprAt .function children with
      | some func => .call func (argumentsAt .arguments children) pos
      | none => .other kind pos
    | .listSplat | .listSplatPattern =>
      match exprsOf children with
      | inner :: _ => .starred inner pos
      | [] => .other kind pos
    | _ => .other kind pos

/-- The expressions that the meaningful nodes of a list stand for. -/
def exprsOf : List Node → List Expr
  | [] => []
  | n :: ns => if n.isPhrase then exprOf n :: exprsOf ns else exprsOf ns

/-- The expression of the first node with the given role. -/
def exprAt (role : Role) : List Node → Option Expr
  | [] => none
  | n :: ns => if n.role == some role then some (exprOf n) else exprAt role ns

/-- The arguments among the nodes of a list.  A keyword argument counts as its value. -/
def argumentsOf : List Node → List Expr
  | [] => []
  | ⟨kind, span, role, extra, children⟩ :: ns =>
    let n : Node := ⟨kind, span, role, extra, children⟩
    if n.isPhrase then
      let whole := exprOf ⟨kind, span, role, extra, children⟩
      (if kind == .keywordArgument then (exprAt .value children).getD whole else whole)
        :: argumentsOf ns
    else argumentsOf ns

/-- The arguments of the first node with the given role. -/
def argumentsAt (role : Role) : List Node → List Expr
  | [] => []
  | ⟨_, _, role', _, children⟩ :: ns =>
    if role' == some role then argumentsOf children else argumentsAt role ns

end

/-! ## Assignments -/

mutual

/-- The targets and the value of the right side of an assignment: an assignment on the right adds
its own target. -/
def chainOf : Node → Option (List Expr × Expr)
  | ⟨kind, span, role, extra, children⟩ =>
    if kind == .assignment then
      match exprAt text .left children, chainAt children with
      | some target, some (targets, value) => some (target :: targets, value)
      | _, _ => none
    else some ([], exprOf text ⟨kind, span, role, extra, children⟩)

/-- The chain that the right side among the nodes begins. -/
def chainAt : List Node → Option (List Expr × Expr)
  | [] => none
  | n :: ns => if n.role == some .right then chainOf n else chainAt ns

end

/-- The assignment that a node stands for, as the statement at `pos`.  There is none for a chain
that ends in an annotation without a value. -/
def assignmentOf (pos : Position) (n : Node) : Option Stmt :=
  match exprAt text .left n.children with
  | none => none
  | some left =>
    match n.child? .typeHint with
    | some hint =>
      let inner := (exprsOf text hint.children).head?
      some (.annAssign left (inner.getD (exprOf text hint)) (exprAt text .right n.children) pos)
    | none => (chainAt text n.children).map fun (targets, value) => .assign (left :: targets) value pos

/-- The statement that an expression statement with the given parts stands for. -/
def simpleStmtOf (pos : Position) (parts : List Node) : Stmt :=
  match parts with
  | [only] =>
    if only.kind == .assignment then (assignmentOf text pos only).getD (.other only.kind pos)
    else .other only.kind pos
  | _ => .other .expressionStatement pos

/-- The kind of compound statement that a kind of node stands for. -/
def CompoundKind.ofKind? : Kind → Option CompoundKind
  | .ifStatement => some .ifElse
  | .forStatement => some .forLoop
  | .whileStatement => some .whileLoop
  | .tryStatement => some .tryExcept
  | .withStatement => some .withBlock
  | .matchStatement => some .matchCase
  | _ => none

/-! ## Statements -/

mutual

/-- The statement that a node stands for. -/
def stmtOf : Node → Stmt
  | ⟨kind, span, role, extra, children⟩ =>
    let n : Node := ⟨kind, span, role, extra, children⟩
    let pos := positionOf text n
    match kind with
    | .classDefinition =>
      .classDef (spellingAt text .name children) (argumentsAt text .superclasses children)
        (bodyAt children) pos
    | .functionDefinition =>
      .functionDef (spellingAt text .name children) (n.hasChild (.mark "async")) (bodyAt children)
        pos
    | .decoratedDefinition => (definitionAt children).getD (.other kind pos)
    | .expressionStatement => simpleStmtOf text pos n.phrases
    | _ =>
      match CompoundKind.ofKind? kind with
      | some c => .compound c (bodiesOf (kind == .matchStatement) children) pos
      | none => .other kind pos

/-- The statements that the meaningful nodes of a list stand for. -/
def stmtsOf : List Node → List Stmt
  | [] => []
  | n :: ns => if n.isPhrase then stmtOf n :: stmtsOf ns else stmtsOf ns

/-- The statements of the body among the nodes of a definition. -/
def bodyAt : List Node → List Stmt
  | [] => []
  | ⟨_, _, role, _, children⟩ :: ns =>
    if role == some .body then stmtsOf children else bodyAt ns

/-- The definition below decorators. -/
def definitionAt : List Node → Option Stmt
  | [] => none
  | n :: ns => if n.role == some .definition then some (stmtOf n) else definitionAt ns

/-- The bodies among the nodes of a compound statement or of one of its clauses.  The block of a
`match` statement holds clauses and not statements. -/
def bodiesOf (inMatch : Bool) : List Node → List (List Stmt)
  | [] => []
  | ⟨kind, _, _, extra, children⟩ :: ns =>
    (if extra then []
      else if kind == .block then if inMatch then bodiesOf false children else [stmtsOf children]
      else if kind.isClause then bodiesOf false children
      else [])
      ++ bodiesOf inMatch ns

end

/-- The model that the tree of a whole file stands for. -/
def Module.ofTree (root : Node) : Module := ⟨stmtsOf text root.children⟩

/-- The model of a source. -/
def Module.parse (source : String) : Except SyntaxError Module :=
  let text := source.toList
  match Node.ofText text with
  | .ok root => .ok (Module.ofTree text root)
  | .error e => .error e

end PermissionLint.Model
