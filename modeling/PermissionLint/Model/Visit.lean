/-
Visiting a module: depth first, in the order of the source.

Every node is announced by an event before its parts are visited.  A statement is announced twice:
as a statement and, unless nothing is known about it but its kind, as what it is.  A visitor gets
each event together with the visit of the node's parts, and decides what to do with both; leaving
the parts alone means not to go down there.
-/
import PermissionLint.Model.Basic

namespace PermissionLint.Model

/-- What a visitor can ask to be told about. -/
inductive Hook where
  | module
  | stmt
  | classDef
  | functionDef
  | assign
  | annAssign
  | compound
  | expr
  deriving DecidableEq, Repr

/-- The announcement of a node. -/
inductive Event where
  | module (m : Module)
  | stmt (s : Stmt)
  | classDef (s : Stmt)
  | functionDef (s : Stmt)
  | assign (s : Stmt)
  | annAssign (s : Stmt)
  | compound (s : Stmt)
  | expr (e : Expr)
  deriving Repr

/-- The hook that an event belongs to. -/
def Event.hook : Event → Hook
  | module _ => .module
  | stmt _ => .stmt
  | classDef _ => .classDef
  | functionDef _ => .functionDef
  | assign _ => .assign
  | annAssign _ => .annAssign
  | compound _ => .compound
  | expr _ => .expr

/-- A visitor with a state of type `σ`: what an event, with the visit of the parts of its node,
does to the state. -/
abbrev Visitor (σ : Type) := Event → (σ → σ) → σ → σ

namespace Visitor

variable {σ : Type} (v : Visitor σ)

mutual

/-- Visits an expression. -/
def visitExpr : Expr → σ → σ
  | .name id p => v (.expr (.name id p)) fun s => s
  | .list elts p => v (.expr (.list elts p)) (visitExprs elts)
  | .tuple elts p => v (.expr (.tuple elts p)) (visitExprs elts)
  | .attr value attr p => v (.expr (.attr value attr p)) (visitExpr value)
  | .call func args p =>
    v (.expr (.call func args p)) fun s => visitExprs args (visitExpr func s)
  | .starred value p => v (.expr (.starred value p)) (visitExpr value)
  | .other kind p => v (.expr (.other kind p)) fun s => s

/-- Visits expressions one after the other. -/
def visitExprs : List Expr → σ → σ
  | [] => fun s => s
  | e :: es => fun s => visitExprs es (visitExpr e s)

end

/-- Visits an expression if there is one. -/
def visitOptional : Option Expr → σ → σ
  | some e => visitExpr v e
  | none => fun s => s

mutual

/-- Visits a statement: as a statement, then as what it is. -/
def visitStmt : Stmt → σ → σ
  | .classDef name bases body p =>
    v (.stmt (.classDef name bases body p)) <|
      v (.classDef (.classDef name bases body p)) fun s => visitStmts body (visitExprs v bases s)
  | .functionDef name isAsync body p =>
    v (.stmt (.functionDef name isAsync body p)) <|
      v (.functionDef (.functionDef name isAsync body p)) (visitStmts body)
  | .assign targets value p =>
    v (.stmt (.assign targets value p)) <|
      v (.assign (.assign targets value p)) fun s => visitExpr v value (visitExprs v targets s)
  | .annAssign target hint value p =>
    v (.stmt (.annAssign target hint value p)) <|
      v (.annAssign (.annAssign target hint value p)) fun s =>
        visitOptional v value (visitExpr v hint (visitExpr v target s))
  | .compound kind bodies p =>
    v (.stmt (.compound kind bodies p)) <|
      v (.compound (.compound kind bodies p)) (visitBodies bodies)
  | .other kind p => v (.stmt (.other kind p)) fun s => s

/-- Visits statements one after the other. -/
def visitStmts : List Stmt → σ → σ
  | [] => fun s => s
  | t :: ts => fun s => visitStmts ts (visitStmt t s)

/-- Visits the bodies of a compound statement one after the other. -/
def visitBodies : List (List Stmt) → σ → σ
  | [] => fun s => s
  | b :: bs => fun s => visitBodies bs (visitStmts b s)

end

/-- Visits a whole module. -/
def visitModule (m : Module) : σ → σ := v (.module m) (visitStmts v m.body)

/-! ## Recording -/

/-- The visitor that writes down the events of some hooks and goes down everywhere except below
others. -/
def recorder (hooks stops : Hook → Bool) : Visitor (List Event) := fun event descend seen =>
  let seen := if hooks event.hook then seen ++ [event] else seen
  if stops event.hook then seen else descend seen

end Visitor

namespace Module

/-- All events of a visit that does not go down below the given hooks. -/
def events (m : Module) (stops : List Hook) : List Event :=
  (Visitor.recorder (fun _ => true) (· ∈ stops)).visitModule m []

/-- All expressions of a module in the order they are visited. -/
def exprs (m : Module) : List Expr :=
  ((Visitor.recorder (· == .expr) fun _ => false).visitModule m []).filterMap fun
    | .expr e => some e
    | _ => none

end Module

end PermissionLint.Model
