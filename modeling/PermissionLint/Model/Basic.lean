/-
The model of a module: the part of a program that the rules look at.

Classes, functions, assignments and the bodies of compound statements are kept; any other statement
or expression is only known by its kind.  Every node carries its position.
-/
import PermissionLint.Source.Position
import PermissionLint.Syntax.Kind

namespace PermissionLint.Model

open PermissionLint.Source PermissionLint.Syntax

/-- An expression. -/
inductive Expr where
  /-- A name. -/
  | name (id : String) (pos : Position)
  /-- A list display. -/
  | list (elts : List Expr) (pos : Position)
  /-- A tuple, with or without parentheses. -/
  | tuple (elts : List Expr) (pos : Position)
  /-- An attribute of a value. -/
  | attr (value : Expr) (attr : String) (pos : Position)
  /-- A call.  A keyword argument is its value. -/
  | call (func : Expr) (args : List Expr) (pos : Position)
  /-- A starred value. -/
  | starred (value : Expr) (pos : Position)
  /-- Anything else. -/
  | other (kind : Kind) (pos : Position)
  deriving Repr

namespace Expr

/-- Where the expression begins. -/
def pos : Expr → Position
  | name _ p | list _ p | tuple _ p | attr _ _ p | call _ _ p | starred _ p | other _ p => p

/-- The elements of a list or a tuple. -/
def elements? : Expr → Option (List Expr)
  | list elts _ | tuple elts _ => some elts
  | _ => none

/-- The expression is the given name. -/
def isName (id : String) : Expr → Bool
  | name x _ => x == id
  | _ => false

end Expr

/-- The compound statements whose bodies are kept. -/
inductive CompoundKind where
  | ifElse
  | forLoop
  | whileLoop
  | tryExcept
  | withBlock
  | matchCase
  deriving DecidableEq, Repr

/-- A statement. -/
inductive Stmt where
  /-- A class, with its bases and its body.  Its keyword arguments count as bases. -/
  | classDef (name : String) (bases : List Expr) (body : List Stmt) (pos : Position)
  /-- A function. -/
  | functionDef (name : String) (isAsync : Bool) (body : List Stmt) (pos : Position)
  /-- An assignment of one value to one target or more. -/
  | assign (targets : List Expr) (value : Expr) (pos : Position)
  /-- An annotated target, with or without a value. -/
  | annAssign (target hint : Expr) (value : Option Expr) (pos : Position)
  /-- A compound statement with its bodies in the order of the source. -/
  | compound (kind : CompoundKind) (bodies : List (List Stmt)) (pos : Position)
  /-- Anything else. -/
  | other (kind : Kind) (pos : Position)
  deriving Repr

/-- Where the statement begins. -/
def Stmt.pos : Stmt → Position
  | classDef _ _ _ p | functionDef _ _ _ p | assign _ _ p | annAssign _ _ _ p | compound _ _ p
  | other _ p => p

/-- A module: its statements in order. -/
structure Module where
  body : List Stmt
  deriving Repr

end PermissionLint.Model
