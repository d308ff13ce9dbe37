/-
The check for permissions: a class that lists its permission classes has to list `IsAuthenticated`.

Only an assignment of a list or a tuple to the one name `permission_classes`, standing directly in
the body of a class, is looked at; and only a bare name among the elements counts.  The findings of
a class come before those of the classes inside it.
-/
import PermissionLint.Model.Visit

namespace PermissionLint.Permission

open PermissionLint.Source PermissionLint.Model

/-- The code of the rule. -/
def code : String := "PDR001"

/-- The name of the rule. -/
def name : String := "require-is-authenticated"

/-- The attribute that lists the permissions of a class. -/
def attributeName : String := "permission_classes"

/-- The permission that has to be listed. -/
def required : String := "IsAuthenticated"

/-- What is wrong, without the code. -/
def summary : String := required ++ " permission is missing in " ++ attributeName

/-- What is wrong. -/
def message : String := code ++ " " ++ summary

/-- How to mend it. -/
def hint : String :=
  "Add " ++ required ++ " to " ++ attributeName ++ ", or `# noqa: " ++ code
    ++ "` if the endpoint is public on purpose"

/-- An assignment that lacks the permission, by its position. -/
structure Diagnostic where
  position : Position
  deriving DecidableEq, Repr

/-- The assignment of `value` to `targets` sets the permissions of a class without the required
one. -/
def lacksRequired (targets : List Expr) (value : Expr) : Bool :=
  match targets with
  | [target] =>
    target.isName attributeName &&
      match value.elements? with
      | some elts => !elts.any (·.isName required)
      | none => false
  | _ => false

/-- What is wrong with a statement of the body of a class. -/
def diagnose : Stmt → Option Diagnostic
  | .assign targets value p => if lacksRequired targets value then some ⟨p⟩ else none
  | _ => none

/-- What is wrong with the statements of the body of a class. -/
def diagnoseBody : Stmt → List Diagnostic
  | .classDef _ _ body _ => body.filterMap diagnose
  | _ => []

/-- The visitor that collects what is wrong. -/
def collector : Visitor (List Diagnostic) := fun event descend found =>
  match event with
  | .classDef s => descend (found ++ diagnoseBody s)
  | _ => descend found

/-- Everything that is wrong with a module. -/
def checkModule (m : Module) : List Diagnostic := collector.visitModule m []

end PermissionLint.Permission
