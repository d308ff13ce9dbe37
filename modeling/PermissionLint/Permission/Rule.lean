/-
The check for permissions as a rule: it leaves out what is suppressed by comments and, if asked to,
test code.
-/
import PermissionLint.Permission.Check
import PermissionLint.Rule
import PermissionLint.Suppression

namespace PermissionLint.Permission

open PermissionLint.Model

/-- How the rule is set up. -/
structure Options where
  /-- Test code is not checked. -/
  allowInTests : Bool := false
  /-- The severity of violations. -/
  severity : Severity := .error
  deriving DecidableEq, Repr

/-- The finding is suppressed by a comment. -/
def isSuppressed (text : List Char) (d : Diagnostic) : Bool :=
  (Suppression.decide text d.position.line code.toList).isSuppressed

/-- The violation that a finding is. -/
def violationOf (severity : Severity) (file : FileContext) (d : Diagnostic) : Violation where
  code
  rule := name
  severity
  location := {
    file := String.ofList file.relativePath
    line := d.position.line
    column := d.position.column + 1
    offset := offsetFor file.text d.position.line d.position.column
    length := attributeName.utf8ByteSize }
  message := summary
  suggestion := some hint

/-- The remark about a finding that is suppressed. -/
def suppressedRemark (file : FileContext) (d : Diagnostic) : String :=
  code ++ " suppressed by noqa at " ++ String.ofList file.relativePath ++ ":"
    ++ toString d.position.line

/-- Checks a file. -/
def check (o : Options) (file : FileContext) (m : Module) : Findings :=
  if o.allowInTests && file.isTest then {}
  else
    let (suppressed, reported) := (checkModule m).partition (isSuppressed file.text)
    { violations := reported.map (violationOf o.severity file)
      remarks := suppressed.map (suppressedRemark file) }

/-- The rule. -/
def rule (o : Options) : Rule where
  name
  code
  description := "Requires " ++ required ++ " in " ++ attributeName ++ " lists"
  severity := o.severity
  check := check o

end PermissionLint.Permission
