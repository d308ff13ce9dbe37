/-
Violations: what a rule found, where, and what to do about it.
-/
import PermissionLint.Severity

namespace PermissionLint

/-- Where a violation was found. -/
structure Location where
  /-- The file, relative to the directory that is checked. -/
  file : String
  /-- The line, from one. -/
  line : Nat
  /-- The column, from one. -/
  column : Nat
  /-- The first byte of the span to point at. -/
  offset : Nat := 0
  /-- The number of bytes of that span; zero if there is none. -/
  length : Nat := 0
  deriving DecidableEq, Repr

/-- One finding of one rule. -/
structure Violation where
  /-- The code of the rule, for instance `PDR001`. -/
  code : String
  /-- The name of the rule. -/
  rule : String
  severity : Severity
  location : Location
  /-- What is wrong, without the code. -/
  message : String
  /-- How to mend it. -/
  suggestion : Option String := none
  deriving DecidableEq, Repr

namespace Location

/-- The file and the position, with colons between them. -/
def describe (l : Location) : String :=
  l.file ++ ":" ++ toString l.line ++ ":" ++ toString l.column

end Location

namespace Violation

/-- The violation on one line. -/
def describe (v : Violation) : String :=
  v.location.describe ++ ": " ++ v.severity.name ++ " [" ++ v.code ++ "] " ++ v.message

/-- The violation as a block of lines: where it is, what is wrong, and how to mend it. -/
def format (v : Violation) : String :=
  v.code ++ " " ++ v.rule ++ " at " ++ v.location.describe ++ "\n  "
    ++ v.severity.name ++ ": " ++ v.message ++ "\n"
    ++ match v.suggestion with
      | some hint => "  = help: " ++ hint ++ "\n"
      | none => ""

/-- The title of a violation in a snippet. -/
def title (v : Violation) : String := "[" ++ v.code ++ "] " ++ v.message

end Violation

end PermissionLint
