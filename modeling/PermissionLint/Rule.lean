/-
Rules: named checks of one file at a time.
-/
import PermissionLint.FileContext
import PermissionLint.Model.Basic
import PermissionLint.Violation

namespace PermissionLint

open PermissionLint.Model

/-- What a rule has to say about a file. -/
structure Findings where
  /-- The violations, in the order the rule found them. -/
  violations : List Violation := []
  /-- Remarks for whoever follows the run in detail. -/
  remarks : List String := []
  deriving Repr

/-- A check of one file. -/
structure Rule where
  /-- The name, which is also that of the rule's section of the configuration. -/
  name : String
  /-- The short code, by which comments refer to the rule. -/
  code : String
  /-- What the rule asks for, in one line. -/
  description : String := ""
  /-- The severity of its violations unless the configuration says otherwise. -/
  severity : Severity := .error
  /-- Checks a file and its model. -/
  check : FileContext → Module → Findings

end PermissionLint
