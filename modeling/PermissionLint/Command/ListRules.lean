/-
Listing the rules.
-/
import PermissionLint.Command.Help
import PermissionLint.Permission.Registry

namespace PermissionLint.Command

/-- A text at the left of a field. -/
def field (width : Nat) (text : String) : String :=
  String.ofList (Severity.pad text.toList width .left none)

/-- A line of the table of rules. -/
def tableLine (code name severity description : String) : String :=
  field 10 code ++ " " ++ field 28 name ++ " " ++ field 9 severity ++ " " ++ description

/-- The line about a rule. -/
def ruleLine (r : Rule) : String := tableLine r.code r.name r.severity.name r.description

/-- The list of all rules. -/
def rulesText : String :=
  unlines (["Available rules:", "", tableLine "Code" "Name" "Severity" "Description",
      String.ofList (List.replicate 80 '-')]
    ++ Rule.all.map ruleLine
    ++ ["", "Use --rules to run a subset, by name or code:",
      "  drf-lint check --rules require-is-authenticated",
      "  drf-lint check --rules PDR001"])

end PermissionLint.Command
